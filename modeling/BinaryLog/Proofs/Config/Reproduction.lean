import BinaryLog.Proofs.Config.Accounts
import BinaryLog.Proofs.Config.WrittenLimits

/-!
# The reported rules reproduce the configuration

The rules that compiling reports are a configuration when they are written as clauses, with commas
between (`configText`). It has the same rules, one clause for each, and nothing is dropped from it.

* `pieces_intercalate`: what is written with commas between is found between the commas.
* `Rule.Writable`: a rule that can be written as a clause; all rules of a table are
  (`sound_addAll`).
* `addAll_clauses`: clauses of rules with different selectors are all bound.
* `reported_rules_reproduce_configuration`: so the reported rules have the effect of the
  configuration, and writing them once more changes nothing.
-/

namespace BinaryLog.Config

/-! ## Configurations and their pieces -/

theorem pieces_intercalate {texts : List String} (hne : texts ≠ [])
    (hcomma : ∀ text ∈ texts, ',' ∉ text.toList) :
    pieces (",".intercalate texts) = texts.map String.toList := by
  rw [pieces, String.toList_intercalate]
  exact List.splitOn_intercalate ',' (by simpa using hcomma) (by simpa using hne)

theorem forall_not_of_mem_splitOnP {α : Type} {p : α → Bool} {l piece : List α}
    (h : piece ∈ l.splitOnP p) : ∀ a ∈ piece, p a = false := by
  induction l generalizing piece with
  | nil =>
    obtain rfl : piece = [] := by simpa using h
    simp
  | cons a l ih =>
    obtain ⟨first, rest, hsplit⟩ := List.exists_cons_of_ne_nil (List.splitOnP_ne_nil p l)
    rw [hsplit] at ih
    cases hp : p a with
    | true =>
      rw [List.splitOnP_cons_eq_if_modifyHead, if_pos hp, hsplit] at h
      rcases List.mem_cons.1 h with rfl | h
      · simp
      · exact ih h
    | false =>
      rw [List.splitOnP_cons_eq_if_modifyHead, if_neg (by simp [hp]), hsplit,
        List.modifyHead_cons] at h
      rcases List.mem_cons.1 h with rfl | h
      · exact List.forall_mem_cons.2 ⟨hp, ih List.mem_cons_self⟩
      · exact ih (List.mem_cons_of_mem _ h)

theorem comma_notMem_of_mem_pieces {config : String} {piece : List Char}
    (h : piece ∈ pieces config) : ',' ∉ piece := by
  rw [pieces, List.splitOn_eq_splitOnP] at h
  intro hcomma
  have := forall_not_of_mem_splitOnP h ',' hcomma
  simp at this

/-! ## Rules as clauses -/

/-- A rule as a clause. -/
def Rule.clause (rule : Rule) : Clause := ⟨rule.selector, some (optionsOf rule.limits)⟩

/-- A rule that can be written as a clause of a configuration. -/
structure Rule.Writable (rule : Rule) : Prop where
  selector : rule.selector.WellFormed
  comma : ',' ∉ rule.selector.text.toList
  headers : rule.limits.headerBytes ≤ Limits.noLimit
  messages : rule.limits.messageBytes ≤ Limits.noLimit

/-- The selector of a reported rule, as it is written. -/
def Diagnostic.selectorText (d : Diagnostic) : String :=
  match d.fields.lookup "service", d.fields.lookup "method" with
  | some service, _ => service ++ "/*"
  | none, some method => method
  | none, none => "*"

/-- A reported rule as a clause: its selector and then its limits. -/
def Diagnostic.clauseText (d : Diagnostic) : String :=
  d.selectorText ++ (d.fields.lookup "policy").getD ""

/-- The reported rules as a configuration. -/
def configText (ds : List Diagnostic) : String :=
  ",".intercalate ((ds.filter (·.level = .info)).map Diagnostic.clauseText)

theorem clauseText_bound (rule : Rule) : (Diagnostic.bound rule).clauseText = rule.clause.text := by
  obtain ⟨selector, limits⟩ := rule
  cases selector <;> simp [Diagnostic.clauseText, Diagnostic.selectorText, Diagnostic.fields,
    Rule.clause, Clause.text, Selector.text, text_optionsOf, List.lookup_cons]

namespace Rule.Writable

variable {rule : Rule}

theorem wellFormed_clause (h : rule.Writable) : rule.clause.WellFormed := by
  refine ⟨h.selector, fun options hoptions => ?_⟩
  cases hoptions
  exact wellFormed_optionsOf

theorem comma_clause (h : rule.Writable) : ',' ∉ rule.clause.text.toList := by
  rw [Rule.clause, Clause.text, String.toList_append, List.mem_append, not_or]
  exact ⟨h.comma, comma_notMem_optionsOf⟩

theorem limits_clause (h : rule.Writable) : rule.clause.limits = .ok rule.limits :=
  limits_optionsOf h.headers h.messages

end Rule.Writable

namespace RuleTable

/-- The rules in force can be written as clauses and have different selectors. -/
structure Sound (t : RuleTable) : Prop where
  writable : ∀ rule ∈ t.rules, rule.Writable
  different : (t.rules.map Rule.selector).Nodup

theorem sound_add {t : RuleTable} (h : t.Sound) {c : Clause} (hw : c.WellFormed)
    (hcomma : ',' ∉ c.text.toList) : (t.add c).1.Sound := by
  unfold add
  split
  · exact ⟨h.writable, h.different⟩
  · rename_i l hl
    split
    · exact ⟨h.writable, h.different⟩
    · rename_i hfree
      obtain ⟨hheaders, hmessages⟩ := c.limits_le hl
      have hselector : ',' ∉ c.selector.text.toList := by
        intro hmem
        refine hcomma ?_
        unfold Clause.text
        split
        · exact hmem
        · rw [String.toList_append, List.mem_append]
          exact .inl hmem
      refine ⟨?_, ?_⟩
      · simpa [bind, or_imp, forall_and] using
          ⟨h.writable, ⟨hw.1, hselector, hheaders, hmessages⟩⟩
      · simpa [bind, List.nodup_append, h.different] using hfree

theorem sound_addAll {t : RuleTable} (h : t.Sound) {clauses : List Clause}
    (hw : ∀ c ∈ clauses, c.WellFormed) (hcomma : ∀ c ∈ clauses, ',' ∉ c.text.toList) :
    (t.addAll clauses).1.Sound := by
  induction clauses generalizing t with
  | nil => exact h
  | cons c clauses ih =>
    obtain ⟨hwc, hw⟩ := List.forall_mem_cons.1 hw
    obtain ⟨hcommac, hcomma⟩ := List.forall_mem_cons.1 hcomma
    exact ih (sound_add h hwc hcommac) hw hcomma

/-- Clauses of rules with selectors that differ from all others are all bound. -/
theorem addAll_clauses {t : RuleTable} {rules : List Rule}
    (h : Sound ⟨t.rules ++ rules, t.warnings⟩) :
    t.addAll (rules.map Rule.clause) = (⟨t.rules ++ rules, t.warnings⟩, rules.map .bound) := by
  induction rules generalizing t with
  | nil => simp [addAll]
  | cons rule rules ih =>
    have hfree : ¬ t.rules.any (·.selector == rule.clause.selector) = true := by
      have hdifferent := h.different
      rw [List.map_append, List.nodup_append] at hdifferent
      rw [any_selector_eq_true_iff]
      rintro ⟨earlier, hmem, heq⟩
      exact hdifferent.2.2 _ (List.mem_map_of_mem hmem) _ List.mem_cons_self heq
    have hadd : t.add rule.clause = (⟨t.rules ++ [rule], t.warnings⟩, .bound rule) := by
      have hlimits := (h.writable rule (by simp)).limits_clause
      rw [add, hlimits]
      simp only [if_neg hfree]
      rfl
    have hrest := @ih ⟨t.rules ++ [rule], t.warnings⟩ (by simpa using h)
    simp only [List.map_cons, addAll, hadd, hrest, List.append_assoc, List.singleton_append]

/-- Looking up a method sees the rules in force alone. -/
theorem resolve_of_rules_eq {t t' : RuleTable} (h : t'.rules = t.rules) (m : String) :
    t'.resolve m = t.resolve m := by
  simp only [resolve, lookup, find, h]

end RuleTable

/-- The rules of a compiled configuration can be written, and are those that are reported. -/
theorem sound_of_compile {config : String} {t : RuleTable} {ds : List Diagnostic}
    (h : compile config = (.ok t, ds)) :
    t.Sound ∧ t.rules.map .bound = ds.filter (·.level = .info) := by
  obtain ⟨clauses, hread, hadd⟩ := compile_eq_ok_iff.1 h
  obtain ⟨hw, htexts⟩ := readClauses_eq_ok_iff.1 hread
  have hcomma : ∀ c ∈ clauses, ',' ∉ c.text.toList := fun c hc =>
    comma_notMem_of_mem_pieces (htexts ▸ List.mem_map_of_mem hc)
  have hempty : RuleTable.empty.Sound := ⟨nofun, List.nodup_nil⟩
  have hsound := RuleTable.sound_addAll hempty hw hcomma
  obtain ⟨hrules, -⟩ := RuleTable.empty.reported_addAll clauses
  rw [hadd] at hsound hrules
  exact ⟨hsound, hrules⟩

theorem configText_of_rules {ds : List Diagnostic} {rules : List Rule}
    (h : rules.map .bound = ds.filter (·.level = .info)) :
    configText ds = ",".intercalate (rules.map fun rule => rule.clause.text) := by
  rw [configText, ← h, List.map_map]
  congr 1
  exact List.map_congr_left fun rule _ => clauseText_bound rule

/-- Rules written as clauses, with commas between, compile to these rules. -/
theorem compile_rules {rules : List Rule} (hne : rules ≠ [])
    (h : RuleTable.Sound ⟨rules, []⟩) :
    compile (",".intercalate (rules.map fun rule => rule.clause.text)) =
      (.ok ⟨rules, []⟩, rules.map .bound) := by
  refine compile_eq_ok_iff.2 ⟨rules.map Rule.clause, readClauses_eq_ok_iff.2 ⟨?_, ?_⟩, ?_⟩
  · intro c hc
    obtain ⟨rule, hrule, rfl⟩ := List.mem_map.1 hc
    exact (h.writable rule hrule).wellFormed_clause
  · rw [pieces_intercalate (by simpa using hne)]
    · simp
    · intro text htext
      obtain ⟨rule, hrule, rfl⟩ := List.mem_map.1 htext
      exact (h.writable rule hrule).comma_clause
  · exact RuleTable.addAll_clauses h

/-- **The reported rules reproduce the configuration.** Let a configuration compile with at least
one rule in force. The rules that are reported, written as clauses with commas between, compile
without a warning to a table that says the same of every method, and the same rules are reported,
in the same order. So writing them once more gives the same text. -/
theorem reported_rules_reproduce_configuration {config : String} {t : RuleTable}
    {ds : List Diagnostic} (h : compile config = (.ok t, ds)) (hne : ∃ d ∈ ds, d.level = .info) :
    ∃ t', compile (configText ds) = (.ok t', ds.filter (·.level = .info)) ∧ t'.warnings = [] ∧
      (∀ m, t'.resolve m = t.resolve m) ∧
      configText (ds.filter (·.level = .info)) = configText ds := by
  obtain ⟨hsound, hrules⟩ := sound_of_compile h
  have hnonempty : t.rules ≠ [] := by
    intro hnil
    obtain ⟨d, hd, hlevel⟩ := hne
    rw [hnil, List.map_nil, eq_comm, List.filter_eq_nil_iff] at hrules
    exact hrules d hd (decide_eq_true hlevel)
  refine ⟨⟨t.rules, []⟩, ?_, rfl, RuleTable.resolve_of_rules_eq rfl, ?_⟩
  · rw [configText_of_rules hrules, ← hrules]
    exact compile_rules hnonempty ⟨hsound.writable, hsound.different⟩
  · simp [configText]

/-- A clause without a count, one with leading zeros and one without a block; the other two are
dropped. -/
theorem reported_rules_reproduce_configuration_of_three :
    let t : RuleTable := ⟨[⟨.service "a", ⟨Limits.noLimit, 0⟩⟩, ⟨.all, ⟨7, 0⟩⟩,
      ⟨.method "a" "b", .unbounded⟩], [.badCount "c/d\x7bm:\x7d" (.notANumber ""),
        .duplicateSelector "a/*"]⟩
    let ds : List Diagnostic := [.bound ⟨.service "a", ⟨Limits.noLimit, 0⟩⟩,
      .dropped (.badCount "c/d\x7bm:\x7d" (.notANumber "")), .bound ⟨.all, ⟨7, 0⟩⟩,
      .dropped (.duplicateSelector "a/*"), .bound ⟨.method "a" "b", .unbounded⟩]
    (compile "a/*\x7bh\x7d,c/d\x7bm:\x7d,*\x7bh:007;m:0\x7d,a/*,a/b" = (.ok t, ds) ∧
      ∃ d ∈ ds, d.level = .info) ∧
    configText ds = "a/*\x7bh;m:0\x7d,*\x7bh:7;m:0\x7d,a/b\x7bh;m\x7d" ∧
    ∃ t', compile (configText ds) = (.ok t', ds.filter (·.level = .info)) ∧ t'.warnings = [] ∧
      (∀ m, t'.resolve m = t.resolve m) ∧
      configText (ds.filter (·.level = .info)) = configText ds := by
  intro t ds
  have h : compile "a/*\x7bh\x7d,c/d\x7bm:\x7d,*\x7bh:007;m:0\x7d,a/*,a/b" = (.ok t, ds) := rfl
  have hne : ∃ d ∈ ds, d.level = .info := ⟨_, List.mem_cons_self, rfl⟩
  exact ⟨⟨h, hne⟩, by decide +kernel, reported_rules_reproduce_configuration h hne⟩

end BinaryLog.Config
