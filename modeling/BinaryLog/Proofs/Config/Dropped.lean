import BinaryLog.Proofs.Config.Reproduction
import Mathlib.Data.List.InsertIdx

/-!
# Dropped clauses

What is made of a clause depends on the rules in force alone, and a clause that is dropped changes
none of them. So it can be left out of a configuration, and nothing else is different.

* `compile_joined`: clauses that can be written compile when they are put together.
* `addAll_of_rules_eq`: what is made of clauses depends on the rules in force, not on the warnings.
* `addAll_eraseIdx`: leaving out a dropped clause leaves out its diagnostic, and keeps the rules.
* `piece_of_dropped`, `compile_eraseIdx`: the warning quotes the clause, and without it the
  configuration compiles to the same rules.
* `dropped_clause_costs_itself`: so a dropped clause costs nothing but itself.
-/

namespace BinaryLog.Config

/-! ## Putting pieces together -/

/-- Pieces with commas between them. -/
def joined (pieces : List (List Char)) : String := ",".intercalate (pieces.map String.ofList)

/-- A configuration is its pieces with commas between them. -/
theorem joined_pieces (config : String) : joined (pieces config) = config := by
  rw [← String.toList_inj, joined, String.toList_intercalate, List.map_map]
  simp only [Function.comp_def, String.toList_ofList, List.map_id']
  exact List.intercalate_splitOn ','

theorem pieces_joined {ps : List (List Char)} (hne : ps ≠ []) (hcomma : ∀ p ∈ ps, ',' ∉ p) :
    pieces (joined ps) = ps := by
  have htexts : ∀ text ∈ ps.map String.ofList, ',' ∉ text.toList := by simpa using hcomma
  rw [joined, pieces_intercalate (by simpa using hne) htexts, List.map_map]
  simp [Function.comp_def]

/-- Clauses that can be written compile when they are put together. -/
theorem compile_joined {clauses : List Clause} {ps : List (List Char)} (hne : ps ≠ [])
    (hw : ∀ c ∈ clauses, c.WellFormed) (htexts : clauses.map (·.text.toList) = ps)
    (hcomma : ∀ p ∈ ps, ',' ∉ p) :
    compile (joined ps) =
      (.ok (RuleTable.empty.addAll clauses).1, (RuleTable.empty.addAll clauses).2) := by
  refine compile_eq_ok_iff.2 ⟨clauses, readClauses_eq_ok_iff.2 ⟨hw, ?_⟩, rfl⟩
  rw [pieces_joined hne hcomma, htexts]

/-! ## Leaving out a clause -/

namespace RuleTable

variable {t t' : RuleTable}

theorem add_of_rules_eq (h : t'.rules = t.rules) (c : Clause) :
    (t'.add c).1.rules = (t.add c).1.rules ∧ (t'.add c).2 = (t.add c).2 := by
  unfold add
  rw [h]
  split
  · exact ⟨h, rfl⟩
  · split
    · exact ⟨h, rfl⟩
    · simp [bind, h]

/-- What is made of clauses depends on the rules in force, not on the warnings. -/
theorem addAll_of_rules_eq (h : t'.rules = t.rules) (clauses : List Clause) :
    (t'.addAll clauses).1.rules = (t.addAll clauses).1.rules ∧
      (t'.addAll clauses).2 = (t.addAll clauses).2 := by
  induction clauses generalizing t t' with
  | nil => exact ⟨h, rfl⟩
  | cons c clauses ih =>
    obtain ⟨hrules, hdiagnostic⟩ := add_of_rules_eq h c
    obtain ⟨hlater, hdiagnostics⟩ := ih hrules
    exact ⟨hlater, congrArg₂ List.cons hdiagnostic hdiagnostics⟩

/-- A clause that is dropped leaves the rules as they are. -/
theorem rules_add_of_dropped {c : Clause} {warning : Warning} (h : (t.add c).2 = .dropped warning) :
    (t.add c).1.rules = t.rules := by
  unfold add at h ⊢
  split
  · rfl
  · rename_i l hl
    rw [hl] at h
    split
    · rfl
    · rename_i hfree
      simp only [if_neg hfree] at h
      cases h

/-- **A dropped clause can be left out**: its diagnostic goes with it, and the rules stay. -/
theorem addAll_eraseIdx {clauses : List Clause} {i : Nat} {warning : Warning}
    (h : (t.addAll clauses).2[i]? = some (.dropped warning)) :
    (t.addAll (clauses.eraseIdx i)).1.rules = (t.addAll clauses).1.rules ∧
      (t.addAll (clauses.eraseIdx i)).2 = (t.addAll clauses).2.eraseIdx i := by
  induction clauses generalizing t i with
  | nil => cases h
  | cons c clauses ih =>
    cases i with
    | zero =>
      have hdropped : (t.add c).2 = .dropped warning := Option.some.inj h
      exact addAll_of_rules_eq (rules_add_of_dropped hdropped).symm clauses
    | succ i =>
      obtain ⟨hrules, hdiagnostics⟩ := ih (t := (t.add c).1) h
      exact ⟨hrules, congrArg ((t.add c).2 :: ·) hdiagnostics⟩

end RuleTable

/-! ## Leaving out a diagnostic -/

theorem exists_eraseIdx_split {α : Type} {l : List α} {i : Nat} {a : α} (hi : l[i]? = some a) :
    ∃ before after, l = before ++ a :: after ∧ l.eraseIdx i = before ++ after := by
  obtain ⟨hlt, rfl⟩ := List.getElem?_eq_some_iff.1 hi
  exact ⟨l.take i, l.drop (i + 1), by simp, List.eraseIdx_eq_take_drop_succ l i⟩

/-- The clause that a warning is about. -/
def Warning.clause : Warning → String
  | duplicateSelector clause | badCount clause _ => clause

theorem Diagnostic.dropped_injective : Function.Injective Diagnostic.dropped :=
  fun _ _ => Diagnostic.dropped.inj

section
variable {ds : List Diagnostic} {i : Nat} {warning : Warning}
  (hi : ds[i]? = some (.dropped warning))
include hi

theorem info_of_eraseIdx :
    (ds.eraseIdx i).filter (·.level = .info) = ds.filter (·.level = .info) := by
  obtain ⟨before, after, hds, herase⟩ := exists_eraseIdx_split hi
  rw [herase, hds]
  simp [Diagnostic.level]

/-- Without the diagnostic of a dropped clause, the warnings are those without that of the
clause. -/
theorem warnings_of_eraseIdx {ws ws' : List Warning}
    (hws : ws.map .dropped = ds.filter (·.level = .warn))
    (hws' : ws'.map .dropped = (ds.eraseIdx i).filter (·.level = .warn)) :
    ∃ before after, ws = before ++ warning :: after ∧ ws' = before ++ after := by
  obtain ⟨before, after, hds, herase⟩ := exists_eraseIdx_split hi
  rw [hds, List.filter_append, List.filter_cons_of_pos rfl, List.map_eq_append_iff] at hws
  obtain ⟨before', rest, rfl, hbefore, hrest⟩ := hws
  obtain ⟨warning', after', rfl, hwarning, hafter⟩ := List.map_eq_cons_iff.1 hrest
  obtain rfl := Diagnostic.dropped_injective hwarning
  rw [herase, List.filter_append, ← hbefore, ← hafter, ← List.map_append] at hws'
  exact ⟨before', after', rfl, List.map_injective_iff.2 Diagnostic.dropped_injective hws'⟩

end

theorem Accounts.clause_eq {earlier : List Clause} {c : Clause} {warning : Warning}
    (h : Accounts earlier c (.dropped warning)) : warning.clause = c.text := by
  cases h <;> rfl

section
variable {config : String} {t : RuleTable} {ds : List Diagnostic} {i : Nat} {warning : Warning}
  (h : compile config = (.ok t, ds)) (hi : ds[i]? = some (.dropped warning))
include h hi

/-- A warning quotes the clause at its place. -/
theorem piece_of_dropped : (pieces config)[i]? = some warning.clause.toList := by
  obtain ⟨clauses, hread, hadd⟩ := compile_eq_ok_iff.1 h
  obtain ⟨-, htexts⟩ := readClauses_eq_ok_iff.1 hread
  obtain ⟨hcount, haccounts⟩ := RuleTable.accounts_addAll .empty clauses
  rw [hadd] at hcount haccounts
  obtain ⟨hlt, -⟩ := List.getElem?_eq_some_iff.1 hi
  have hclause : clauses[i]? = some clauses[i] := List.getElem?_eq_getElem (hcount ▸ hlt)
  obtain ⟨d, hd, haccount⟩ := haccounts i clauses[i] hclause
  obtain rfl : .dropped warning = d := Option.some.inj (hi.symm.trans hd)
  rw [← htexts, List.getElem?_map, hclause, haccount.clause_eq]
  rfl

/-- Without it, the clauses compile to a table with the same rules. -/
theorem compile_eraseIdx (hlength : 2 ≤ (pieces config).length) :
    ∃ t', compile (joined ((pieces config).eraseIdx i)) = (.ok t', ds.eraseIdx i) ∧
      t'.rules = t.rules := by
  obtain ⟨clauses, hread, hadd⟩ := compile_eq_ok_iff.1 h
  obtain ⟨hw, htexts⟩ := readClauses_eq_ok_iff.1 hread
  have hfull : (RuleTable.empty.addAll clauses).2[i]? = some (.dropped warning) := by rw [hadd, hi]
  obtain ⟨hrules, hdiagnostics⟩ := RuleTable.addAll_eraseIdx hfull
  rw [hadd] at hrules hdiagnostics
  have hcompile : compile (joined ((pieces config).eraseIdx i)) =
      (.ok (RuleTable.empty.addAll (clauses.eraseIdx i)).1,
        (RuleTable.empty.addAll (clauses.eraseIdx i)).2) := by
    apply compile_joined
    · rw [← List.length_pos_iff, List.length_eraseIdx]
      split <;> omega
    · exact fun c hc => hw c (List.mem_of_mem_eraseIdx hc)
    · rw [← htexts, List.eraseIdx_map]
    · exact fun p hp => comma_notMem_of_mem_pieces (List.mem_of_mem_eraseIdx hp)
  rw [hdiagnostics] at hcompile
  exact ⟨_, hcompile, hrules⟩

end

/-- The warnings of a configuration are those reported. -/
theorem warnings_of_compile {config : String} {t : RuleTable} {ds : List Diagnostic}
    (h : compile config = (.ok t, ds)) : t.warnings.map .dropped = ds.filter (·.level = .warn) := by
  obtain ⟨clauses, -, hadd⟩ := compile_eq_ok_iff.1 h
  obtain ⟨-, hwarnings⟩ := RuleTable.empty.reported_addAll clauses
  rw [hadd] at hwarnings
  exact hwarnings

/-- **A dropped clause costs nothing but itself.** Take a configuration of at least two clauses that
compiles, and one of its clauses that caused a warning, which then is about that clause. Without it,
and one comma, the configuration compiles, and without its diagnostic the same is reported. Every
method has the same limits, the same rules are reported, and the warnings are the same but for that
one. -/
theorem dropped_clause_costs_itself {config : String} {t : RuleTable} {ds : List Diagnostic}
    {i : Nat} {warning : Warning} (h : compile config = (.ok t, ds))
    (hlength : 2 ≤ (pieces config).length) (hi : ds[i]? = some (.dropped warning)) :
    (pieces config)[i]? = some warning.clause.toList ∧
    ∃ t', compile (joined ((pieces config).eraseIdx i)) = (.ok t', ds.eraseIdx i) ∧
      (∀ m, t'.resolve m = t.resolve m) ∧
      (ds.eraseIdx i).filter (·.level = .info) = ds.filter (·.level = .info) ∧
      ∃ before after, t.warnings = before ++ warning :: after ∧ t'.warnings = before ++ after := by
  obtain ⟨t', hcompile, hrules⟩ := compile_eraseIdx h hi hlength
  refine ⟨piece_of_dropped h hi, t', hcompile, RuleTable.resolve_of_rules_eq hrules,
    info_of_eraseIdx hi, ?_⟩
  exact warnings_of_eraseIdx hi (warnings_of_compile h) (warnings_of_compile hcompile)

/-- Of three clauses for one selector the first one is bound and the others are dropped; one clause
has a bad count. The second of the three is left out. -/
theorem dropped_clause_costs_itself_of_five :
    let config := "a/*\x7bh:1\x7d,*\x7bm:x\x7d,a/*\x7bh:2\x7d,*,a/*"
    let t : RuleTable := ⟨[⟨.service "a", ⟨1, 0⟩⟩, ⟨.all, .unbounded⟩],
      [.badCount "*\x7bm:x\x7d" (.notANumber "x"), .duplicateSelector "a/*\x7bh:2\x7d",
        .duplicateSelector "a/*"]⟩
    let ds : List Diagnostic := [.bound ⟨.service "a", ⟨1, 0⟩⟩,
      .dropped (.badCount "*\x7bm:x\x7d" (.notANumber "x")),
      .dropped (.duplicateSelector "a/*\x7bh:2\x7d"), .bound ⟨.all, .unbounded⟩,
      .dropped (.duplicateSelector "a/*")]
    (compile config = (.ok t, ds) ∧ 2 ≤ (pieces config).length ∧
      ds[2]? = some (.dropped (.duplicateSelector "a/*\x7bh:2\x7d"))) ∧
    joined ((pieces config).eraseIdx 2) = "a/*\x7bh:1\x7d,*\x7bm:x\x7d,*,a/*" ∧
    (pieces config)[2]? = some "a/*\x7bh:2\x7d".toList ∧
    ∃ t', compile (joined ((pieces config).eraseIdx 2)) = (.ok t', ds.eraseIdx 2) ∧
      (∀ m, t'.resolve m = t.resolve m) ∧
      (ds.eraseIdx 2).filter (·.level = .info) = ds.filter (·.level = .info) ∧
      ∃ before after, t.warnings = before ++ .duplicateSelector "a/*\x7bh:2\x7d" :: after ∧
        t'.warnings = before ++ after := by
  intro config t ds
  have h : compile "a/*\x7bh:1\x7d,*\x7bm:x\x7d,a/*\x7bh:2\x7d,*,a/*" = (.ok t, ds) := rfl
  have hlength : 2 ≤ (pieces config).length := by decide +kernel
  have hi : ds[2]? = some (.dropped (.duplicateSelector "a/*\x7bh:2\x7d")) := rfl
  exact ⟨⟨h, hlength, hi⟩, by decide +kernel, dropped_clause_costs_itself h hlength hi⟩

end BinaryLog.Config
