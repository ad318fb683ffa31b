import BinaryLog.Proofs.Config.Dropped
import Mathlib.Data.List.Perm.Basic

/-!
# Clauses in another order

Clauses for different selectors do not get in each other's way: what is reported of a clause depends
on the clauses for the same selector before it, and a look-up on the first usable clause for one
selector of each kind. So the order of clauses matters only between those for the same selector.

* `reportedFor_eq`: what is reported of the clauses for a selector is the same when all others are
  left out; hence `reported_perm_of_inOrder`, for clauses that keep their order (`InOrder`).
* `resolve_eq_of_inOrder`: then a look-up finds the same (`firstUsable_eq_of_inOrder`).
* `inOrder_of_texts`: clauses keep their order if their texts do.
* `reordered_clauses_agree`: so a configuration has the same effect with its clauses in such an
  order.
-/

namespace BinaryLog.Config

/-! ## What is reported of the clauses for a selector -/

namespace RuleTable

variable {t t' : RuleTable} {s : Selector}

/-- Whether a rule in force is about a selector. -/
def binds (t : RuleTable) (s : Selector) : Bool := t.rules.any (·.selector == s)

/-- A clause binds its own selector, if it asks for limits, and no other. -/
theorem binds_add (t : RuleTable) (c : Clause) (s : Selector) :
    (t.add c).1.binds s = (t.binds s || (c.limits.isOk && c.selector == s)) := by
  unfold add
  cases hl : c.limits with
  | error problem => simp [drop, binds, Except.isOk, Except.toBool]
  | ok l =>
    simp only
    split
    · -- a duplicate: if its selector is `s`, that one is bound already
      rename_i hbound
      by_cases hs : c.selector = s
      · have hbinds : t.binds s = true := hs ▸ hbound
        rw [hbinds]
        exact hbinds
      · simp [drop, binds, hs]
    · simp [bind, binds, Except.isOk, Except.toBool]

/-- What is reported of a clause depends on whether its selector is bound. -/
theorem add_snd_eq {c : Clause} (h : t'.binds c.selector = t.binds c.selector) :
    (t'.add c).2 = (t.add c).2 := by
  unfold binds at h
  unfold add
  rw [h]
  split
  · rfl
  · split <;> rfl

/-- The diagnostics of the clauses for a selector, each with its clause. -/
def reportedFor (t : RuleTable) (s : Selector) (clauses : List Clause) :
    List (Clause × Diagnostic) :=
  (clauses.zip (t.addAll clauses).2).filter (·.1.selector = s)

/-- **The clauses for other selectors change nothing** in what is reported of those for one. -/
theorem reportedFor_eq (h : t'.binds s = t.binds s) (clauses : List Clause) :
    t.reportedFor s clauses =
      (clauses.filter (·.selector = s)).zip (t'.addAll (clauses.filter (·.selector = s))).2 := by
  induction clauses generalizing t t' with
  | nil => rfl
  | cons c clauses ih =>
    show ((c, (t.add c).2) :: clauses.zip ((t.add c).1.addAll clauses).2).filter _ = _
    by_cases hs : c.selector = s
    · have hnext : (t'.add c).1.binds s = (t.add c).1.binds s := by
        rw [binds_add, binds_add, h]
      have hfirst : (t'.add c).2 = (t.add c).2 := add_snd_eq (hs ▸ h)
      rw [List.filter_cons_of_pos (by simpa using hs), List.filter_cons_of_pos (by simpa using hs)]
      exact congrArg₂ (fun d rest => (c, d) :: rest) hfirst.symm (ih hnext)
    · have hnext : t'.binds s = (t.add c).1.binds s := by
        simp [binds_add, h, hs]
      rw [List.filter_cons_of_neg (by simpa using hs), List.filter_cons_of_neg (by simpa using hs)]
      exact ih hnext

end RuleTable

/-! ## Clauses that keep their order -/

/-- The clauses for each selector are the same, in the same order. -/
def InOrder (clauses clauses' : List Clause) : Prop :=
  ∀ s, clauses'.filter (·.selector = s) = clauses.filter (·.selector = s)

theorem perm_of_filter_eq {α κ : Type} [DecidableEq α] [DecidableEq κ] (key : α → κ)
    {l l' : List α} (h : ∀ k, l'.filter (key · = k) = l.filter (key · = k)) : l'.Perm l := by
  rw [List.perm_iff_count]
  intro a
  have hcount := congrArg (List.count a) (h (key a))
  rwa [List.count_filter (by simp), List.count_filter (by simp)] at hcount

section
variable {clauses clauses' : List Clause} (h : InOrder clauses clauses')
include h

/-- **The same is reported, up to order.** -/
theorem reported_perm_of_inOrder :
    (RuleTable.empty.addAll clauses').2.Perm (RuleTable.empty.addAll clauses).2 := by
  have hpairs : (clauses'.zip (RuleTable.empty.addAll clauses').2).Perm
      (clauses.zip (RuleTable.empty.addAll clauses).2) := by
    apply perm_of_filter_eq fun p : Clause × Diagnostic => p.1.selector
    intro s
    show RuleTable.empty.reportedFor s clauses' = RuleTable.empty.reportedFor s clauses
    rw [RuleTable.reportedFor_eq rfl, RuleTable.reportedFor_eq rfl, h s]
  have hsnd : ∀ cs : List Clause, (cs.zip (RuleTable.empty.addAll cs).2).map Prod.snd =
      (RuleTable.empty.addAll cs).2 := fun cs =>
    List.map_snd_zip (Nat.le_of_eq (RuleTable.accounts_addAll .empty cs).1)
  rw [← hsnd clauses', ← hsnd clauses]
  exact hpairs.map Prod.snd

theorem warnings_perm_of_inOrder :
    (RuleTable.empty.addAll clauses').1.warnings.Perm
      (RuleTable.empty.addAll clauses).1.warnings := by
  rw [← List.map_perm_map_iff Diagnostic.dropped_injective,
    (RuleTable.reported_addAll .empty clauses').2, (RuleTable.reported_addAll .empty clauses).2]
  exact (reported_perm_of_inOrder h).filter _

end

/-! ## What a look-up finds -/

theorem firstUsable_filter {p : Selector → Bool} {s : Selector} {clauses : List Clause}
    (h : ∀ c ∈ clauses, p c.selector → c.selector = s) :
    firstUsable p (clauses.filter (·.selector = s)) = firstUsable p clauses := by
  induction clauses with
  | nil => rfl
  | cons c clauses ih =>
    obtain ⟨hfirst, hrest⟩ := List.forall_mem_cons.1 h
    have ih := ih hrest
    unfold firstUsable at ih ⊢
    by_cases hs : c.selector = s
    · rw [List.filter_cons_of_pos (by simpa using hs), List.findSome?_cons, List.findSome?_cons, ih]
    · have hp : ¬ p c.selector := fun hp => hs (hfirst hp)
      rw [List.filter_cons_of_neg (by simpa using hs), List.findSome?_cons, if_neg hp, ih]

/-- A test that at most one of the selectors passes. -/
def PassedByOne (p : Selector → Bool) : Prop :=
  ∀ s s' : Selector, s.WellFormed → s'.WellFormed → p s → p s' → s = s'

/-- **A look-up finds the same when clauses keep their order.** -/
theorem firstUsable_eq_of_inOrder {p : Selector → Bool} (hp : PassedByOne p)
    {clauses clauses' : List Clause} (hw : ∀ c ∈ clauses, c.WellFormed)
    (hw' : ∀ c ∈ clauses', c.WellFormed) (h : InOrder clauses clauses') :
    firstUsable p clauses' = firstUsable p clauses := by
  -- all that pass the test have one selector
  obtain ⟨s, hs⟩ : ∃ s, ∀ s' : Selector, s'.WellFormed → p s' → s' = s := by
    by_cases hpass : ∃ s : Selector, s.WellFormed ∧ p s
    · obtain ⟨s, hwell, hps⟩ := hpass
      exact ⟨s, fun s' hwell' hps' => hp s' s hwell' hwell hps' hps⟩
    · exact ⟨.all, fun s' hwell' hps' => absurd ⟨s', hwell', hps'⟩ hpass⟩
  rw [← firstUsable_filter fun c hc => hs c.selector (hw c hc).1,
    ← firstUsable_filter fun c hc => hs c.selector (hw' c hc).1, h s]

theorem Selector.eq_of_text_eq {s s' : Selector} (hs : s.WellFormed) (hs' : s'.WellFormed)
    (h : s.text = s'.text) : s = s' := by
  have hread := parse?_text hs
  rw [h, parse?_text hs'] at hread
  exact (Option.some.inj hread).symm

theorem passedByOne_names (m : String) : PassedByOne (·.names m) := by
  intro s s' hs hs' hp hp'
  obtain ⟨-, htext⟩ := Selector.names_iff.1 hp
  obtain ⟨-, htext'⟩ := Selector.names_iff.1 hp'
  exact Selector.eq_of_text_eq hs hs' (htext.trans htext'.symm)

theorem passedByOne_coversServiceOf (m : String) : PassedByOne (·.coversServiceOf m) := by
  intro s s' _ _ hp hp'
  cases s <;> cases s' <;> simp_all [Selector.coversServiceOf]

theorem passedByOne_all : PassedByOne (· == .all) := by
  intro s s' _ _ hp hp'
  rw [beq_iff_eq] at hp hp'
  rw [hp, hp']

/-- **A method has the same limits when clauses keep their order.** -/
theorem resolve_eq_of_inOrder {clauses clauses' : List Clause} (hw : ∀ c ∈ clauses, c.WellFormed)
    (hw' : ∀ c ∈ clauses', c.WellFormed) (h : InOrder clauses clauses') (m : String) :
    (RuleTable.empty.addAll clauses').1.resolve m =
      (RuleTable.empty.addAll clauses).1.resolve m := by
  have hlookup : (RuleTable.empty.addAll clauses').1.lookup m =
      (RuleTable.empty.addAll clauses).1.lookup m := by
    rw [lookup_addAll, lookup_addAll, firstUsable_eq_of_inOrder (passedByOne_names m) hw hw' h,
      firstUsable_eq_of_inOrder (passedByOne_coversServiceOf m) hw hw' h,
      firstUsable_eq_of_inOrder passedByOne_all hw hw' h]
  rw [RuleTable.resolve, RuleTable.resolve, hlookup]

/-! ## Configurations in another order -/

/-- The selector of a clause, as it is written: all before its block. -/
def selectorText (piece : List Char) : List Char := piece.takeWhile (· != '\x7b')

/-- Pieces put into another order in which those with the same selector stay in theirs. -/
structure Reordered (ps ps' : List (List Char)) : Prop where
  perm : ps'.Perm ps
  inOrder : ∀ s, ps'.filter (selectorText · = s) = ps.filter (selectorText · = s)

/-- Only the selectors of the pieces matter. -/
theorem reordered_iff {ps ps' : List (List Char)} : Reordered ps ps' ↔ ps'.Perm ps ∧
    ∀ p ∈ ps, ps'.filter (selectorText · = selectorText p) =
      ps.filter (selectorText · = selectorText p) := by
  refine ⟨fun h => ⟨h.perm, fun p _ => h.inOrder _⟩, fun ⟨hperm, h⟩ => ⟨hperm, fun s => ?_⟩⟩
  by_cases hs : ∃ p ∈ ps, selectorText p = s
  · obtain ⟨p, hp, rfl⟩ := hs
    exact h p hp
  · have hnone : ∀ p ∈ ps, ¬ decide (selectorText p = s) = true := fun p hp heq =>
      hs ⟨p, hp, of_decide_eq_true heq⟩
    rw [List.filter_eq_nil_iff.2 hnone,
      List.filter_eq_nil_iff.2 fun p hp => hnone p (hperm.mem_iff.1 hp)]

instance (ps ps' : List (List Char)) : Decidable (Reordered ps ps') :=
  decidable_of_iff _ reordered_iff.symm

theorem selectorText_text {c : Clause} (h : c.WellFormed) :
    selectorText c.text.toList = c.selector.text.toList := by
  have hbrace := Selector.not_brace_of_mem_text h.1
  unfold selectorText Clause.text
  split
  · exact List.takeWhile_eq_self_iff.2 hbrace
  · rename_i o _
    obtain ⟨rest, hrest⟩ := o.text_eq_cons
    rw [String.toList_append, takeWhile_append_stop hbrace (by simp [hrest])]

/-- The clauses for a selector, found by their texts. -/
theorem filter_selector_eq {s : Selector} (hs : s.WellFormed) {clauses : List Clause}
    (hw : ∀ c ∈ clauses, c.WellFormed) :
    clauses.filter (·.selector = s) = ((clauses.map (·.text.toList)).filter
      (selectorText · = s.text.toList)).filterMap Clause.parse? := by
  induction clauses with
  | nil => rfl
  | cons c clauses ih =>
    obtain ⟨hwc, hw⟩ := List.forall_mem_cons.1 hw
    have hsame : selectorText c.text.toList = s.text.toList ↔ c.selector = s := by
      rw [selectorText_text hwc, String.toList_inj]
      exact ⟨Selector.eq_of_text_eq hwc.1 hs, congrArg Selector.text⟩
    rw [List.map_cons]
    by_cases heq : c.selector = s
    · rw [List.filter_cons_of_pos (by simpa using heq),
        List.filter_cons_of_pos (by simpa using hsame.2 heq),
        List.filterMap_cons_some (Clause.parse?_text hwc), ih hw]
    · rw [List.filter_cons_of_neg (by simpa using heq),
        List.filter_cons_of_neg (by simpa using mt hsame.1 heq), ih hw]

theorem inOrder_of_texts {clauses clauses' : List Clause} (hw : ∀ c ∈ clauses, c.WellFormed)
    (hw' : ∀ c ∈ clauses', c.WellFormed)
    (h : ∀ s, (clauses'.map (·.text.toList)).filter (selectorText · = s) =
      (clauses.map (·.text.toList)).filter (selectorText · = s)) : InOrder clauses clauses' := by
  intro s
  by_cases hs : s.WellFormed
  · rw [filter_selector_eq hs hw, filter_selector_eq hs hw', h]
  · -- no clause has this selector
    have hnone : ∀ cs : List Clause, (∀ c ∈ cs, c.WellFormed) →
        cs.filter (·.selector = s) = [] := by
      intro cs hcs
      apply List.filter_eq_nil_iff.2
      intro c hc heq
      exact hs (of_decide_eq_true heq ▸ (hcs c hc).1)
    rw [hnone clauses hw, hnone clauses' hw']

/-- **The order of clauses matters only between those with the same selector.** Take a configuration
that compiles, and put its clauses into another order in which those with the same selector stay in
theirs. It compiles again, every method has the same limits, and the warnings are the same up to
order, as all that is reported. -/
theorem reordered_clauses_agree {config : String} {t : RuleTable} {ds : List Diagnostic}
    {ps : List (List Char)} (h : compile config = (.ok t, ds))
    (hps : Reordered (pieces config) ps) :
    ∃ t' ds', compile (joined ps) = (.ok t', ds') ∧ (∀ m, t'.resolve m = t.resolve m) ∧
      t'.warnings.Perm t.warnings ∧ ds'.Perm ds := by
  obtain ⟨clauses, hread, hadd⟩ := compile_eq_ok_iff.1 h
  obtain ⟨hw, htexts⟩ := readClauses_eq_ok_iff.1 hread
  have hin : ∀ p ∈ ps, IsClause p := fun p hp =>
    exists_readClauses_eq_ok_iff.1 ⟨clauses, hread⟩ p (hps.perm.mem_iff.1 hp)
  obtain ⟨clauses', hread'⟩ := exists_readClauses_eq_ok_iff.2 hin
  obtain ⟨hw', htexts'⟩ := readClauses_eq_ok_iff.1 hread'
  have hne : ps ≠ [] := by
    intro hnil
    have hempty := hps.perm.symm
    rw [hnil, List.perm_nil, pieces, List.splitOn_eq_splitOnP] at hempty
    exact List.splitOnP_ne_nil _ _ hempty
  have hcomma : ∀ p ∈ ps, ',' ∉ p := fun p hp =>
    comma_notMem_of_mem_pieces (hps.perm.mem_iff.1 hp)
  have hcompile := compile_joined hne hw' htexts' hcomma
  have hinOrder : InOrder clauses clauses' := by
    apply inOrder_of_texts hw hw'
    rw [htexts, htexts']
    exact hps.inOrder
  have hresolve := resolve_eq_of_inOrder hw hw' hinOrder
  have hwarnings := warnings_perm_of_inOrder hinOrder
  have hreported := reported_perm_of_inOrder hinOrder
  rw [hadd] at hresolve hwarnings hreported
  exact ⟨_, _, hcompile, hresolve, hwarnings, hreported⟩

/-- Three clauses for one selector, of which two are dropped, and then one for another, which comes
to stand behind the first of the three. -/
theorem reordered_clauses_agree_of_four :
    let config := "a/*\x7bh:x\x7d,a/*\x7bh:2\x7d,a/*,*\x7bm\x7d"
    let t : RuleTable := ⟨[⟨.service "a", ⟨2, 0⟩⟩, ⟨.all, ⟨0, Limits.noLimit⟩⟩],
      [.badCount "a/*\x7bh:x\x7d" (.notANumber "x"), .duplicateSelector "a/*"]⟩
    let ds : List Diagnostic := [.dropped (.badCount "a/*\x7bh:x\x7d" (.notANumber "x")),
      .bound ⟨.service "a", ⟨2, 0⟩⟩, .dropped (.duplicateSelector "a/*"),
      .bound ⟨.all, ⟨0, Limits.noLimit⟩⟩]
    let ps := ["a/*\x7bh:x\x7d", "*\x7bm\x7d", "a/*\x7bh:2\x7d", "a/*"].map String.toList
    (compile config = (.ok t, ds) ∧ Reordered (pieces config) ps) ∧
    ∃ t' ds', compile (joined ps) = (.ok t', ds') ∧ (∀ m, t'.resolve m = t.resolve m) ∧
      t'.warnings.Perm t.warnings ∧ ds'.Perm ds := by
  intro config t ds ps
  have h : compile "a/*\x7bh:x\x7d,a/*\x7bh:2\x7d,a/*,*\x7bm\x7d" = (.ok t, ds) := rfl
  have hps : Reordered (pieces config) ps := by decide +kernel
  exact ⟨⟨h, hps⟩, reordered_clauses_agree h hps⟩

end BinaryLog.Config
