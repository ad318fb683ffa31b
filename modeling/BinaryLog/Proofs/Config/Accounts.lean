import BinaryLog.Proofs.Config.Counts
import BinaryLog.Proofs.Config.FirstMatch
import Mathlib.Data.List.Basic

/-!
# Every clause is accounted for

Compiling gives one diagnostic for each clause, in clause order: `Accounts earlier c d` says that
`d` is the diagnostic for the clause `c` when `earlier` are the clauses before it.

* `accounts_add`: taking up a clause accounts for it, while the rules in force are those of the
  usable clauses before it (`Binds`).
* `accounts_addAll`: so all clauses are accounted for, one by one.
* `reported_addAll`: the rules and the warnings of a table are what was reported of them.
* `clauses_accounted_for`: both, for a configuration, with what looking up methods reports.
-/

namespace BinaryLog.Config

/-! ## The diagnostic for a clause -/

/-- The selector of a usable clause. -/
def Taken (clauses : List Clause) (s : Selector) : Prop := ∃ c ∈ clauses, c.Usable ∧ c.selector = s

/-- The diagnostic for a clause that stands behind `earlier` ones: a count that cannot be used drops
it, whatever its selector; else a usable clause before it with the same selector does; else it puts
a rule in force. -/
inductive Accounts (earlier : List Clause) (c : Clause) : Diagnostic → Prop
  | badCount {problem : BadCount} : ¬ c.Usable → c.limits = .error problem →
      Accounts earlier c (.dropped (.badCount c.text problem))
  | duplicate : c.Usable → Taken earlier c.selector →
      Accounts earlier c (.dropped (.duplicateSelector c.text))
  | bound {l : Limits} : c.Usable → ¬ Taken earlier c.selector → c.limits = .ok l →
      Accounts earlier c (.bound ⟨c.selector, l⟩)

/-- The heading under which a rule is reported. -/
def Selector.heading : Selector → String
  | all => "Global binlog"
  | service _ => "Service binlog"
  | method _ _ => "Method binlog"

/-- The name that a selector binds, as it is reported. -/
def Selector.key : Selector → List (String × String)
  | all => []
  | service name => [("service", name)]
  | method ofService name => [("method", ofService ++ "/" ++ name)]

/-- What is reported at the level `info` is a rule: the kind of its selector, the name that it
binds, and its limits as an option block. -/
theorem exists_rule_of_info {d : Diagnostic} (h : d.level = .info) :
    ∃ rule : Rule, d = .bound rule ∧ d.message = rule.selector.heading ∧
      d.fields = rule.selector.key ++ [("policy", rule.limits.text)] := by
  cases d with
  | dropped | unlogged => cases h
  | bound rule =>
    obtain ⟨selector, limits⟩ := rule
    refine ⟨_, rfl, ?_⟩
    cases selector <;> exact ⟨rfl, rfl⟩

/-! ## Taking up clauses -/

namespace RuleTable

/-- The rules in force are about the selectors of the usable clauses. -/
def Binds (t : RuleTable) (clauses : List Clause) : Prop :=
  ∀ s, (∃ rule ∈ t.rules, rule.selector = s) ↔ Taken clauses s

theorem Binds.empty : empty.Binds [] := by simp [Binds, RuleTable.empty, Taken]

theorem taken_append {clauses : List Clause} {c : Clause} {s : Selector} :
    Taken (clauses ++ [c]) s ↔ Taken clauses s ∨ c.Usable ∧ c.selector = s := by
  simp [Taken, or_and_right, exists_or]

theorem any_selector_eq_true_iff {t : RuleTable} {s : Selector} :
    t.rules.any (·.selector == s) = true ↔ ∃ rule ∈ t.rules, rule.selector = s := by
  simp

/-- **Taking up a clause accounts for it.** -/
theorem accounts_add {t : RuleTable} {earlier : List Clause} (h : t.Binds earlier) (c : Clause) :
    Accounts earlier c (t.add c).2 ∧ (t.add c).1.Binds (earlier ++ [c]) := by
  have husable := c.exists_limits_iff
  unfold add
  cases hl : c.limits with
  | error problem =>
    have hnot : ¬ c.Usable := by simpa [hl] using husable.symm
    exact ⟨.badCount hnot hl, fun s => by rw [taken_append]; simpa [drop, hnot] using h s⟩
  | ok l =>
    have hok : c.Usable := husable.1 ⟨l, hl⟩
    simp only
    split
    · rename_i hbound
      have htaken : Taken earlier c.selector := (h _).1 (any_selector_eq_true_iff.1 hbound)
      refine ⟨.duplicate hok htaken, fun s => ?_⟩
      rw [taken_append, ← h s]
      refine (or_iff_left_of_imp fun hs => ?_).symm
      obtain ⟨-, rfl⟩ := hs
      exact (h _).2 htaken
    · rename_i hfree
      have hnot : ¬ Taken earlier c.selector :=
        fun htaken => hfree (any_selector_eq_true_iff.2 ((h _).2 htaken))
      refine ⟨.bound hok hnot hl, fun s => ?_⟩
      rw [taken_append, ← h s]
      simp [bind, hok, or_and_right, exists_or]

/-- **Taking up clauses accounts for all of them**, in order. -/
theorem accounts_addAll {t : RuleTable} {earlier : List Clause} (h : t.Binds earlier)
    (clauses : List Clause) :
    (t.addAll clauses).2.length = clauses.length ∧
    ∀ i c, clauses[i]? = some c →
      ∃ d, (t.addAll clauses).2[i]? = some d ∧ Accounts (earlier ++ clauses.take i) c d := by
  induction clauses generalizing t earlier with
  | nil => simp [addAll]
  | cons c clauses ih =>
    obtain ⟨hfirst, hbinds⟩ := accounts_add h c
    obtain ⟨hlen, hrest⟩ := ih hbinds
    refine ⟨congrArg Nat.succ hlen, fun i c' hi => ?_⟩
    cases i with
    | zero =>
      cases hi
      exact ⟨(t.add c).2, rfl, by simpa using hfirst⟩
    | succ i =>
      obtain ⟨d, hd, haccounts⟩ := hrest i c' hi
      exact ⟨d, hd, by simpa using haccounts⟩

/-- What a table holds is what was reported: the rules in force and the warnings. -/
theorem reported_addAll (t : RuleTable) (clauses : List Clause) :
    (t.addAll clauses).1.rules.map .bound =
      t.rules.map .bound ++ (t.addAll clauses).2.filter (·.level = .info) ∧
    (t.addAll clauses).1.warnings.map .dropped =
      t.warnings.map .dropped ++ (t.addAll clauses).2.filter (·.level = .warn) := by
  induction clauses generalizing t with
  | nil => simp [addAll]
  | cons c clauses ih =>
    obtain ⟨hrules, hwarnings⟩ := ih (t.add c).1
    rw [addAll, hrules, hwarnings]
    unfold add
    split
    · simp [drop, Diagnostic.level]
    · split <;> simp [drop, bind, Diagnostic.level]

/-- What looking up methods reports: the ones without limits. -/
theorem resolveAll_snd (t : RuleTable) (names : List String) :
    (t.resolveAll names).2 = (names.filter fun m => (t.resolve m).1 = none).map .unlogged := by
  induction names with
  | nil => rfl
  | cons m names ih =>
    show (t.resolve m).2 ++ (t.resolveAll names).2 = _
    rw [ih, List.filter_cons]
    unfold resolve
    cases t.lookup m <;> simp

end RuleTable

theorem Accounts.level_eq {earlier : List Clause} {c : Clause} {d : Diagnostic}
    (h : Accounts earlier c d) : d.level = .info ∨ d.level = .warn := by
  cases h with
  | badCount | duplicate => exact .inr rfl
  | bound => exact .inl rfl

/-- **Every clause is accounted for once.** The clauses are those that the configuration is written
from, in its order. Compiling reports one diagnostic for each, and these are the rules in force and
the warnings; looking up methods then reports each one that is not to be logged, and no more. -/
theorem clauses_accounted_for {config : String} {t : RuleTable} {ds : List Diagnostic}
    (h : compile config = (.ok t, ds)) :
    ∃ clauses : List Clause, (∀ c ∈ clauses, c.WellFormed) ∧
      clauses.map (·.text.toList) = pieces config ∧
      (ds.length = clauses.length ∧ ∀ i c, clauses[i]? = some c →
        ∃ d, ds[i]? = some d ∧ Accounts (clauses.take i) c d) ∧
      (∀ d ∈ ds, d.level = .info → ∃ rule : Rule, d = .bound rule ∧
        d.message = rule.selector.heading ∧
        d.fields = rule.selector.key ++ [("policy", rule.limits.text)]) ∧
      t.warnings.map .dropped = ds.filter (·.level = .warn) ∧
      (ds.filter (·.level = .info)).length + t.warnings.length = clauses.length ∧
      ∀ names, (t.resolveAll names).2 =
        (names.filter fun m => (t.resolve m).1 = none).map .unlogged := by
  obtain ⟨clauses, hread, hadd⟩ := compile_eq_ok_iff.1 h
  obtain ⟨hw, htexts⟩ := readClauses_eq_ok_iff.1 hread
  obtain ⟨hlen, haccounts⟩ := RuleTable.accounts_addAll .empty clauses
  obtain ⟨-, hwarnings⟩ := RuleTable.empty.reported_addAll clauses
  rw [hadd] at hlen haccounts hwarnings
  have hwarnings : t.warnings.map .dropped = ds.filter (·.level = .warn) := hwarnings
  have hlevels : ∀ d ∈ ds, (!decide (d.level = .info)) = decide (d.level = .warn) := by
    intro d hd
    obtain ⟨i, hi, rfl⟩ := List.getElem_of_mem hd
    obtain ⟨d, hd, haccount⟩ := haccounts i _ (List.getElem?_eq_getElem (hlen ▸ hi))
    obtain rfl : ds[i] = d := by simpa [hi] using hd
    rcases haccount.level_eq with hlevel | hlevel <;> simp [hlevel]
  refine ⟨clauses, hw, htexts, ⟨hlen, haccounts⟩, fun _ _ => exists_rule_of_info, hwarnings, ?_,
    t.resolveAll_snd⟩
  calc (ds.filter (·.level = .info)).length + t.warnings.length
    _ = (ds.filter (·.level = .info)).length + (ds.filter (·.level = .warn)).length := by
      rw [← hwarnings, List.length_map]
    _ = (ds.filter (·.level = .info)).length +
        (ds.filter fun d => !decide (d.level = .info)).length := by
      rw [List.filter_congr hlevels]
    _ = ds.length := (List.length_eq_length_filter_add _).symm
    _ = clauses.length := hlen

/-- Of five clauses two are bound: the second has a bad count, and its selector is taken besides;
the third and the fifth are duplicates. -/
theorem clauses_accounted_for_of_five :
    let t : RuleTable := ⟨[⟨.service "a", .unbounded⟩, ⟨.all, ⟨0, 7⟩⟩],
      [.badCount "a/*\x7bh:x\x7d" (.notANumber "x"), .duplicateSelector "a/*",
        .duplicateSelector "*"]⟩
    let ds : List Diagnostic := [.bound ⟨.service "a", .unbounded⟩,
      .dropped (.badCount "a/*\x7bh:x\x7d" (.notANumber "x")),
      .dropped (.duplicateSelector "a/*"), .bound ⟨.all, ⟨0, 7⟩⟩,
      .dropped (.duplicateSelector "*")]
    compile "a/*,a/*\x7bh:x\x7d,a/*,*\x7bm:7\x7d,*" = (.ok t, ds) ∧
      ∃ clauses : List Clause,
        clauses.map (·.text.toList) = pieces "a/*,a/*\x7bh:x\x7d,a/*,*\x7bm:7\x7d,*" ∧
        (∀ i c, clauses[i]? = some c →
          ∃ d, ds[i]? = some d ∧ Accounts (clauses.take i) c d) ∧
        t.warnings.map .dropped = ds.filter (·.level = .warn) := by
  intro t ds
  have h : compile "a/*,a/*\x7bh:x\x7d,a/*,*\x7bm:7\x7d,*" = (.ok t, ds) := rfl
  obtain ⟨clauses, -, htexts, ⟨-, haccounts⟩, -, hwarnings, -⟩ := clauses_accounted_for h
  exact ⟨h, clauses, htexts, haccounts, hwarnings⟩

end BinaryLog.Config
