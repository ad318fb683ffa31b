import BinaryLog.Proofs.Config.Accounts
import Mathlib.Algebra.Group.Nat.Defs

/-!
# What the counts of a clause decide

A clause is dropped for its counts just if one of them is not usable, and the reason that is given
is about the leftmost such count (`Fault`). A clause that is not dropped for its counts asks for the
limits that they are written for (`Clause.granted`).

* `fault_of_limitOf`: the reason for which a count is not usable.
* `Options.limits_eq_error`: of the counts of a block, the leftmost fault is reported.
* `Clause.eq_granted`: the limits that a clause asks for.
* `counts_decide_clause`: these together, for a clause of a configuration that compiles.
-/

namespace BinaryLog.Config

/-! ## Faults of counts -/

/-- What can be said against a count: it is empty or has a character that is no ASCII digit; or it
is a number, with any number of leading zeros, and its value is too great. -/
inductive Fault (count : String) : String → Prop
  | notANumber : (count = "" ∨ ∃ c ∈ count.toList, ¬ c.isDigit) →
      Fault count (Text.quote count ++ " is not a byte count")
  | tooLarge : count ≠ "" → (∀ c ∈ count.toList, c.isDigit) →
      2 ^ 31 - 1 < decimalValue count.toList → Fault count (count ++ " is too large a byte count")

theorem fault_of_limitOf {count : String} {problem : BadCount}
    (h : limitOf (some count) = .error problem) :
    ¬ UsableCount count ∧ Fault count problem.reason := by
  have hnot : ¬ UsableCount count := by
    intro husable
    rw [limitOf_eq_ok_iff.2 ⟨husable, rfl⟩] at h
    cases h
  refine ⟨hnot, ?_⟩
  rw [limitOf] at h
  split at h
  · rename_i hbad
    cases h
    refine .notANumber ?_
    simpa using hbad
  · rename_i hnumber
    have hdigits : count ≠ "" ∧ ∀ c ∈ count.toList, c.isDigit := by simpa using hnumber
    split at h
    · rename_i hlarge
      cases h
      exact .tooLarge hdigits.1 hdigits.2 hlarge
    · cases h

/-- A count that has a fault is the one that is written, and no letter without a count has one. -/
theorem exists_count_of_limitOf {count : Option String} {problem : BadCount}
    (h : limitOf count = .error problem) :
    ∃ text, count = some text ∧ limitOf (some text) = .error problem := by
  cases count with
  | none => cases h
  | some text => exact ⟨text, rfl, h⟩

theorem bind_eq_error_iff {ε α β : Type} {x : Except ε α} {f : α → Except ε β} {e : ε} :
    x >>= f = .error e ↔ x = .error e ∨ ∃ a, x = .ok a ∧ f a = .error e := by
  cases x <;> simp [bind, Except.bind]

/-- Of the counts of a block, the leftmost that is not usable is reported. -/
theorem Options.limits_eq_error {o : Options} {problem : BadCount}
    (h : o.limits = .error problem) :
    ∃ before count after, o.counts = before ++ count :: after ∧
      (∀ u ∈ before, UsableCount u) ∧ limitOf (some count) = .error problem := by
  cases o with
  | headers count | messages count =>
    have hcount : limitOf count = .error problem := by
      simpa [limits, bind_eq_error_iff, pure, Except.pure] using h
    obtain ⟨text, rfl, htext⟩ := exists_count_of_limitOf hcount
    exact ⟨[], text, [], rfl, List.forall_mem_nil _, htext⟩
  | both hcount mcount =>
    have hcounts : limitOf hcount = .error problem ∨
        ∃ limit, limitOf hcount = .ok limit ∧ limitOf mcount = .error problem := by
      simpa [limits, bind_eq_error_iff, pure, Except.pure] using h
    rcases hcounts with hfirst | ⟨limit, hfirst, hsecond⟩
    · obtain ⟨text, rfl, htext⟩ := exists_count_of_limitOf hfirst
      exact ⟨[], text, mcount.toList, rfl, List.forall_mem_nil _, htext⟩
    · obtain ⟨text, rfl, htext⟩ := exists_count_of_limitOf hsecond
      exact ⟨hcount.toList, text, [], rfl, exists_limitOf_iff.1 ⟨limit, hfirst⟩, htext⟩

theorem Clause.limits_eq_error {c : Clause} {problem : BadCount}
    (h : c.limits = .error problem) :
    ∃ before count after, c.counts = before ++ count :: after ∧
      (∀ u ∈ before, UsableCount u) ∧ ¬ UsableCount count ∧ Fault count problem.reason := by
  obtain ⟨selector, options⟩ := c
  cases options with
  | none => cases h
  | some o =>
    obtain ⟨before, count, after, hcounts, hbefore, hcount⟩ := o.limits_eq_error h
    exact ⟨before, count, after, hcounts, hbefore, fault_of_limitOf hcount⟩

/-! ## The limits that counts are written for -/

/-- The limit of a letter: the value of its count, and none without a count. -/
def grantedLimit : Option String → Nat
  | none => 2 ^ 31 - 1
  | some count => decimalValue count.toList

/-- The limits of a block: of a letter that is absent nothing is captured. -/
def Options.granted : Options → Limits
  | headers count => ⟨grantedLimit count, 0⟩
  | messages count => ⟨0, grantedLimit count⟩
  | both h m => ⟨grantedLimit h, grantedLimit m⟩

/-- The limits of a clause: without a block there are none. -/
def Clause.granted (c : Clause) : Limits :=
  match c.options with
  | none => ⟨2 ^ 31 - 1, 2 ^ 31 - 1⟩
  | some options => options.granted

theorem eq_grantedLimit {count : Option String} {limit : Nat} (h : limitOf count = .ok limit) :
    grantedLimit count = limit := by
  cases count with
  | none =>
    cases h
    rfl
  | some text => exact (limitOf_eq_ok_iff.1 h).2

theorem Options.eq_granted {o : Options} {l : Limits} (h : o.limits = .ok l) : o.granted = l := by
  cases o with
  | headers count =>
    obtain ⟨limit, hlimit, rfl⟩ := limits_headers_eq_ok_iff.1 h
    rw [granted, eq_grantedLimit hlimit, Limits.headersOnly]
  | messages count =>
    obtain ⟨limit, hlimit, rfl⟩ := limits_messages_eq_ok_iff.1 h
    rw [granted, eq_grantedLimit hlimit, Limits.messagesOnly]
  | both hcount mcount =>
    obtain ⟨hfirst, hsecond⟩ := limits_both_eq_ok_iff.1 h
    rw [granted, eq_grantedLimit hfirst, eq_grantedLimit hsecond]

theorem Clause.eq_granted {c : Clause} {l : Limits} (h : c.limits = .ok l) : c.granted = l := by
  obtain ⟨selector, options⟩ := c
  cases options with
  | none =>
    cases h
    rfl
  | some o => exact o.eq_granted h

/-! ## Clauses of a configuration -/

theorem Clause.exists_unusable_iff {c : Clause} :
    (∃ count ∈ c.counts, ¬ UsableCount count) ↔ ¬ c.Usable := by
  simp [Usable]

/-- The diagnostic for a clause wherever it stands in a configuration that compiles. -/
theorem accounts_of_compile {config : String} {t : RuleTable} {ds : List Diagnostic}
    (h : compile config = (.ok t, ds)) {i : Nat} {c : Clause} (hw : c.WellFormed)
    (hi : (pieces config)[i]? = some c.text.toList) :
    ∃ earlier d, ds[i]? = some d ∧ Accounts earlier c d := by
  obtain ⟨clauses, hread, hadd⟩ := compile_eq_ok_iff.1 h
  obtain ⟨hws, htexts⟩ := readClauses_eq_ok_iff.1 hread
  rw [← htexts, List.getElem?_map, Option.map_eq_some_iff] at hi
  obtain ⟨c', hc', htext⟩ := hi
  obtain rfl : c' = c := Clause.eq_of_text_eq (hws c' (List.mem_of_getElem? hc')) hw htext
  obtain ⟨-, haccounts⟩ := RuleTable.accounts_addAll .empty clauses
  obtain ⟨d, hd, haccount⟩ := haccounts i c' hc'
  rw [hadd] at hd
  exact ⟨_, d, hd, haccount⟩

/-- **Its counts decide on a clause.** A clause that stands somewhere in a configuration that
compiles is dropped for its counts just if one of them is not usable, and then the reason is what
can be said against the leftmost such count. If it is not dropped for its counts, it asks for the
limits that these are written for, and they come into force unless its selector is taken. -/
theorem counts_decide_clause {config : String} {t : RuleTable} {ds : List Diagnostic}
    (h : compile config = (.ok t, ds)) {i : Nat} {c : Clause} (hw : c.WellFormed)
    (hi : (pieces config)[i]? = some c.text.toList) :
    ∃ d, ds[i]? = some d ∧
      ((∃ problem, d = .dropped (.badCount c.text problem)) ↔
        ∃ count ∈ c.counts, ¬ UsableCount count) ∧
      (∀ problem, d = .dropped (.badCount c.text problem) →
        ∃ before count after, c.counts = before ++ count :: after ∧
          (∀ u ∈ before, UsableCount u) ∧ ¬ UsableCount count ∧ Fault count problem.reason) ∧
      ((∀ problem, d ≠ .dropped (.badCount c.text problem)) →
        c.limits = .ok c.granted ∧
          (d = .bound ⟨c.selector, c.granted⟩ ∨ d = .dropped (.duplicateSelector c.text))) := by
  obtain ⟨earlier, d, hd, haccount⟩ := accounts_of_compile h hw hi
  rw [Clause.exists_unusable_iff]
  refine ⟨d, hd, ?_⟩
  cases haccount with
  | @badCount problem hnot hlimits =>
    refine ⟨iff_of_true ⟨problem, rfl⟩ hnot, fun problem' heq => ?_, fun hother => ?_⟩
    · cases heq
      exact c.limits_eq_error hlimits
    · exact absurd rfl (hother problem)
  | duplicate husable =>
    obtain ⟨l, hlimits⟩ := c.exists_limits_iff.2 husable
    refine ⟨iff_of_false (by simp) (not_not_intro husable), by simp, fun _ => ⟨?_, .inr rfl⟩⟩
    rw [hlimits, c.eq_granted hlimits]
  | @bound l husable _ hlimits =>
    obtain rfl := c.eq_granted hlimits
    exact ⟨iff_of_false (by simp) (not_not_intro husable), by simp, fun _ => ⟨hlimits, .inl rfl⟩⟩

/-- Of two counts the first has leading zeros and is usable, and the second is one too great. -/
theorem counts_decide_clause_of_two :
    let config := "a/b\x7bm:+1\x7d,*\x7bh:0000000000002147483647;m:2147483648\x7d"
    let c : Clause := ⟨.all, some (.both (some "0000000000002147483647") (some "2147483648"))⟩
    let warnings : List Warning := [.badCount "a/b\x7bm:+1\x7d" (.notANumber "+1"),
      .badCount "*\x7bh:0000000000002147483647;m:2147483648\x7d" (.tooLarge "2147483648")]
    (compile config = (.ok ⟨[], warnings⟩, warnings.map .dropped) ∧
      c.WellFormed ∧ (pieces config)[1]? = some c.text.toList) ∧
    (∃ count ∈ c.counts, ¬ UsableCount count) ∧
    ∃ before count after, c.counts = before ++ count :: after ∧
      (∀ u ∈ before, UsableCount u) ∧ ¬ UsableCount count ∧
      Fault count "2147483648 is too large a byte count" := by
  intro config c warnings
  have h : compile config = (.ok ⟨[], warnings⟩, warnings.map .dropped) := by decide +kernel
  have hw : c.WellFormed := by
    refine ⟨trivial, fun options hoptions => ?_⟩
    cases hoptions
    simp [Options.WellFormed, Options.counts, isCountChar]
  have hi : (pieces config)[1]? = some c.text.toList := by decide +kernel
  have htext : c.text = "*\x7bh:0000000000002147483647;m:2147483648\x7d" := by decide +kernel
  obtain ⟨d, hd, hdropped, hreason, -⟩ := counts_decide_clause h hw hi
  obtain rfl : Diagnostic.dropped (.badCount c.text (.tooLarge "2147483648")) = d := by
    rw [htext]
    exact Option.some.inj hd
  exact ⟨⟨h, hw, hi⟩, hdropped.1 ⟨_, rfl⟩, hreason _ rfl⟩

end BinaryLog.Config
