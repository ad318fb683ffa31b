import BinaryLog.Config.Clause

/-!
# Usable counts

Which counts make a limit (`UsableCount`), and hence which clauses ask for limits
(`Clause.Usable`): those of which every count is usable, and none else.
-/

namespace BinaryLog.Config

/-- At least one digit and nothing else, of a value that is some limit. -/
def UsableCount (count : String) : Prop :=
  count ≠ "" ∧ (∀ c ∈ count.toList, c.isDigit) ∧ decimalValue count.toList ≤ Limits.noLimit

theorem limitOf_eq_ok_iff {count : String} {limit : Nat} :
    limitOf (some count) = .ok limit ↔ UsableCount count ∧ decimalValue count.toList = limit := by
  rw [limitOf, UsableCount]
  split
  · rename_i h
    simp only [Bool.or_eq_true, List.isEmpty_iff, String.toList_eq_nil_iff, Bool.not_eq_true',
      List.all_eq_false] at h
    simp only [reduceCtorEq, false_iff]
    rintro ⟨⟨hne, hdigits, -⟩, -⟩
    rcases h with rfl | ⟨c, hc, hnot⟩
    · exact hne rfl
    · exact hnot (hdigits c hc)
  · rename_i h
    simp only [Bool.or_eq_true, List.isEmpty_iff, String.toList_eq_nil_iff, not_or,
      Bool.not_eq_true', Bool.not_eq_false, List.all_eq_true] at h
    split
    · rename_i hlarge
      simp only [reduceCtorEq, false_iff]
      rintro ⟨⟨-, -, hsmall⟩, -⟩
      omega
    · rename_i hsmall
      simp only [Except.ok.injEq]
      exact ⟨fun heq => ⟨⟨h.1, h.2, by omega⟩, heq⟩, fun hall => hall.2⟩

/-- A letter without a count has a limit in any case. -/
theorem exists_limitOf_iff {count : Option String} :
    (∃ limit, limitOf count = .ok limit) ↔ ∀ text ∈ count.toList, UsableCount text := by
  cases count with
  | none => simp [limitOf]
  | some text => simp [limitOf_eq_ok_iff]

/-- The limits that counts ask for are at most the one that stands for having none. -/
theorem limitOf_le {count : Option String} {limit : Nat} (h : limitOf count = .ok limit) :
    limit ≤ Limits.noLimit := by
  cases count with
  | none =>
    cases h
    exact Nat.le_refl _
  | some text =>
    obtain ⟨⟨-, -, hle⟩, rfl⟩ := limitOf_eq_ok_iff.1 h
    exact hle

/-! ## Blocks and clauses -/

theorem bind_eq_ok_iff {ε α β : Type} {x : Except ε α} {f : α → Except ε β} {b : β} :
    x >>= f = .ok b ↔ ∃ a, x = .ok a ∧ f a = .ok b := by
  cases x <;> simp [bind, Except.bind]

namespace Options

variable {l : Limits}

theorem limits_headers_eq_ok_iff {count : Option String} :
    (headers count).limits = .ok l ↔
      ∃ limit, limitOf count = .ok limit ∧ .headersOnly limit = l := by
  simp [limits, bind_eq_ok_iff, pure, Except.pure]

theorem limits_messages_eq_ok_iff {count : Option String} :
    (messages count).limits = .ok l ↔
      ∃ limit, limitOf count = .ok limit ∧ .messagesOnly limit = l := by
  simp [limits, bind_eq_ok_iff, pure, Except.pure]

theorem limits_both_eq_ok_iff {h m : Option String} :
    (both h m).limits = .ok l ↔
      limitOf h = .ok l.headerBytes ∧ limitOf m = .ok l.messageBytes := by
  obtain ⟨headerBytes, messageBytes⟩ := l
  simp [limits, bind_eq_ok_iff, pure, Except.pure]

theorem exists_limits_iff {o : Options} :
    (∃ l, o.limits = .ok l) ↔ ∀ count ∈ o.counts, UsableCount count := by
  cases o with
  | headers count =>
    rw [counts, ← exists_limitOf_iff]
    simp only [limits_headers_eq_ok_iff]
    exact ⟨fun ⟨_, limit, hl, _⟩ => ⟨limit, hl⟩, fun ⟨limit, hl⟩ => ⟨_, limit, hl, rfl⟩⟩
  | messages count =>
    rw [counts, ← exists_limitOf_iff]
    simp only [limits_messages_eq_ok_iff]
    exact ⟨fun ⟨_, limit, hl, _⟩ => ⟨limit, hl⟩, fun ⟨limit, hl⟩ => ⟨_, limit, hl, rfl⟩⟩
  | both h m =>
    rw [counts, List.forall_mem_append, ← exists_limitOf_iff, ← exists_limitOf_iff]
    simp only [limits_both_eq_ok_iff]
    refine ⟨fun hl => ?_, fun hl => ?_⟩
    · obtain ⟨l, hh, hm⟩ := hl
      exact ⟨⟨_, hh⟩, _, hm⟩
    · obtain ⟨⟨headerBytes, hh⟩, messageBytes, hm⟩ := hl
      exact ⟨⟨headerBytes, messageBytes⟩, hh, hm⟩

theorem limits_le {o : Options} (h : o.limits = .ok l) :
    l.headerBytes ≤ Limits.noLimit ∧ l.messageBytes ≤ Limits.noLimit := by
  cases o with
  | headers count =>
    obtain ⟨limit, hlimit, rfl⟩ := limits_headers_eq_ok_iff.1 h
    exact ⟨limitOf_le hlimit, Nat.zero_le _⟩
  | messages count =>
    obtain ⟨limit, hlimit, rfl⟩ := limits_messages_eq_ok_iff.1 h
    exact ⟨Nat.zero_le _, limitOf_le hlimit⟩
  | both _ _ =>
    obtain ⟨hh, hm⟩ := limits_both_eq_ok_iff.1 h
    exact ⟨limitOf_le hh, limitOf_le hm⟩

end Options

namespace Clause

/-- The counts of a clause, in the order in which they are written. -/
def counts (c : Clause) : List String := c.options.elim [] Options.counts

/-- Every count of the clause is usable. -/
def Usable (c : Clause) : Prop := ∀ count ∈ c.counts, UsableCount count

/-- **A clause asks for limits if all its counts are usable.** -/
theorem exists_limits_iff {c : Clause} : (∃ l, c.limits = .ok l) ↔ c.Usable := by
  obtain ⟨selector, options⟩ := c
  cases options with
  | none => simp [limits, Usable, counts]
  | some o => exact o.exists_limits_iff

theorem limits_le {c : Clause} {l : Limits} (h : c.limits = .ok l) :
    l.headerBytes ≤ Limits.noLimit ∧ l.messageBytes ≤ Limits.noLimit := by
  obtain ⟨selector, options⟩ := c
  cases options with
  | none =>
    cases h
    exact ⟨Nat.le_refl _, Nat.le_refl _⟩
  | some o => exact o.limits_le h

end Clause

end BinaryLog.Config
