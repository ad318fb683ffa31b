import BinaryLog.Proofs.Config.Counts
import BinaryLog.Proofs.Config.RoundTrip

/-!
# Limits as option blocks

The text of limits is an option block with a count for each letter, left out where there is no
limit: `optionsOf`. Reading the counts gives the limits back, if they are some that counts can ask
for (`limits_optionsOf`).
-/

namespace BinaryLog.Config

/-- The count that is written for a limit. -/
def countOf (limit : Nat) : Option String :=
  if limit = Limits.noLimit then none else some (toString limit)

/-- The option block that is written for limits. -/
def optionsOf (l : Limits) : Options := .both (countOf l.headerBytes) (countOf l.messageBytes)

/-! ## Numbers -/

theorem toList_toString (n : Nat) : (toString n).toList = Nat.toDigits 10 n := by
  rw [Nat.toString_eq_repr, Nat.toList_repr]

theorem isDigit_of_mem_toString {n : Nat} {c : Char} (h : c ∈ (toString n).toList) : c.isDigit := by
  rw [toList_toString] at h
  exact Nat.isDigit_of_mem_toDigits (by decide) (by decide) h

/-- A number is the value of its digits. -/
theorem decimalValue_toString (n : Nat) : decimalValue (toString n).toList = n := by
  rw [toList_toString, decimalValue, Nat.ofDigitChars_ten_toDigits]

theorem usableCount_toString_iff {n : Nat} : UsableCount (toString n) ↔ n ≤ Limits.noLimit := by
  have hne : toString n ≠ "" := by
    intro h
    have hnil := toList_toString n
    rw [h] at hnil
    exact Nat.toDigits_ne_nil hnil.symm
  rw [UsableCount, decimalValue_toString]
  exact ⟨fun h => h.2.2, fun h => ⟨hne, fun _ => isDigit_of_mem_toString, h⟩⟩

/-! ## Counts and blocks -/

theorem limitText_eq (letter : String) (limit : Nat) :
    Limits.limitText letter limit = letter ++ countText (countOf limit) := by
  unfold Limits.limitText countOf
  split <;> simp [countText, String.append_assoc]

theorem limitOf_countOf {limit : Nat} (h : limit ≤ Limits.noLimit) :
    limitOf (countOf limit) = .ok limit := by
  unfold countOf
  split
  · rename_i heq
    rw [heq]
    rfl
  · exact limitOf_eq_ok_iff.2 ⟨usableCount_toString_iff.2 h, decimalValue_toString limit⟩

theorem ne_of_isDigit {c d : Char} (hc : c.isDigit) (hd : d.isDigit = false) : c ≠ d := by
  rintro rfl
  rw [hc] at hd
  cases hd

theorem writable_countOf (limit : Nat) : WritableCount (countOf limit) := by
  intro text htext c hc
  unfold countOf at htext
  split at htext
  · cases htext
  · cases htext
    have hdigit := isDigit_of_mem_toString hc
    simp [isCountChar, ne_of_isDigit hdigit (d := ';') rfl, ne_of_isDigit hdigit (d := '\x7b') rfl,
      ne_of_isDigit hdigit (d := '\x7d') rfl]

theorem comma_notMem_countText (limit : Nat) : ',' ∉ (countText (countOf limit)).toList := by
  unfold countOf
  split
  · simp [countText]
  · intro h
    rw [countText, String.toList_append, List.mem_append] at h
    rcases h with h | h
    · exact absurd h (by decide)
    · exact ne_of_isDigit (isDigit_of_mem_toString h) (d := ',') rfl rfl

section
variable {l : Limits}

theorem text_optionsOf : (optionsOf l).text = l.text := by
  rw [Limits.text, limitText_eq, limitText_eq, ← String.toList_inj]
  simp [optionsOf, Options.text]

theorem wellFormed_optionsOf : (optionsOf l).WellFormed :=
  Options.wellFormed_both.2 ⟨writable_countOf _, writable_countOf _⟩

theorem comma_notMem_optionsOf : ',' ∉ (optionsOf l).text.toList := by
  simp [optionsOf, Options.text, comma_notMem_countText]

/-- **Reading the option block of limits gives the limits back.** -/
theorem limits_optionsOf (hheaders : l.headerBytes ≤ Limits.noLimit)
    (hmessages : l.messageBytes ≤ Limits.noLimit) : (optionsOf l).limits = .ok l := by
  simp only [optionsOf, Options.limits, limitOf_countOf hheaders, limitOf_countOf hmessages]
  rfl

end

end BinaryLog.Config
