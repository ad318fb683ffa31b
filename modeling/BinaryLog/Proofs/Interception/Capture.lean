import BinaryLog.Proofs.Interception.WellFormed
import Mathlib.Data.List.Induction

/-!
# What a budget captures

Whether a header is captured depends on the sizes of the headers up to it, and on nothing that they
hold.

* `Metadata.capture_concat`: what one more header at the end adds to what is captured.
* `Metadata.AlikeWithin.capture_eq`, `Bytes.AlikeWithin.capture_eq`: so headers and messages that
  differ only in what is not captured are captured alike.
* `Metadata.size_capture_mono`, `Metadata.capture_not_subset`: a greater budget captures at least as
  many octets, but not always the same headers.
-/

namespace BinaryLog

namespace Metadata

/-! ## One more header -/

/-- What one more header at the end adds: all of it if it fits in what is left, else nothing. -/
theorem captureFrom_concat (budget used : Nat) (md : Metadata) (h : Header) :
    let spent := used + (captureFrom budget used md).size
    captureFrom budget used (md ++ [h]) = captureFrom budget used md ++
      if spent < budget ∧ spent + h.size ≤ budget then [h] else [] := by
  intro spent
  fun_induction captureFrom budget used md with
  | case1 used =>
    have hspent : spent = used := rfl
    rw [List.nil_append, List.nil_append, captureFrom, hspent]
    split_ifs <;> first | rfl | omega
  | case2 used h' md hexhausted =>
    have hspent : spent = used := rfl
    rw [List.cons_append, captureFrom, if_pos hexhausted, if_neg (by omega), List.append_nil]
  | case3 used h' md hleft hfits ih =>
    have hspent : spent = used + h'.size + (captureFrom budget (used + h'.size) md).size := by
      simp only [spent, size]
      omega
    rw [List.cons_append, captureFrom, if_neg hleft, if_pos hfits, ih, hspent, List.cons_append]
  | case4 used h' md hleft hfits ih =>
    rw [List.cons_append, captureFrom, if_neg hleft, if_neg hfits, ih]

theorem capture_concat (budget : Nat) (md : Metadata) (h : Header) :
    let spent := (capture budget md).size
    capture budget (md ++ [h]) = capture budget md ++
      if spent < budget ∧ spent + h.size ≤ budget then [h] else [] := by
  have hconcat := captureFrom_concat budget 0 md h
  rwa [Nat.zero_add] at hconcat

/-! ## Uncaptured contents -/

/-- The header at a place is captured: with it, more is captured than without it. -/
def CapturesAt (budget : Nat) (md : Metadata) (i : Nat) : Prop :=
  capture budget (md.take (i + 1)) ≠ capture budget (md.take i)

/-- Headers of the same lengths of keys and values, and the same wherever they are captured. -/
structure AlikeWithin (budget : Nat) (md md' : Metadata) : Prop where
  keys : md.map (·.key.length) = md'.map (·.key.length)
  values : md.map (·.value.length) = md'.map (·.value.length)
  captured : ∀ i < md.length, md.CapturesAt budget i → md[i]? = md'[i]?

instance (budget : Nat) (md : Metadata) (i : Nat) : Decidable (md.CapturesAt budget i) :=
  inferInstanceAs (Decidable (_ ≠ _))

instance (budget : Nat) (md md' : Metadata) : Decidable (AlikeWithin budget md md') :=
  decidable_of_iff (_ ∧ _ ∧ _) ⟨fun h => ⟨h.1, h.2.1, h.2.2⟩, fun h => ⟨h.1, h.2, h.3⟩⟩

theorem capturesAt_length (budget : Nat) (md : Metadata) (h : Header) :
    (md ++ [h]).CapturesAt budget md.length ↔
      (capture budget md).size < budget ∧ (capture budget md).size + h.size ≤ budget := by
  have hall : (md ++ [h]).take (md.length + 1) = md ++ [h] := List.take_of_length_le (by simp)
  rw [CapturesAt, hall, List.take_left, capture_concat]
  split <;> simp [*]

namespace AlikeWithin

variable {budget : Nat} {md md' : Metadata} {h h' : Header}

theorem init (ha : AlikeWithin budget (md ++ [h]) (md' ++ [h'])) : AlikeWithin budget md md' := by
  obtain ⟨hkeys, hvalues, hcaptured⟩ := ha
  simp only [List.map_append, List.map_cons, List.map_nil] at hkeys hvalues
  have hlength : md.length = md'.length := by
    simpa using (List.append_inj' hkeys rfl).1 |> congrArg List.length
  refine ⟨(List.append_inj' hkeys rfl).1, (List.append_inj' hvalues rfl).1, fun i hi hat => ?_⟩
  have hsame := hcaptured i (by simp; omega) (by
    rw [CapturesAt, List.take_append_of_le_length hi,
      List.take_append_of_le_length (Nat.le_of_lt hi)]
    exact hat)
  rwa [List.getElem?_append_left hi, List.getElem?_append_left (hlength ▸ hi)] at hsame

theorem last (ha : AlikeWithin budget (md ++ [h]) (md' ++ [h'])) :
    h.size = h'.size ∧ ((md ++ [h]).CapturesAt budget md.length → h = h') := by
  obtain ⟨hkeys, hvalues, hcaptured⟩ := ha
  simp only [List.map_append, List.map_cons, List.map_nil] at hkeys hvalues
  obtain ⟨hkeys, hkey⟩ := List.append_inj' hkeys rfl
  obtain ⟨-, hvalue⟩ := List.append_inj' hvalues rfl
  have hlength : md.length = md'.length := by simpa using congrArg List.length hkeys
  refine ⟨?_, fun hat => ?_⟩
  · rw [Header.size, Header.size, (List.cons.inj hkey).1, (List.cons.inj hvalue).1]
  · have hsame := hcaptured md.length (by simp) hat
    rw [List.getElem?_concat_length, hlength, List.getElem?_concat_length] at hsame
    exact Option.some.inj hsame

/-- **Headers that differ only where they are not captured are captured alike.** -/
theorem capture_eq (ha : AlikeWithin budget md md') : capture budget md = capture budget md' := by
  induction md using List.reverseRecOn generalizing md' with
  | nil =>
    have hnil : md' = [] := by simpa using ha.keys.symm
    rw [hnil]
  | append_singleton md h ih =>
    rcases List.eq_nil_or_concat md' with rfl | ⟨md₀, h', rfl⟩
    · simpa using ha.keys
    · rw [List.concat_eq_append] at ha ⊢
      obtain ⟨hsize, hlast⟩ := ha.last
      -- what is spent before the last header is the same, so it is captured of both or of neither
      have hinit := ih ha.init
      rw [capturesAt_length] at hlast
      rw [capture_concat, capture_concat, ← hinit, ← hsize]
      split
      · rw [hlast ‹_›]
      · rfl

end AlikeWithin

/-! ## Greater budgets -/

theorem size_captureFrom_succ {budget used : Nat} (hused : used ≤ budget) (md : Metadata) :
    (captureFrom budget used md).size ≤ (captureFrom (budget + 1) used md).size := by
  induction md generalizing used with
  | nil => exact Nat.le_refl _
  | cons h md ih =>
    by_cases hexhausted : budget ≤ used
    · rw [captureFrom, if_pos hexhausted]
      exact Nat.zero_le _
    · have hleft : ¬ budget + 1 ≤ used := by omega
      rw [captureFrom, captureFrom, if_neg hexhausted, if_neg hleft]
      by_cases hfits : used + h.size ≤ budget
      · rw [if_pos hfits, if_pos (by omega)]
        have hlater := ih hfits
        simp only [size]
        omega
      · rw [if_neg hfits]
        by_cases hfills : used + h.size ≤ budget + 1
        · -- up to here the scans agree; now the header uses up all of the greater budget, and what
          -- the smaller one captures from here on is less than that
          have hbound := size_captureFrom_le hused md
          rw [if_pos hfills, size]
          omega
        · rw [if_neg hfills]
          exact ih hused

/-- **A greater budget captures at least as many octets.** -/
theorem size_capture_mono {budget budget' : Nat} (h : budget ≤ budget') (md : Metadata) :
    (capture budget md).size ≤ (capture budget' md).size := by
  induction h with
  | refl => exact Nat.le_refl _
  | step _ ih => exact Nat.le_trans ih (size_captureFrom_succ (Nat.zero_le _) md)

/-- It may pass over a header that the smaller one captures: one octet goes to the second of two
headers, and two go to the first. -/
theorem capture_not_subset : ∃ (budget budget' : Nat) (md : Metadata), budget ≤ budget' ∧
    ∃ h ∈ capture budget md, h ∉ capture budget' md :=
  ⟨1, 2, [⟨[1], [1]⟩, ⟨[2], []⟩], by decide, by decide⟩

end Metadata

/-! ## Messages -/

/-- Messages of the same length that begin with the same octets. -/
structure Bytes.AlikeWithin (budget : Nat) (data data' : Bytes) : Prop where
  length : data.length = data'.length
  captured : ∀ i < budget, data[i]? = data'[i]?

instance (budget : Nat) (data data' : Bytes) : Decidable (Bytes.AlikeWithin budget data data') :=
  decidable_of_iff (_ ∧ _) ⟨fun h => ⟨h.1, h.2⟩, fun h => ⟨h.1, h.2⟩⟩

theorem Bytes.AlikeWithin.capture_eq {budget : Nat} {data data' : Bytes}
    (ha : AlikeWithin budget data data') (compressed : Bool) :
    CapturedMessage.capture budget compressed data =
      CapturedMessage.capture budget compressed data' := by
  have htaken : data.take budget = data'.take budget := by
    apply List.ext_getElem?
    intro i
    rw [List.getElem?_take, List.getElem?_take]
    split
    · exact ha.captured i ‹_›
    · rfl
  rw [CapturedMessage.capture, CapturedMessage.capture, ha.length, htaken]

end BinaryLog
