import BinaryLog.Proofs.Interception.Capture

/-!
# Skip and continue

The rule for capturing headers, told without a stop (`Metadata.scan`): of the headers in order, each
one is captured if it fits in what the ones captured before it leave of the budget, and passed over
if not. `Metadata.capture` stops once the budget is spent. From there on the scan can capture only
headers without a single octet, and these are all that the stop loses.

* `captureFrom_eq_scan`: what is captured is what the scan captures, less the empty headers that it
  meets with the budget spent.
* `capturesAt_iff_fits`: which headers are captured.
* `captureFrom_eq_self_iff`: when all headers are.
* `capture_skips_and_continues`: these together, for a whole capture.
-/

namespace BinaryLog

/-- Without a key and without a value. -/
def Header.Empty (h : Header) : Prop := h.key = [] ∧ h.value = []

instance (h : Header) : Decidable h.Empty := inferInstanceAs (Decidable (_ ∧ _))

theorem Header.size_eq_zero_iff {h : Header} : h.size = 0 ↔ h.Empty := by
  rw [size, Nat.add_eq_zero_iff, List.length_eq_zero_iff, List.length_eq_zero_iff]
  rfl

namespace Metadata

/-! ## The scan without a stop -/

/-- A header that is captured, and the octets captured before it. -/
structure Captured where
  total : Nat
  header : Header
  deriving DecidableEq, Repr

/-- An empty header, captured when nothing of the budget is left. -/
def Captured.Late (budget : Nat) (c : Captured) : Prop := c.header.Empty ∧ c.total = budget

instance (budget : Nat) (c : Captured) : Decidable (c.Late budget) :=
  inferInstanceAs (Decidable (_ ∧ _))

/-- Captures each header that fits when `total` octets are captured before, and passes over each one
that does not. -/
def scan (budget : Nat) : Nat → Metadata → List Captured
  | _, [] => []
  | total, h :: hs =>
    if total + h.size ≤ budget then ⟨total, h⟩ :: scan budget (total + h.size) hs
    else scan budget total hs

/-- Once the budget is spent, the scan captures empty headers only. -/
theorem late_of_mem_scan {budget total : Nat} {md : Metadata} {c : Captured}
    (hspent : budget ≤ total) (hc : c ∈ scan budget total md) : c.Late budget := by
  induction md generalizing total with
  | nil => cases hc
  | cons h md ih =>
    rw [scan] at hc
    split at hc
    · rename_i hfits
      rcases List.mem_cons.1 hc with rfl | hc
      · have hempty : h.size = 0 := by omega
        exact ⟨Header.size_eq_zero_iff.1 hempty, show total = budget by omega⟩
      · exact ih (by omega) hc
    · exact ih hspent hc

theorem header_mem_of_mem_scan {budget total : Nat} {md : Metadata} {c : Captured}
    (hc : c ∈ scan budget total md) : c.header ∈ md := by
  induction md generalizing total with
  | nil => cases hc
  | cons h md ih =>
    rw [scan] at hc
    split at hc
    · rcases List.mem_cons.1 hc with rfl | hc
      · exact List.mem_cons_self
      · exact List.mem_cons_of_mem h (ih hc)
    · exact List.mem_cons_of_mem h (ih hc)

/-- **The stop loses only late captures**: empty headers, met with the budget spent. -/
theorem captureFrom_eq_scan (budget used : Nat) (md : Metadata) :
    captureFrom budget used md =
      ((scan budget used md).filter fun c => ¬ c.Late budget).map Captured.header := by
  fun_induction captureFrom budget used md with
  | case1 used => rfl
  | case2 used h md hspent =>
    -- the stop: what the scan goes on to capture is late
    have hnone : ((scan budget used (h :: md)).filter fun c => ¬ c.Late budget) = [] := by
      apply List.filter_eq_nil_iff.2
      intro c hc
      simpa using late_of_mem_scan hspent hc
    rw [hnone]
    rfl
  | case3 used h md hleft hfits ih =>
    have hkept : ¬ Captured.Late budget ⟨used, h⟩ := by
      rintro ⟨-, hspent⟩
      exact hleft (Nat.le_of_eq hspent.symm)
    rw [scan, if_pos hfits, List.filter_cons_of_pos (by simpa using hkept), List.map_cons, ih]
  | case4 used h md hleft hfits ih =>
    rw [scan, if_neg hfits, ih]

/-! ## Which headers are captured -/

section
variable {budget i : Nat} {md : Metadata} {h : Header}

theorem capturesAt_iff_of_getElem? (hi : md[i]? = some h) :
    md.CapturesAt budget i ↔ (capture budget (md.take i)).size < budget ∧
      (capture budget (md.take i)).size + h.size ≤ budget := by
  obtain ⟨hlt, rfl⟩ := List.getElem?_eq_some_iff.1 hi
  rw [CapturesAt, List.take_succ_eq_append_getElem hlt, capture_concat]
  split <;> simp [*]

/-- A header that is not empty is captured if it fits in what is left when it is met. -/
theorem capturesAt_iff_fits (hi : md[i]? = some h) (hempty : ¬ h.Empty) :
    md.CapturesAt budget i ↔ (capture budget (md.take i)).size + h.size ≤ budget := by
  have hpos : h.size ≠ 0 := fun h0 => hempty (Header.size_eq_zero_iff.1 h0)
  rw [capturesAt_iff_of_getElem? hi]
  omega

end

/-! ## When all headers are captured -/

theorem captureFrom_eq_self_iff {budget used : Nat} (hused : used ≤ budget) (md : Metadata) :
    captureFrom budget used md = md ↔
      used + md.size ≤ budget ∧ ∀ i < md.length, used + size (md.take i) < budget := by
  induction md generalizing used with
  | nil => simpa [captureFrom, size] using hused
  | cons h md ih =>
    have hfirst : (∀ i < (h :: md).length, used + size ((h :: md).take i) < budget) ↔
        used < budget ∧ ∀ i < md.length, used + h.size + size (md.take i) < budget := by
      simp only [List.length_cons, Nat.forall_lt_succ_left', List.take_zero, List.take_succ_cons,
        size, Nat.add_zero, Nat.add_assoc]
    rw [captureFrom, hfirst, size]
    by_cases hspent : budget ≤ used
    · rw [if_pos hspent]
      constructor
      · intro hnil
        cases hnil
      · rintro ⟨-, hleft, -⟩
        omega
    rw [if_neg hspent]
    by_cases hfits : used + h.size ≤ budget
    · rw [if_pos hfits, List.cons_inj_right, ih hfits, Nat.add_assoc]
      exact and_congr_right fun _ => (and_iff_right (by omega)).symm
    · rw [if_neg hfits]
      constructor
      · intro hall
        -- a header passed over is missing at the end
        have hshort := (captureFrom_sublist budget used md).length_le
        rw [hall, List.length_cons] at hshort
        omega
      · rintro ⟨hsize, -⟩
        omega

/-- **Captured is what a scan that skips and continues captures**, less the empty headers that it
meets when the octets captured before use up the budget. So it is all that the scan captures if no
header is empty. What is captured is never larger than the budget, a header that is not empty is
passed over just if it does not fit in what is left when it is met, and all headers are captured
just if together they fit and before each one something is left. -/
theorem capture_skips_and_continues (budget : Nat) (md : Metadata) :
    capture budget md =
      ((scan budget 0 md).filter fun c => ¬ c.Late budget).map Captured.header ∧
    ((∀ h ∈ md, ¬ h.Empty) → capture budget md = (scan budget 0 md).map Captured.header) ∧
    (capture budget md).size ≤ budget ∧
    (∀ i h, md[i]? = some h → ¬ h.Empty →
      (md.CapturesAt budget i ↔ (capture budget (md.take i)).size + h.size ≤ budget)) ∧
    (capture budget md = md ↔ md.size ≤ budget ∧ ∀ i < md.length, size (md.take i) < budget) := by
  have hscan := captureFrom_eq_scan budget 0 md
  refine ⟨hscan, fun hnone => ?_, size_capture_le budget md,
    fun i h => capturesAt_iff_fits, ?_⟩
  · have hall : ∀ c ∈ scan budget 0 md, ¬ c.Late budget := fun c hc hlate =>
      hnone c.header (header_mem_of_mem_scan hc) hlate.1
    rw [capture, hscan, List.filter_eq_self.2 (by simpa using hall)]
  · have hself := captureFrom_eq_self_iff (Nat.zero_le budget) md
    simp only [Nat.zero_add] at hself
    exact hself

/-- An exact fit ends the capture: the scan goes on to an empty header, and then passes over one. -/
example : capture 2 [⟨[1], [1]⟩, ⟨[], []⟩, ⟨[2], []⟩] = [⟨[1], [1]⟩] ∧
    scan 2 0 [⟨[1], [1]⟩, ⟨[], []⟩, ⟨[2], []⟩] = [⟨0, ⟨[1], [1]⟩⟩, ⟨2, ⟨[], []⟩⟩] := by decide

end Metadata

end BinaryLog
