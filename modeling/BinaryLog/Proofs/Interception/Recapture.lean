import BinaryLog.Proofs.Interception.Unbounded

/-!
# Capturing again

Captured headers can be headers of another call, and be captured there in turn. A capture keeps a
header only while something of its budget is left, and what it keeps fits in the budget; headers of
which both are true are captured whole. So a second capture finds nothing to pass over and nowhere
to stop, under the same budget or a greater one.

* `Metadata.size_take_captureFrom_lt`: something is left before each header that is captured.
* `Metadata.capture_capture`: so capturing again under the same budget changes nothing.
* `Metadata.capture_eq_self_of_le`: what is captured whole is so under every greater budget.
* `captured_headers_survive`: the two together, for headers built anew from what was captured.
-/

namespace BinaryLog

namespace Metadata

/-! ## Headers as pairs -/

/-- The key and the value of each header, in order. -/
def pairs (md : Metadata) : List (Bytes × Bytes) := md.map fun h => (h.key, h.value)

theorem ofPairs_pairs (md : Metadata) : ofPairs md.pairs = md := by
  rw [ofPairs, pairs, List.map_map]
  exact List.map_id md

theorem foldl_insert (ps : List (Bytes × Bytes)) (md : Metadata) :
    ps.foldl (fun md p => md.insert p.1 p.2) md = md ++ ofPairs ps := by
  induction ps generalizing md with
  | nil => exact (List.append_nil md).symm
  | cons p ps ih =>
    rw [List.foldl_cons, ih, insert, List.append_assoc]
    rfl

/-! ## A second capture -/

/-- Before each captured header the budget is not used up. -/
theorem size_take_captureFrom_lt {budget used i : Nat} {md : Metadata}
    (hi : i < (captureFrom budget used md).length) :
    used + size ((captureFrom budget used md).take i) < budget := by
  fun_induction captureFrom budget used md generalizing i with
  | case1 | case2 => cases hi
  | case3 used h md hleft _ ih =>
    cases i with
    | zero =>
      -- the first one: the scan did not stop before it
      exact Nat.lt_of_not_le hleft
    | succ i =>
      have hlater := ih (Nat.lt_of_succ_lt_succ hi)
      rw [List.take_succ_cons, size]
      omega
  | case4 used h md _ _ ih => exact ih hi

/-- **Capturing again under the same budget changes nothing.** -/
theorem capture_capture (budget : Nat) (md : Metadata) :
    capture budget (capture budget md) = capture budget md := by
  refine capture_eq_self_iff.2 ⟨size_capture_le budget md, fun i hi => ?_⟩
  have hleft := size_take_captureFrom_lt hi
  rwa [Nat.zero_add] at hleft

theorem capture_eq_self_of_le {budget budget' : Nat} {md : Metadata} (hle : budget ≤ budget')
    (hself : capture budget md = md) : capture budget' md = md := by
  obtain ⟨hsize, hleft⟩ := capture_eq_self_iff.1 hself
  exact capture_eq_self_iff.2
    ⟨Nat.le_trans hsize hle, fun i hi => Nat.lt_of_lt_of_le (hleft i hi) hle⟩

/-- **Captured headers survive another capture.** Headers built from what was captured, all at once
or one after the other, are captured again just as they are if the budget is no smaller. -/
theorem captured_headers_survive {budget budget' : Nat} (hle : budget ≤ budget') (md : Metadata) :
    let kept := capture budget md
    capture budget' (ofPairs kept.pairs) = kept ∧
    capture budget' (kept.pairs.foldl (fun md p => md.insert p.1 p.2) []) = kept := by
  intro kept
  have hagain : capture budget' kept = kept :=
    capture_eq_self_of_le hle (capture_capture budget md)
  have hcollected : capture budget' (ofPairs kept.pairs) = kept := by
    rw [ofPairs_pairs]
    exact hagain
  refine ⟨hcollected, ?_⟩
  rw [foldl_insert, List.nil_append]
  exact hcollected

/-- Of five headers one is too long, and the last, an empty one, is met with the budget used up. The
other three, one of them empty too, are captured again under a budget with room for the long one. -/
theorem captured_headers_survive_of_five :
    let md : Metadata := [⟨[1], []⟩, ⟨[2], [2, 2]⟩, ⟨[], []⟩, ⟨[3], [3]⟩, ⟨[], []⟩]
    let kept : Metadata := [⟨[1], []⟩, ⟨[], []⟩, ⟨[3], [3]⟩]
    3 ≤ 6 ∧ capture 3 md = kept ∧ capture 6 md ≠ kept ∧
    capture 6 (ofPairs kept.pairs) = kept ∧
    capture 6 (kept.pairs.foldl (fun md p => md.insert p.1 p.2) []) = kept := by
  intro md kept
  have hkept : capture 3 md = kept := by decide
  have hsurvive := captured_headers_survive (show 3 ≤ 6 by decide) md
  rw [hkept] at hsurvive
  exact ⟨by decide, hkept, by decide, hsurvive⟩

end Metadata

end BinaryLog
