import BinaryLog.Attributes

/-!
# What handles see

Creating attributes and recording an address, as they are seen through the handles onto a store.

* `AttributeStore.Has s h`: the handle `h` leads to attributes of `s`. It goes on to do so
  (`Has.create`, `Has.record`).
* `get_create`: a new handle sees what was created, and every other one what it saw.
* `get_record`: what is recorded through a handle is seen through it alone.
-/

namespace BinaryLog

/-! ## Attributes -/

namespace Attributes

theorem remote_record (attrs : Attributes) (address : PeerAddress) :
    (attrs.record address).2.remote = attrs.remote.or (some address) := by
  unfold record
  split <;> simp [*]

theorem fresh_record (attrs : Attributes) (address : PeerAddress) :
    (attrs.record address).1 = attrs.remote.isNone := by
  unfold record
  split <;> simp [*]

/-- Recording changes nothing where an address is recorded already. -/
theorem record_of_some {attrs : Attributes} {first : PeerAddress} (h : attrs.remote = some first)
    (address : PeerAddress) : (attrs.record address).2 = attrs := by
  rw [record, h]

end Attributes

/-! ## Stores -/

namespace AttributeStore

/-- A handle leads to attributes of the store. -/
def Has (s : AttributeStore) (h : AttributeHandle) : Prop := h.cell < s.cells.length

section
variable {s : AttributeStore} {h h' : AttributeHandle}

theorem get_of_not_has (hno : ¬ s.Has h) : s.get h = .empty := by
  rw [get, List.getElem?_eq_none (Nat.le_of_not_lt hno), Option.getD_none]

theorem not_has_fresh (s : AttributeStore) : ¬ s.Has s.fresh := Nat.lt_irrefl _

theorem Has.ne_fresh (hs : s.Has h) : h ≠ s.fresh := by
  rintro rfl
  exact s.not_has_fresh hs

theorem has_fresh (s : AttributeStore) (attrs : Attributes) : (s.create attrs).2.Has s.fresh := by
  simp [Has, create, fresh]

theorem Has.create (hs : s.Has h) (attrs : Attributes) : (s.create attrs).2.Has h := by
  rw [Has, AttributeStore.create, List.length_append]
  exact Nat.lt_add_right _ hs

theorem Has.record (hs : s.Has h) (h' : AttributeHandle) (address : PeerAddress) :
    (s.record h' address).2.Has h := by
  rw [Has, AttributeStore.record, List.length_set]
  exact hs

/-- A new handle sees what was created, and every other one what it saw. -/
theorem get_create (s : AttributeStore) (attrs : Attributes) (h : AttributeHandle) :
    (s.create attrs).2.get h = if h = s.fresh then attrs else s.get h := by
  split
  · rename_i heq
    simp [heq, get, create, fresh]
  · rename_i hne
    by_cases hs : s.Has h
    · rw [get, create, List.getElem?_append_left hs, get]
    · have hlt : ¬ (s.create attrs).2.Has h := by
        intro hlt
        rw [Has, create, List.length_append, List.length_singleton] at hlt
        exact hne (congrArg AttributeHandle.mk (Nat.le_antisymm (Nat.le_of_lt_succ hlt)
          (Nat.le_of_not_lt hs)))
      rw [get_of_not_has hlt, get_of_not_has hs]

theorem get_create_of_has (hs : s.Has h) (attrs : Attributes) :
    (s.create attrs).2.get h = s.get h := by
  rw [get_create, if_neg hs.ne_fresh]

/-- What is recorded through a handle is seen through it alone. -/
theorem get_record (hs : s.Has h) (address : PeerAddress) (h' : AttributeHandle) :
    (s.record h address).2.get h' =
      if h' = h then ((s.get h).record address).2 else s.get h' := by
  split
  · rename_i heq
    rw [heq, get, AttributeStore.record, List.getElem?_set_self hs, Option.getD_some]
  · rename_i hne
    have hcell : h.cell ≠ h'.cell := fun heq => hne (congrArg AttributeHandle.mk heq.symm)
    rw [get, AttributeStore.record, List.getElem?_set_ne hcell, get]

theorem fresh_record (s : AttributeStore) (h : AttributeHandle) (address : PeerAddress) :
    (s.record h address).1 = (s.get h).remote.isNone :=
  (s.get h).fresh_record address

/-- Recording changes nothing where an address is recorded already. -/
theorem record_of_some (hs : s.Has h) {first : PeerAddress} (hfirst : (s.get h).remote = some first)
    (address : PeerAddress) : (s.record h address).2 = s := by
  have hlt : h.cell < s.cells.length := hs
  have hcell : s.get h = s.cells[h.cell] := by
    rw [get, List.getElem?_eq_getElem hlt, Option.getD_some]
  show AttributeStore.mk (s.cells.set h.cell ((s.get h).record address).2) = s
  rw [Attributes.record_of_some hfirst, hcell, List.set_getElem_self]

end

end AttributeStore

end BinaryLog
