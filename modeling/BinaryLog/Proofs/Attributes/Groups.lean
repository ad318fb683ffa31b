import BinaryLog.Proofs.Attributes.Offers
import BinaryLog.Proofs.Attributes.Store

/-!
# Groups of handles

The numbered handles of a table that lead to the same attributes are a group, named by the handle
that they are copies of. An action leaves every handle in its group, and a handle that it makes is
in a group that was there or in one of its own (`handles_step`).

* `held_step`: a group holds what it held, else what is offered through one of its handles.
* `held_step_of_other`: so what is done through other handles leaves it alone.
-/

namespace BinaryLog.AttributeTable

/-! ## One action -/

/-- The address that the attributes of a group hold. -/
def held (t : AttributeTable) (g : AttributeHandle) : Option PeerAddress := (t.store.get g).remote

/-- Each handle sees attributes that are there. -/
def Sound (t : AttributeTable) : Prop := ∀ g ∈ t.handles, t.store.Has g

section
variable {t : AttributeTable} {g g₀ : AttributeHandle} {h : Nat}

theorem sound_empty : empty.Sound := nofun

theorem Sound.has (ht : t.Sound) (hg : t.handles[h]? = some g) : t.store.Has g :=
  ht g (List.mem_of_getElem? hg)

/-- A handle sees what its group holds. -/
theorem get_eq (hg : t.handles[h]? = some g) : t.get h = ⟨t.held g⟩ := by
  rw [get, hg, held]

theorem fresh_record (hg : t.handles[h]? = some g) (address : PeerAddress) :
    (t.record h address).1 = (t.get h).remote.isNone := by
  rw [record, get, hg]
  exact t.store.fresh_record g address

theorem held_fresh (t : AttributeTable) : t.held t.store.fresh = none := by
  rw [held, AttributeStore.get_of_not_has t.store.not_has_fresh]
  rfl

theorem handles_record (t : AttributeTable) (h : Nat) (address : PeerAddress) :
    (t.step (.record h address)).2.handles = t.handles := by
  simp only [step, AttributeTable.record]
  split <;> rfl

/-- The groups of the handles that an action makes. -/
def groupsMade (t : AttributeTable) : Action → List AttributeHandle
  | .create _ => [t.store.fresh]
  | .share h => [t.handles[h]?.getD t.store.fresh]
  | .record _ _ | .remote _ | .peer _ => []

theorem length_groupsMade (t : AttributeTable) (a : Action) :
    (t.groupsMade a).length = made [a] := by
  cases a <;> rfl

/-- The handles that are there stay onto the same groups. -/
theorem handles_step (t : AttributeTable) (a : Action) :
    (t.step a).2.handles = t.handles ++ t.groupsMade a := by
  cases a with
  | create initial => rfl
  | share h =>
    simp only [step, AttributeTable.share, groupsMade]
    split
    · rename_i g hg
      rw [hg, Option.getD_some, AttributeHandle.share_eq]
    · rename_i hnone
      rw [hnone, Option.getD_none]
      rfl
  | record h address => rw [handles_record, groupsMade, List.append_nil]
  | remote | peer => exact (List.append_nil _).symm

theorem Sound.create (ht : t.Sound) (attrs : Attributes) : (t.create attrs).2.Sound := by
  intro g hg
  rcases List.mem_append.1 hg with hg | hg
  · exact (ht g hg).create attrs
  · obtain rfl := List.mem_singleton.1 hg
    exact t.store.has_fresh attrs

theorem Sound.step (ht : t.Sound) (a : Action) : (t.step a).2.Sound := by
  cases a with
  | create initial => exact ht.create _
  | share h =>
    simp only [AttributeTable.step, AttributeTable.share]
    split
    · rename_i g hg
      intro g' hg'
      rcases List.mem_append.1 hg' with hg' | hg'
      · exact ht g' hg'
      · obtain rfl := List.mem_singleton.1 hg'
        exact ht.has hg
    · exact ht.create _
  | record h address =>
    simp only [AttributeTable.step, AttributeTable.record]
    split
    · exact fun g hg => (ht g hg).record _ address
    · exact ht
  | remote | peer => exact ht

theorem held_create (t : AttributeTable) (attrs : Attributes) (g : AttributeHandle) :
    (t.create attrs).2.held g = if g = t.store.fresh then attrs.remote else t.held g := by
  show ((t.store.create attrs).2.get g).remote = _
  rw [AttributeStore.get_create, apply_ite Attributes.remote, held]

/-- What is offered through a handle is for the group of this handle. -/
theorem held_record (ht : t.Sound) (hg₀ : t.handles[h]? = some g₀) (address : PeerAddress)
    (g : AttributeHandle) :
    (t.record h address).2.held g = if g = g₀ then (t.held g).or (some address) else t.held g := by
  have hstore : (t.record h address).2.store = (t.store.record g₀ address).2 := by
    rw [AttributeTable.record, hg₀]
  rw [held, hstore, AttributeStore.get_record (ht.has hg₀)]
  split
  · rename_i heq
    rw [Attributes.remote_record, heq, held]
  · rfl

/-- **A group holds what it held**, else what is offered through one of its handles. -/
theorem held_step (ht : t.Sound) (a : Action) (g : AttributeHandle) :
    (t.step a).2.held g = (t.held g).or
      (a.offerTo (fun h => (t.step a).2.handles[h]? = some g) t.handles.length) := by
  cases a with
  | create initial =>
    have hnew : (t.create ⟨initial⟩).2.handles[t.handles.length]? = some t.store.fresh :=
      List.getElem?_concat_length
    show (t.create ⟨initial⟩).2.held g = _
    rw [held_create]
    split
    · rename_i hg
      subst hg
      cases initial <;>
        simp [AttributeTable.step, Action.offerTo, Action.offer?, hnew, held_fresh]
    · rename_i hg
      cases initial <;>
        simp [AttributeTable.step, Action.offerTo, Action.offer?, hnew, Ne.symm hg]
  | share h =>
    simp only [AttributeTable.step, AttributeTable.share, Action.offerTo, Action.offer?,
      Option.bind_none, Option.or_none]
    split
    · rfl
    · rw [held_create]
      split
      · rename_i hg
        rw [hg, held_fresh]
        rfl
      · rfl
  | record h address =>
    simp only [handles_record, Action.offerTo, Action.offer?, Option.bind_some]
    cases hh : t.handles[h]? with
    | none => simp [AttributeTable.step, AttributeTable.record, hh]
    | some g₀ =>
      show (t.record h address).2.held g = _
      rw [held_record ht hh]
      rcases eq_or_ne g g₀ with rfl | hg
      · simp
      · simp [hg, hg.symm]
  | remote | peer => exact Option.or_none.symm

/-- What is done through handles of other groups leaves a group alone. -/
theorem held_step_of_other (ht : t.Sound) {a : Action} (hg : t.store.Has g)
    (h : ∀ x ∈ a.through?, t.handles[x]? ≠ some g) : (t.step a).2.held g = t.held g := by
  cases a with
  | create initial =>
    show (t.create ⟨initial⟩).2.held g = _
    rw [held_create, if_neg hg.ne_fresh]
  | share x =>
    simp only [AttributeTable.step, AttributeTable.share]
    split
    · rfl
    · rw [held_create, if_neg hg.ne_fresh]
  | record x address =>
    have hx : t.handles[x]? ≠ some g := h x rfl
    show (t.record x address).2.held g = _
    cases hh : t.handles[x]? with
    | none => simp [AttributeTable.record, hh]
    | some g₀ =>
      have hne : g ≠ g₀ := by
        intro heq
        exact hx (heq ▸ hh)
      rw [held_record ht hh, if_neg hne]
  | remote | peer => rfl

end

end BinaryLog.AttributeTable
