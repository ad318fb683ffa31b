import BinaryLog.Attributes.Script
import Mathlib.Data.List.Induction
import Mathlib.Logic.Relation

/-!
# What a script offers to its handles

A script on attribute handles, apart from any table: which handles it makes and how they are related
(`Related`), the first address that it offers through some handles (`FirstOffer`), and from these
what each of its actions should answer (`Answers`).

* `FirstOffer.concat`: the first offer of a script, one action after another.
-/

namespace BinaryLog.AttributeTable

/-! ## The handles of a script -/

/-- Whether an action makes a handle. -/
def Action.makes : Action → Bool
  | create _ | share _ => true
  | record _ _ | remote _ | peer _ => false

/-- The handle through which an action is done. -/
def Action.through? : Action → Option Nat
  | create _ => none
  | share h | record h _ | remote h | peer h => some h

/-- How many handles a script makes; they are numbered in order. -/
def made (script : List Action) : Nat := script.countP Action.makes

/-- Each action is done through a handle that was made before. -/
def Scoped (script : List Action) : Prop :=
  ∀ i (hi : i < script.length), ∀ h ∈ script[i].through?, h < made (script.take i)

instance (script : List Action) : Decidable (Scoped script) :=
  inferInstanceAs (Decidable (∀ i (hi : i < script.length),
    ∀ h ∈ script[i].through?, h < made (script.take i)))

/-- A script makes the handle `h'` onto the attributes that `h` sees. -/
def SharedFrom (script : List Action) (h h' : Nat) : Prop :=
  ∃ before after, script = before ++ .share h :: after ∧ made before = h'

/-- Handles that are obtained from one another by sharing, in any number of steps. -/
def Related (script : List Action) : Nat → Nat → Prop := Relation.EqvGen (SharedFrom script)

theorem made_append (script script' : List Action) :
    made (script ++ script') = made script + made script' := List.countP_append

theorem Scoped.through_lt {before after : List Action} {a : Action}
    (hs : Scoped (before ++ a :: after)) : ∀ h ∈ a.through?, h < made before := by
  simpa using hs before.length (by simp)

theorem SharedFrom.append {script : List Action} {h h' : Nat} (hshared : SharedFrom script h h')
    (after : List Action) : SharedFrom (script ++ after) h h' := by
  obtain ⟨before, rest, rfl, hmade⟩ := hshared
  exact ⟨before, rest ++ after, by simp, hmade⟩

theorem Related.append {script : List Action} {h h' : Nat} (hrelated : Related script h h')
    (after : List Action) : Related (script ++ after) h h' :=
  Relation.EqvGen.mono (fun _ _ hshared => hshared.append after) _ _ hrelated

/-! ## Offers -/

/-- The address that an action offers, and the handle through which it does, when `n` handles were
made before. Making a handle with an address offers it through the new handle. -/
def Action.offer? (n : Nat) : Action → Option (Nat × PeerAddress)
  | create (some address) => some (n, address)
  | record h address => some (h, address)
  | create none | share _ | remote _ | peer _ => none

/-- The address that an action offers through one of the handles `S`. -/
def Action.offerTo (S : Nat → Prop) [DecidablePred S] (n : Nat) (a : Action) :
    Option PeerAddress :=
  (a.offer? n).bind fun (h, address) => if S h then some address else none

/-- An action that is done after `before` offers an address through one of the handles `S`. -/
def Offers (S : Nat → Prop) (before : List Action) (a : Action) (address : PeerAddress) : Prop :=
  ∃ h, S h ∧ a.offer? (made before) = some (h, address)

/-- Nothing is offered through the handles `S`. -/
def NoOffer (S : Nat → Prop) (script : List Action) : Prop :=
  ∀ before a after address, script = before ++ a :: after → ¬ Offers S before a address

/-- The first address that a script offers through the handles `S`, if it offers any. -/
inductive FirstOffer (S : Nat → Prop) (script : List Action) : Option PeerAddress → Prop
  | none : NoOffer S script → FirstOffer S script none
  | some {before after : List Action} {a : Action} {address : PeerAddress} :
      script = before ++ a :: after → NoOffer S before → Offers S before a address →
      FirstOffer S script (some address)

/-- What an action answers that is done after `before` in a script. -/
inductive Answers (script before : List Action) : Action → Answer → Prop
  | create {initial : Option PeerAddress} :
      Answers script before (.create initial) (.handle (made before))
  | share {h : Nat} : Answers script before (.share h) (.handle (made before))
  | record {h : Nat} {address : PeerAddress} {held : Option PeerAddress} :
      FirstOffer (Related script h) before held →
      Answers script before (.record h address) (.recorded held.isNone)
  | remote {h : Nat} {held : Option PeerAddress} : FirstOffer (Related script h) before held →
      Answers script before (.remote h) (.remote held)
  | peer {h : Nat} {held : Option PeerAddress} : FirstOffer (Related script h) before held →
      Answers script before (.peer h) (.peer (held.getD .dummy))

section
variable {S : Nat → Prop}

theorem noOffer_nil : NoOffer S [] := by
  intro before a after address h
  simp at h

theorem NoOffer.concat {script : List Action} {a : Action} (hno : NoOffer S script)
    (ha : ∀ address, ¬ Offers S script a address) : NoOffer S (script ++ [a]) := by
  intro before b after address h
  rcases List.eq_nil_or_concat after with rfl | ⟨after, c, rfl⟩
  · obtain ⟨rfl, hb⟩ := List.append_inj' h rfl
    cases hb
    exact ha address
  · rw [List.concat_eq_append, ← List.cons_append, ← List.append_assoc] at h
    exact hno before b after address (List.append_inj' h rfl).1

theorem offerTo_eq_some_iff [DecidablePred S] {before : List Action} {a : Action}
    {address : PeerAddress} :
    a.offerTo S (made before) = some address ↔ Offers S before a address := by
  simp [Action.offerTo, Offers, Option.bind_eq_some_iff, and_comm]

theorem offerTo_congr {S' : Nat → Prop} [DecidablePred S] [DecidablePred S'] {a : Action} {n : Nat}
    (h : ∀ x address, a.offer? n = some (x, address) → (S x ↔ S' x)) :
    a.offerTo S n = a.offerTo S' n := by
  unfold Action.offerTo
  cases hoffer : a.offer? n with
  | none => rfl
  | some offer => simp [h offer.1 offer.2 hoffer]

/-- The first offer stays the first; if there was none, the next action may make it. -/
theorem FirstOffer.concat [DecidablePred S] {script : List Action} {held : Option PeerAddress}
    (h : FirstOffer S script held) (a : Action) :
    FirstOffer S (script ++ [a]) (held.or (a.offerTo S (made script))) := by
  cases h with
  | @some before after b address hscript hno hoffers =>
    subst hscript
    have hsplit : before ++ b :: after ++ [a] = before ++ b :: (after ++ [a]) := by simp
    exact .some hsplit hno hoffers
  | none hno =>
    rw [Option.none_or]
    cases hnext : a.offerTo S (made script) with
    | none =>
      refine .none (hno.concat fun address hoffers => ?_)
      rw [offerTo_eq_some_iff.2 hoffers] at hnext
      cases hnext
    | some address => exact .some rfl hno (offerTo_eq_some_iff.1 hnext)

end

end BinaryLog.AttributeTable
