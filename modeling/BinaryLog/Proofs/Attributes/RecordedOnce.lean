import BinaryLog.Proofs.Attributes.Groups
import Mathlib.Data.List.Induction

/-!
# Attributes are recorded once for all their handles

What the actions of a script answer is told from the script alone: handles that are obtained from
one another by sharing see the same attributes, these hold the first address that is offered through
any such handle, and nothing else has to do with them.

* `related_iff`: the related handles of a script are those in the same group of the table.
* `firstOffer_of_run`: a group holds the first offer that is made through its handles.
* `recorded_once_per_group`: what each action of a script answers, and what it leaves unchanged.
-/

namespace BinaryLog.AttributeTable

/-! ## A whole script -/

theorem run_append (t : AttributeTable) (script script' : List Action) :
    (t.run (script ++ script')).2 = ((t.run script).2.run script').2 := by
  induction script generalizing t with
  | nil => rfl
  | cons a script ih => exact ih (t.step a).2

theorem run_concat (t : AttributeTable) (script : List Action) (a : Action) :
    (t.run (script ++ [a])).2 = ((t.run script).2.step a).2 := t.run_append script [a]

/-- The answer of an action in a run. -/
theorem run_answers (t : AttributeTable) (before after : List Action) (a : Action) :
    (t.run (before ++ a :: after)).1[before.length]? = some ((t.run before).2.step a).1 := by
  induction before generalizing t with
  | nil => rfl
  | cons first before ih => exact ih (t.step first).2

theorem sound_run {t : AttributeTable} (ht : t.Sound) (script : List Action) :
    (t.run script).2.Sound := by
  induction script generalizing t with
  | nil => exact ht
  | cons a script ih => exact ih (ht.step a)

theorem handles_run (t : AttributeTable) (script : List Action) :
    ∃ new, (t.run script).2.handles = t.handles ++ new ∧ new.length = made script := by
  induction script generalizing t with
  | nil => exact ⟨[], (List.append_nil _).symm, rfl⟩
  | cons a script ih =>
    obtain ⟨new, hnew, hlength⟩ := ih (t.step a).2
    refine ⟨t.groupsMade a ++ new, ?_, ?_⟩
    · show ((t.step a).2.run script).2.handles = _
      rw [hnew, handles_step, List.append_assoc]
    · rw [List.length_append, length_groupsMade, hlength, ← made_append, List.singleton_append]

section
variable {script before after : List Action}

theorem length_handles (script : List Action) :
    (empty.run script).2.handles.length = made script := by
  obtain ⟨new, hnew, hlength⟩ := handles_run empty script
  rw [hnew, ← hlength]
  rfl

/-- A handle that was made stays onto its group. -/
theorem group_append {h : Nat} (hh : h < made before) (after : List Action) :
    (empty.run (before ++ after)).2.handles[h]? = (empty.run before).2.handles[h]? := by
  obtain ⟨new, hnew, -⟩ := handles_run (empty.run before).2 after
  rw [run_append, hnew, List.getElem?_append_left (by rwa [length_handles])]

theorem exists_group {h : Nat} (hh : h < made script) :
    ∃ g, (empty.run script).2.handles[h]? = some g :=
  ⟨_, List.getElem?_eq_getElem (by rwa [length_handles])⟩

/-- A handle made by sharing is onto the group of the other one. -/
theorem group_of_sharedFrom (hs : Scoped script) {h h' : Nat} (hshared : SharedFrom script h h') :
    (empty.run script).2.handles[h]? = (empty.run script).2.handles[h']? := by
  obtain ⟨before, after, rfl, rfl⟩ := hshared
  have hh : h < made before := hs.through_lt h rfl
  obtain ⟨g, hg⟩ := exists_group hh
  have hnew : (empty.run (before ++ [.share h])).2.handles[made before]? = some g := by
    simp [run_concat, step, share, hg, ← length_handles]
  have hlt : made before < made (before ++ [.share h]) := by
    rw [made_append]
    exact Nat.lt_succ_self _
  rw [group_append hh, hg, ← List.singleton_append, ← List.append_assoc, group_append hlt, hnew]

theorem group_of_related (hs : Scoped script) {h h' : Nat} (hrelated : Related script h h') :
    (empty.run script).2.handles[h]? = (empty.run script).2.handles[h']? := by
  induction hrelated with
  | rel h h' hshared => exact group_of_sharedFrom hs hshared
  | refl h => rfl
  | symm h h' _ ih => exact ih.symm
  | trans h h' h'' _ _ ih ih' => exact ih.trans ih'

/-- A handle is onto the same group as one that was there before the last action, from which it is
obtained, or it was made with a group of its own. -/
theorem group_of_concat {a : Action} {h : Nat} {g : AttributeHandle}
    (hg : (empty.run (script ++ [a])).2.handles[h]? = some g) :
    (∃ x, (empty.run script).2.handles[x]? = some g ∧ Related (script ++ [a]) x h) ∨
      g = (empty.run script).2.store.fresh ∧ h = made script := by
  rw [run_concat, handles_step] at hg
  rcases Nat.lt_or_ge h (empty.run script).2.handles.length with hold | hnew
  · rw [List.getElem?_append_left hold] at hg
    exact .inl ⟨h, hg, .refl h⟩
  · rw [List.getElem?_append_right hnew, length_handles] at hg
    rw [length_handles] at hnew
    cases a with
    | create initial =>
      simp only [groupsMade, List.getElem?_singleton] at hg
      split at hg <;> cases hg
      exact .inr ⟨rfl, by omega⟩
    | share y =>
      simp only [groupsMade, List.getElem?_singleton] at hg
      split at hg <;> cases hg
      have hh : h = made script := by omega
      cases hy : (empty.run script).2.handles[y]? with
      | none => exact .inr ⟨rfl, hh⟩
      | some g => exact .inl ⟨y, hy, .rel _ _ ⟨script, [], rfl, hh.symm⟩⟩
    | record | remote | peer => cases hg

/-- Handles onto the same group are obtained from one another. -/
theorem related_of_group {h h' : Nat} {g : AttributeHandle}
    (hg : (empty.run script).2.handles[h]? = some g)
    (hg' : (empty.run script).2.handles[h']? = some g) : Related script h h' := by
  induction script using List.reverseRecOn generalizing h h' with
  | nil => cases hg
  | append_singleton script a ih =>
    have hsound := sound_run sound_empty script
    rcases group_of_concat hg with ⟨x, hx, hxh⟩ | ⟨hfresh, rfl⟩
    · rcases group_of_concat hg' with ⟨x', hx', hxh'⟩ | ⟨hfresh', -⟩
      · exact hxh.symm.trans _ _ _ (((ih hx hx').append [a]).trans _ _ _ hxh')
      · exact absurd hfresh' (hsound.has hx).ne_fresh
    · rcases group_of_concat hg' with ⟨x', hx', -⟩ | ⟨-, rfl⟩
      · exact absurd hfresh (hsound.has hx').ne_fresh
      · exact .refl _

/-- **The related handles are those onto the same group.** -/
theorem related_iff (hs : Scoped script) {h : Nat} {g : AttributeHandle}
    (hg : (empty.run script).2.handles[h]? = some g) (h' : Nat) :
    Related script h h' ↔ (empty.run script).2.handles[h']? = some g :=
  ⟨fun hrelated => by rw [← group_of_related hs hrelated, hg], related_of_group hg⟩

/-! ## What is held -/

theorem offer_lt {a : Action} (hs : Scoped (before ++ a :: after)) {h : Nat} {address : PeerAddress}
    (hoffer : a.offer? (made before) = some (h, address)) : h < made (before ++ [a]) := by
  rw [made_append]
  cases a with
  | create initial =>
    cases initial <;> cases hoffer
    exact Nat.lt_succ_self _
  | record x =>
    cases hoffer
    exact Nat.lt_add_right _ (hs.through_lt h rfl)
  | share | remote | peer => cases hoffer

/-- **A group holds the first address that is offered through its handles.** -/
theorem firstOffer_of_run (hs : Scoped (before ++ after)) (g : AttributeHandle) :
    FirstOffer (fun h => (empty.run (before ++ after)).2.handles[h]? = some g) before
      ((empty.run before).2.held g) := by
  induction before using List.reverseRecOn generalizing after with
  | nil => exact .none noOffer_nil
  | append_singleton before a ih =>
    have happend : before ++ [a] ++ after = before ++ a :: after := by simp
    -- the handle of an offer is there by then, and it stays onto its group
    have hsame : ∀ x address, a.offer? (made before) = some (x, address) →
        ((empty.run (before ++ [a])).2.handles[x]? = some g ↔
          (empty.run (before ++ [a] ++ after)).2.handles[x]? = some g) := by
      intro x address hoffer
      rw [group_append (offer_lt (happend ▸ hs) hoffer)]
    have hheld := held_step (sound_run sound_empty before) a g
    rw [length_handles, ← run_concat, offerTo_congr hsame] at hheld
    rw [hheld, happend]
    exact (ih (happend ▸ hs)).concat a

theorem remote_of_run (hs : Scoped (before ++ after)) {h : Nat} (hh : h < made before) :
    FirstOffer (Related (before ++ after) h) before ((empty.run before).2.get h).remote := by
  obtain ⟨g, hg⟩ := exists_group hh
  have hgroup : (empty.run (before ++ after)).2.handles[h]? = some g := by
    rw [group_append hh, hg]
  have hrelated : Related (before ++ after) h =
      fun x => (empty.run (before ++ after)).2.handles[x]? = some g :=
    funext fun x => propext (related_iff hs hgroup x)
  rw [get_eq hg, hrelated]
  exact firstOffer_of_run hs g

/-- What an action of a script answers. -/
theorem answers_of_run {a : Action} (hs : Scoped (before ++ a :: after)) :
    Answers (before ++ a :: after) before a ((empty.run before).2.step a).1 := by
  have hthrough := hs.through_lt
  cases a with
  | create initial =>
    rw [step, AttributeTable.create, length_handles]
    exact .create
  | share h =>
    obtain ⟨g, hg⟩ := exists_group (hthrough h rfl)
    simp only [step, AttributeTable.share, hg, length_handles]
    exact .share
  | record h address =>
    obtain ⟨g, hg⟩ := exists_group (hthrough h rfl)
    show Answers _ before _ (.recorded ((empty.run before).2.record h address).1)
    rw [fresh_record hg]
    exact .record (remote_of_run hs (hthrough h rfl))
  | remote h => exact .remote (remote_of_run hs (hthrough h rfl))
  | peer h => exact .peer (remote_of_run hs (hthrough h rfl))

end

/-- **Attributes are recorded once for all their handles.** In a script whose actions are done
through handles that were made before, each action answers what the script alone tells (`Answers`):
an address is recorded just if none was offered before through a related handle, and asking for it
gives the first one that was. At each moment related handles see the same attributes, with the first
address that was offered through any of them. An action leaves what a handle sees as it is if it is
done through an unrelated one, or if there is an address already. -/
theorem recorded_once_per_group {script before after : List Action} {a : Action}
    (hscript : script = before ++ a :: after) (hs : Scoped script) :
    (∃ answer, (empty.run script).1[before.length]? = some answer ∧
      Answers script before a answer) ∧
    ∀ h < made before,
      FirstOffer (Related script h) before ((empty.run before).2.get h).remote ∧
      (∀ h' < made before, Related script h h' →
        (empty.run before).2.get h' = (empty.run before).2.get h) ∧
      ((∀ x ∈ a.through?, ¬ Related script x h) →
        (empty.run (before ++ [a])).2.get h = (empty.run before).2.get h) ∧
      (((empty.run before).2.get h).remote ≠ none →
        (empty.run (before ++ [a])).2.get h = (empty.run before).2.get h) := by
  subst hscript
  have hsound := sound_run sound_empty before
  refine ⟨⟨_, run_answers .., answers_of_run hs⟩, fun h hh => ⟨remote_of_run hs hh, ?_⟩⟩
  obtain ⟨g, hg⟩ := exists_group hh
  have hgroup : (empty.run (before ++ a :: after)).2.handles[h]? = some g := by
    rw [group_append hh, hg]
  have hnext : (empty.run (before ++ [a])).2.handles[h]? = some g := by rw [group_append hh, hg]
  rw [get_eq hg, get_eq hnext, run_concat]
  refine ⟨fun h' hh' hrelated => ?_, fun hother => ?_, fun hheld => ?_⟩
  · rw [related_iff hs hgroup, group_append hh'] at hrelated
    rw [get_eq hrelated]
  · rw [held_step_of_other hsound (hsound.has hg)]
    intro x hx hxg
    refine hother x hx ((related_iff hs ?_ h).2 hgroup)
    rw [group_append (hs.through_lt x hx), hxg]
  · obtain ⟨address, haddress⟩ : ∃ address, (empty.run before).2.held g = some address :=
      Option.ne_none_iff_exists'.1 hheld
    rw [held_step hsound, haddress, Option.some_or]

/-- Of four handles the first, the second and the last are related. Through the second the address
is recorded that the first one then tells; through the last no other can be; and the third keeps the
stand-in that it was made with. -/
theorem recorded_once_per_group_of_four :
    let before : List Action := [.create none, .share 0, .create (some .dummy),
      .record 1 (.other "a"), .share 0]
    let again : Action := .record 3 (.other "b")
    let script := before ++ again :: [.remote 0, .remote 2]
    Scoped script ∧
    (empty.run script).1 = [.handle 0, .handle 1, .handle 2, .recorded true, .handle 3,
      .recorded false, .remote (some (.other "a")), .remote (some .dummy)] ∧
    Answers script before again (.recorded false) ∧
    FirstOffer (Related script 0) before (some (.other "a")) ∧
    ¬ Related script 3 2 ∧
    (empty.run (before ++ [again])).2.get 2 = (empty.run before).2.get 2 := by
  intro before again script
  have hs : Scoped script := by decide
  have hunrelated : ¬ Related script 3 2 := by
    rw [related_iff hs (g := ⟨0⟩) rfl]
    decide
  obtain ⟨⟨answer, hanswer, hanswers⟩, hsees⟩ := recorded_once_per_group rfl hs
  obtain rfl : Answer.recorded false = answer := Option.some.inj hanswer
  obtain ⟨hfirst, -⟩ := hsees 0 (by decide)
  obtain ⟨-, -, hother, -⟩ := hsees 2 (by decide)
  refine ⟨hs, by decide, hanswers, hfirst, hunrelated, hother fun x hx => ?_⟩
  cases hx
  exact hunrelated

end BinaryLog.AttributeTable
