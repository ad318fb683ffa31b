import BinaryLog.Proofs.Config.Grammar

/-!
# The first match decides

What a compiled configuration says of a method, as a rule over the list of its clauses
(`FirstMatch`): of the clauses with usable counts, the leftmost one that names the method; if there
is none, the leftmost one about the method's service; if there is none, the leftmost one about all
methods.

* `find_addAll`: a table finds what it found before clauses were taken up, else the first of them.
  Duplicates do not matter, since a clause is dropped only if its selector is found already.
* `resolve_iff_firstMatch`: looking up a method in a compiled table is `FirstMatch`.
-/

namespace BinaryLog.Config

/-! ## The rule -/

/-- A clause with usable counts and a selector in `S`. -/
def Clause.Asks (S : Selector → Prop) (c : Clause) (l : Limits) : Prop :=
  S c.selector ∧ c.limits = .ok l

/-- No clause with usable counts has a selector in `S`. -/
def NoneAsks (S : Selector → Prop) (clauses : List Clause) : Prop :=
  ∀ c ∈ clauses, ∀ l, ¬ c.Asks S l

/-- Of the clauses with usable counts and a selector in `S`, the leftmost asks for `l`. -/
def LeftmostAsks (S : Selector → Prop) (clauses : List Clause) (l : Limits) : Prop :=
  ∃ before c after, clauses = before ++ c :: after ∧ c.Asks S l ∧ NoneAsks S before

/-- The selector is this text, in the form `service/method`. -/
def Selector.IsMethod (m : String) (s : Selector) : Prop :=
  (∃ ofService name, s = method ofService name) ∧ s.text = m

/-- The selector is `svc/*`, where `svc` is everything before the last slash of `m`. -/
def Selector.IsServiceOf (m : String) (s : Selector) : Prop :=
  ∃ svc rest, s = service svc ∧ m = svc ++ "/" ++ rest ∧ '/' ∉ rest.toList

/-- The limits that clauses give a method: the leftmost of the closest kind decides. -/
inductive FirstMatch (clauses : List Clause) (m : String) : Option Limits → Prop
  | method {l : Limits} : LeftmostAsks (·.IsMethod m) clauses l → FirstMatch clauses m (some l)
  | service {l : Limits} : NoneAsks (·.IsMethod m) clauses →
      LeftmostAsks (·.IsServiceOf m) clauses l → FirstMatch clauses m (some l)
  | all {l : Limits} : NoneAsks (·.IsMethod m) clauses → NoneAsks (·.IsServiceOf m) clauses →
      LeftmostAsks (· = .all) clauses l → FirstMatch clauses m (some l)
  | none : NoneAsks (·.IsMethod m) clauses → NoneAsks (·.IsServiceOf m) clauses →
      NoneAsks (· = .all) clauses → FirstMatch clauses m none

/-! ## The rule, computed -/

/-- The limits of the first clause with usable counts whose selector passes a test. -/
def firstUsable (p : Selector → Bool) (clauses : List Clause) : Option Limits :=
  clauses.findSome? fun c => if p c.selector then c.limits.toOption else none

section
variable {p : Selector → Bool} {S : Selector → Prop} (hp : ∀ s, p s = true ↔ S s)
include hp

theorem usable_eq_some_iff {c : Clause} {l : Limits} :
    (if p c.selector then c.limits.toOption else none) = some l ↔ c.Asks S l := by
  rw [Clause.Asks, ← hp]
  cases hl : c.limits <;> simp [Except.toOption]

theorem firstUsable_eq_none_iff {clauses : List Clause} :
    firstUsable p clauses = none ↔ NoneAsks S clauses := by
  simp only [firstUsable, List.findSome?_eq_none_iff, NoneAsks, ← usable_eq_some_iff hp]
  exact forall₂_congr fun c _ => Option.eq_none_iff_forall_ne_some

theorem firstUsable_eq_some_iff {clauses : List Clause} {l : Limits} :
    firstUsable p clauses = some l ↔ LeftmostAsks S clauses l := by
  simp only [firstUsable, List.findSome?_eq_some_iff, usable_eq_some_iff hp]
  refine exists₃_congr fun before c after => and_congr_right fun _ => and_congr_right fun _ => ?_
  rw [← firstUsable_eq_none_iff hp, firstUsable, List.findSome?_eq_none_iff]

end

/-! ## What a table finds -/

namespace RuleTable

theorem find_add (t : RuleTable) (p : Selector → Bool) (c : Clause) :
    (t.add c).1.find p = (t.find p).or (firstUsable p [c]) := by
  unfold add
  cases hl : c.limits with
  | error problem => simp [drop, find, firstUsable, hl, Except.toOption]
  | ok limits =>
    simp only
    split
    · -- the selector is bound: a test it passes already finds a rule
      rename_i hbound
      obtain ⟨rule, hrule, hsel⟩ := List.any_eq_true.1 hbound
      have hsel : rule.selector = c.selector := by simpa using hsel
      by_cases hpc : p c.selector = true
      · have hfound : (t.find p).isSome = true := by
          simp only [find, Option.isSome_map, List.find?_isSome]
          exact ⟨rule, hrule, by rw [hsel]; exact hpc⟩
        obtain ⟨l, hl⟩ := Option.isSome_iff_exists.1 hfound
        rw [show (t.drop (.duplicateSelector c.text)).1.find p = t.find p from rfl, hl,
          Option.some_or]
      · simp [drop, find, firstUsable, hpc]
    · simp only [bind, find, firstUsable, List.find?_append]
      by_cases hpc : p c.selector = true <;> cases t.rules.find? fun r => p r.selector <;>
        simp [hpc, hl, Except.toOption]

theorem find_addAll (t : RuleTable) (p : Selector → Bool) (clauses : List Clause) :
    (t.addAll clauses).1.find p = (t.find p).or (firstUsable p clauses) := by
  induction clauses generalizing t with
  | nil => simp [addAll, firstUsable]
  | cons c clauses ih =>
    have hcons : firstUsable p ([c] ++ clauses) = (firstUsable p [c]).or (firstUsable p clauses) :=
      List.findSome?_append
    rw [addAll, ih, find_add, Option.or_assoc, ← hcons, List.singleton_append]

end RuleTable

/-! ## What a test on selectors says of a method -/

theorem Selector.names_iff {m : String} {s : Selector} : s.names m = true ↔ s.IsMethod m := by
  cases s <;> simp [names, IsMethod, text]

theorem serviceOf?_eq_some_iff {m svc : String} :
    serviceOf? m = some svc ↔ ∃ rest, m = svc ++ "/" ++ rest ∧ '/' ∉ rest.toList := by
  refine ⟨fun h => ?_, fun h => ?_⟩
  · unfold serviceOf? at h
    have hslash := List.head?_dropWhile_not (· != '/') m.toList.reverse
    generalize hdrop : m.toList.reverse.dropWhile (· != '/') = found at h hslash
    obtain ⟨hm, hrun⟩ := eq_append_of_dropWhile hdrop
    generalize m.toList.reverse.takeWhile (· != '/') = run at hm hrun
    cases found with
    | nil => cases h
    | cons c before =>
      obtain rfl : c = '/' := by simpa using hslash
      cases h
      refine ⟨String.ofList run.reverse, ?_, ?_⟩
      · rw [← String.toList_inj, ← List.reverse_inj, hm]
        simp
      · intro hc
        have := hrun '/' (by simpa using hc)
        simp at this
  · obtain ⟨rest, rfl, hrest⟩ := h
    have hstop : ∀ c ∈ rest.toList.reverse, (c != '/') = true := by
      intro c hc
      have : c ≠ '/' := fun he => hrest (by simpa [he] using hc)
      simpa using this
    simp [serviceOf?, List.dropWhile_append_of_pos hstop]

theorem Selector.coversServiceOf_iff {m : String} {s : Selector} :
    s.coversServiceOf m = true ↔ s.IsServiceOf m := by
  cases s <;> simp [coversServiceOf, IsServiceOf, serviceOf?_eq_some_iff]

/-! ## Looking up a method -/

theorem lookup_addAll (clauses : List Clause) (m : String) :
    (RuleTable.empty.addAll clauses).1.lookup m =
      ((firstUsable (·.names m) clauses).or
        ((firstUsable (·.coversServiceOf m) clauses).or (firstUsable (· == .all) clauses))) := by
  have hempty : ∀ p, RuleTable.empty.find p = none := fun _ => rfl
  simp [RuleTable.lookup, RuleTable.find_addAll, hempty]

theorem lookup_eq_iff_firstMatch {clauses : List Clause} {m : String} {r : Option Limits} :
    (RuleTable.empty.addAll clauses).1.lookup m = r ↔ FirstMatch clauses m r := by
  have hmethod := fun s => Selector.names_iff (m := m) (s := s)
  have hservice := fun s => Selector.coversServiceOf_iff (m := m) (s := s)
  have hall : ∀ s : Selector, (s == .all) = true ↔ s = .all := fun _ => beq_iff_eq
  rw [lookup_addAll]
  refine ⟨fun h => ?_, fun h => ?_⟩
  · subst h
    cases h₁ : firstUsable (·.names m) clauses with
    | some l => exact .method ((firstUsable_eq_some_iff hmethod).1 h₁)
    | none =>
      rw [firstUsable_eq_none_iff hmethod] at h₁
      cases h₂ : firstUsable (·.coversServiceOf m) clauses with
      | some l => exact .service h₁ ((firstUsable_eq_some_iff hservice).1 h₂)
      | none =>
        rw [firstUsable_eq_none_iff hservice] at h₂
        cases h₃ : firstUsable (· == .all) clauses with
        | some l => exact .all h₁ h₂ ((firstUsable_eq_some_iff hall).1 h₃)
        | none => exact .none h₁ h₂ ((firstUsable_eq_none_iff hall).1 h₃)
  · cases h with
    | method h₁ => rw [(firstUsable_eq_some_iff hmethod).2 h₁]; rfl
    | service h₁ h₂ =>
      rw [(firstUsable_eq_none_iff hmethod).2 h₁, (firstUsable_eq_some_iff hservice).2 h₂]; rfl
    | all h₁ h₂ h₃ =>
      rw [(firstUsable_eq_none_iff hmethod).2 h₁, (firstUsable_eq_none_iff hservice).2 h₂,
        (firstUsable_eq_some_iff hall).2 h₃]; rfl
    | none h₁ h₂ h₃ =>
      rw [(firstUsable_eq_none_iff hmethod).2 h₁, (firstUsable_eq_none_iff hservice).2 h₂,
        (firstUsable_eq_none_iff hall).2 h₃]; rfl

theorem resolve_fst (t : RuleTable) (m : String) : (t.resolve m).1 = t.lookup m := by
  unfold RuleTable.resolve
  split <;> simp_all

theorem compile_eq_ok_iff {config : String} {t : RuleTable} {ds : List Diagnostic} :
    compile config = (.ok t, ds) ↔
      ∃ clauses, readClauses (pieces config) = .ok clauses ∧
        RuleTable.empty.addAll clauses = (t, ds) := by
  unfold compile parse pieces
  cases readClauses (config.toList.splitOn ',') with
  | error e => simp
  | ok clauses =>
    cases h : RuleTable.empty.addAll clauses
    simp [h]

/-- **The first match decides.** The clauses are those that the configuration is written from, in
its order. -/
theorem resolve_iff_firstMatch {config : String} {t : RuleTable} {ds : List Diagnostic}
    (h : compile config = (.ok t, ds)) (m : String) :
    ∃ clauses, (∀ c ∈ clauses, c.WellFormed) ∧ clauses.map (·.text.toList) = pieces config ∧
      ∀ r, (t.resolve m).1 = r ↔ FirstMatch clauses m r := by
  obtain ⟨clauses, hread, hadd⟩ := compile_eq_ok_iff.1 h
  obtain ⟨hw, htexts⟩ := readClauses_eq_ok_iff.1 hread
  refine ⟨clauses, hw, htexts, fun r => ?_⟩
  rw [resolve_fst, ← lookup_eq_iff_firstMatch, hadd]

/-- The clause for the service stands first, the first clause for the method has a bad count, and
the last one is a duplicate: the second clause for the method decides. -/
theorem resolve_iff_firstMatch_of_four :
    compile "a/*,a/b\x7bh:x\x7d,a/b\x7bm:7\x7d,a/b" =
        (.ok ⟨[⟨.service "a", .unbounded⟩, ⟨.method "a" "b", ⟨0, 7⟩⟩],
          [.badCount "a/b\x7bh:x\x7d" (.notANumber "x"), .duplicateSelector "a/b"]⟩,
        [.bound ⟨.service "a", .unbounded⟩,
          .dropped (.badCount "a/b\x7bh:x\x7d" (.notANumber "x")),
          .bound ⟨.method "a" "b", ⟨0, 7⟩⟩, .dropped (.duplicateSelector "a/b")]) ∧
      ∃ clauses, (∀ c ∈ clauses, c.WellFormed) ∧
        clauses.map (·.text.toList) = pieces "a/*,a/b\x7bh:x\x7d,a/b\x7bm:7\x7d,a/b" ∧
        FirstMatch clauses "a/b" (some ⟨0, 7⟩) := by
  have h : compile "a/*,a/b\x7bh:x\x7d,a/b\x7bm:7\x7d,a/b" = _ := rfl
  obtain ⟨clauses, hw, htexts, hfirst⟩ := resolve_iff_firstMatch h "a/b"
  exact ⟨h, clauses, hw, htexts, (hfirst _).1 rfl⟩

end BinaryLog.Config
