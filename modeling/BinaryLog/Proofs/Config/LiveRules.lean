import BinaryLog.Proofs.Config.Reordered
import Mathlib.Data.Set.Finite.List

/-!
# No rule is dead

The names that the rules in force are looked up by have no more slashes than the grammar gives them
(`IsKeyPart`), so that only the rule for all methods is about a method whose name has not exactly
one slash. And each rule in force decides for some method (`RuleTable.ruleFor`).

* `first_eq_some_iff`: a test that one selector passes finds any rule whose selector passes it.
* `exists_rest_notMem`: a service has methods that no given rules name.
* `exists_method_of_rule`: so no rule is shadowed by the others, however many these are.
* `rules_live`: both, for a configuration.
-/

namespace BinaryLog.Config

/-! ## The names in selectors -/

/-- A part of a name that rules are looked up by. -/
def IsKeyPart (s : String) : Prop := s ≠ "" ∧ ∀ c ∈ s.toList, c ∉ ['/', '*', '\x7b', '\x7d', ',']

theorem isKeyPart_of_name {s : String} (hne : s ≠ "") (hname : ∀ c ∈ s.toList, isNameChar c)
    (hcomma : ',' ∉ s.toList) : IsKeyPart s := by
  refine ⟨hne, fun c hc => ?_⟩
  have hc' := hname c hc
  have : c ≠ ',' := fun heq => hcomma (heq ▸ hc)
  simp_all [isNameChar]

theorem IsKeyPart.slash_notMem {s : String} (h : IsKeyPart s) : '/' ∉ s.toList :=
  fun hmem => h.2 '/' hmem (by decide)

/-- The names in the selector of a rule that can be written. -/
theorem Rule.Writable.isKeyPart {rule : Rule} (h : rule.Writable) :
    (∀ service, rule.selector = .service service → IsKeyPart service) ∧
      ∀ service name, rule.selector = .method service name →
        IsKeyPart service ∧ IsKeyPart name := by
  obtain ⟨hselector, hcomma, -, -⟩ := h
  refine ⟨fun service hs => ?_, fun service name hs => ?_⟩
  · rw [hs] at hselector hcomma
    simp only [Selector.text, String.toList_append, List.mem_append, not_or] at hcomma
    exact isKeyPart_of_name hselector.1 hselector.2 hcomma.1
  · rw [hs] at hselector hcomma
    simp only [Selector.text, String.toList_append, List.mem_append, not_or] at hcomma
    exact ⟨isKeyPart_of_name hselector.1.1 hselector.1.2 hcomma.1.1,
      isKeyPart_of_name hselector.2.1 hselector.2.2 hcomma.2⟩

/-! ## The rule that decides -/

namespace RuleTable

/-- The first rule whose selector passes a test. -/
def first (t : RuleTable) (p : Selector → Bool) : Option Rule :=
  t.rules.find? fun rule => p rule.selector

/-- The rule whose limits a method has. -/
def ruleFor (t : RuleTable) (m : String) : Option Rule :=
  (t.first (·.names m)).or ((t.first (·.coversServiceOf m)).or (t.first (· == .all)))

theorem resolve_eq_ruleFor (t : RuleTable) (m : String) :
    (t.resolve m).1 = (t.ruleFor m).map Rule.limits := by
  have hfind : ∀ p, t.find p = (t.first p).map Rule.limits := fun _ => rfl
  simp only [resolve_fst, lookup, ruleFor, hfind, Option.orElse_eq_orElse, Option.orElse_eq_or,
    Option.map_or]

theorem mem_of_first {t : RuleTable} {p : Selector → Bool} {rule : Rule}
    (h : t.first p = some rule) : rule ∈ t.rules :=
  List.mem_of_find?_eq_some h

theorem pass_of_first {t : RuleTable} {p : Selector → Bool} {rule : Rule}
    (h : t.first p = some rule) : p rule.selector := by
  simpa using List.find?_some h

theorem first_eq_none_iff {t : RuleTable} {p : Selector → Bool} :
    t.first p = none ↔ ∀ rule ∈ t.rules, ¬ p rule.selector := by
  simp [first]

section
variable {t : RuleTable} (ht : t.Sound)
include ht

/-- Rules with the same selector are the same. -/
theorem Sound.eq_of_selector_eq {rule rule' : Rule} (h : rule ∈ t.rules) (h' : rule' ∈ t.rules)
    (heq : rule.selector = rule'.selector) : rule = rule' :=
  List.inj_on_of_nodup_map ht.different h h' heq

/-- A test that one selector passes finds any rule whose selector passes it. -/
theorem first_eq_some_iff {p : Selector → Bool} (hp : PassedByOne p) {rule : Rule} :
    t.first p = some rule ↔ rule ∈ t.rules ∧ p rule.selector := by
  refine ⟨fun h => ⟨mem_of_first h, pass_of_first h⟩, fun ⟨hmem, hpass⟩ => ?_⟩
  cases hfirst : t.first p with
  | none => exact absurd hpass (first_eq_none_iff.1 hfirst rule hmem)
  | some found =>
    have hfound := mem_of_first hfirst
    have hselector : found.selector = rule.selector :=
      hp _ _ (ht.writable found hfound).selector (ht.writable rule hmem).selector
        (pass_of_first hfirst) hpass
    rw [ht.eq_of_selector_eq hfound hmem hselector]

/-- Only a name with exactly one slash has a rule of its own or one for its service. -/
theorem ruleFor_of_count_ne_one {m : String} (h : m.toList.count '/' ≠ 1) :
    t.ruleFor m = t.first (· == .all) := by
  have hnames : t.first (·.names m) = none := by
    refine first_eq_none_iff.2 fun rule hrule hpass => h ?_
    obtain ⟨⟨service, name, hselector⟩, rfl⟩ := Selector.names_iff.1 hpass
    obtain ⟨hservice, hname⟩ := (ht.writable rule hrule).isKeyPart.2 service name hselector
    simp [hselector, Selector.text, List.count_eq_zero.2 hservice.slash_notMem,
      List.count_eq_zero.2 hname.slash_notMem]
  have hcovers : t.first (·.coversServiceOf m) = none := by
    refine first_eq_none_iff.2 fun rule hrule hpass => h ?_
    obtain ⟨service, rest, hselector, rfl, hrest⟩ := Selector.coversServiceOf_iff.1 hpass
    have hservice := (ht.writable rule hrule).isKeyPart.1 service hselector
    simp [List.count_eq_zero.2 hservice.slash_notMem, List.count_eq_zero.2 hrest]
  rw [ruleFor, hnames, hcovers, Option.none_or, Option.none_or]

theorem ruleFor_eq_some_iff_of_count_ne_one {m : String} (h : m.toList.count '/' ≠ 1)
    {rule : Rule} : t.ruleFor m = some rule ↔ rule ∈ t.rules ∧ rule.selector = .all := by
  rw [ruleFor_of_count_ne_one ht h, first_eq_some_iff ht passedByOne_all, beq_iff_eq]

end

/-! ## A method for each rule -/

/-- A service has methods that are not among given ones. -/
theorem exists_rest_notMem (service : String) (texts : List String) :
    ∃ rest : String, '/' ∉ rest.toList ∧ service ++ "/" ++ rest ∉ texts := by
  let name (n : Nat) : String := service ++ "/" ++ String.ofList (List.replicate n 'x')
  have hname : Function.Injective name := by
    intro n k heq
    have hlength := congrArg (List.length ∘ String.toList) heq
    simpa [name] using hlength
  obtain ⟨m, ⟨n, rfl⟩, hfree⟩ :=
    (Set.infinite_range_of_injective hname).exists_notMem_finite texts.finite_toSet
  refine ⟨String.ofList (List.replicate n 'x'), ?_, hfree⟩
  simp

/-- **Each rule decides for some method.** -/
theorem exists_method_of_rule {t : RuleTable} (ht : t.Sound) {rule : Rule} (h : rule ∈ t.rules) :
    ∃ m, t.ruleFor m = some rule := by
  cases hselector : rule.selector with
  | all =>
    -- a name without a slash is a method of no service
    exact ⟨"", (ruleFor_eq_some_iff_of_count_ne_one ht (by decide)).2 ⟨h, hselector⟩⟩
  | service service =>
    obtain ⟨rest, hrest, hfree⟩ := exists_rest_notMem service (t.rules.map (·.selector.text))
    refine ⟨service ++ "/" ++ rest, ?_⟩
    have hnames : t.first (·.names (service ++ "/" ++ rest)) = none := by
      refine first_eq_none_iff.2 fun other hother hpass => hfree ?_
      rw [← (Selector.names_iff.1 hpass).2]
      exact List.mem_map_of_mem hother
    have hcovers : rule.selector.coversServiceOf (service ++ "/" ++ rest) = true :=
      Selector.coversServiceOf_iff.2 ⟨service, rest, hselector, rfl, hrest⟩
    rw [ruleFor, hnames, (first_eq_some_iff ht (passedByOne_coversServiceOf _)).2 ⟨h, hcovers⟩,
      Option.none_or, Option.some_or]
  | method service name =>
    refine ⟨service ++ "/" ++ name, ?_⟩
    have hnames : rule.selector.names (service ++ "/" ++ name) = true :=
      Selector.names_iff.2 ⟨⟨service, name, hselector⟩, by rw [hselector, Selector.text]⟩
    rw [ruleFor, (first_eq_some_iff ht (passedByOne_names _)).2 ⟨h, hnames⟩, Option.some_or]

end RuleTable

/-! ## The rules of a configuration -/

/-- A clause that is bound puts its selector and its limits in force. -/
theorem Accounts.eq_of_bound {earlier : List Clause} {c : Clause} {rule : Rule}
    (h : Accounts earlier c (.bound rule)) :
    rule.selector = c.selector ∧ c.limits = .ok rule.limits := by
  cases h with
  | bound _ _ hlimits => exact ⟨rfl, hlimits⟩

/-- The rules that are reported are in force. -/
theorem mem_rules_of_bound {config : String} {t : RuleTable} {ds : List Diagnostic}
    (h : compile config = (.ok t, ds)) {rule : Rule} (hd : .bound rule ∈ ds) : rule ∈ t.rules := by
  have hmem : Diagnostic.bound rule ∈ t.rules.map Diagnostic.bound := by
    rw [(sound_of_compile h).2]
    exact List.mem_filter.2 ⟨hd, by simp [Diagnostic.level]⟩
  simpa using hmem

/-- **No rule is dead.** The rules of a configuration that compiles are looked up by a service's
name, which is not empty and has no slash, star, brace or comma, or by a method's, which is two such
parts with one slash between. So a method whose name has not exactly one slash has the limits for
all methods, if there are any, and no others. And for each clause that is bound there is a method
whose limits come from its rule. -/
theorem rules_live {config : String} {t : RuleTable} {ds : List Diagnostic}
    (h : compile config = (.ok t, ds)) :
    (∀ rule ∈ t.rules, ∀ key,
      (("service", key) ∈ rule.selector.key → IsKeyPart key) ∧
      (("method", key) ∈ rule.selector.key →
        ∃ service name, key = service ++ "/" ++ name ∧ IsKeyPart service ∧ IsKeyPart name)) ∧
    (∀ m, m.toList.count '/' ≠ 1 → ∀ l, (t.resolve m).1 = some l ↔ ⟨.all, l⟩ ∈ t.rules) ∧
    (∀ m, (t.resolve m).1 = (t.ruleFor m).map Rule.limits) ∧
    ∃ clauses : List Clause, (∀ c ∈ clauses, c.WellFormed) ∧
      clauses.map (·.text.toList) = pieces config ∧
      ∀ (i : Nat) (c : Clause) (rule : Rule), clauses[i]? = some c → ds[i]? = some (.bound rule) →
        rule.selector = c.selector ∧ c.limits = .ok rule.limits ∧ ∃ m, t.ruleFor m = some rule := by
  obtain ⟨hsound, -⟩ := sound_of_compile h
  refine ⟨fun rule hrule key => ?_, fun m hm l => ?_, t.resolve_eq_ruleFor, ?_⟩
  · obtain ⟨hservice, hmethod⟩ := (hsound.writable rule hrule).isKeyPart
    cases hs : rule.selector with
    | all => simp [Selector.key]
    | service service => simpa [Selector.key] using fun heq => heq ▸ hservice service hs
    | method service name =>
      simpa [Selector.key] using fun heq => ⟨service, name, heq, hmethod service name hs⟩
  · rw [t.resolve_eq_ruleFor, Option.map_eq_some_iff]
    simp only [RuleTable.ruleFor_eq_some_iff_of_count_ne_one hsound hm]
    refine ⟨fun ⟨rule, ⟨hrule, hall⟩, hlimits⟩ => ?_, fun hrule => ⟨_, ⟨hrule, rfl⟩, rfl⟩⟩
    obtain ⟨selector, limits⟩ := rule
    cases hall
    cases hlimits
    exact hrule
  · obtain ⟨clauses, hread, hadd⟩ := compile_eq_ok_iff.1 h
    obtain ⟨hw, htexts⟩ := readClauses_eq_ok_iff.1 hread
    obtain ⟨-, haccounts⟩ := RuleTable.accounts_addAll .empty clauses
    rw [hadd] at haccounts
    refine ⟨clauses, hw, htexts, fun i c rule hc hd => ?_⟩
    obtain ⟨d, hd', haccount⟩ := haccounts i c hc
    obtain rfl := Option.some.inj (hd.symm.trans hd')
    obtain ⟨hselector, hlimits⟩ := haccount.eq_of_bound
    have hrule := mem_rules_of_bound h (List.mem_of_getElem? hd)
    exact ⟨hselector, hlimits, RuleTable.exists_method_of_rule hsound hrule⟩

/-- The clause for the service stands behind one of its methods, and still there is a method that it
decides for; a name with two slashes has the limits for all methods. -/
theorem rules_live_of_three :
    let t : RuleTable := ⟨[⟨.method "a" "b", ⟨0, 7⟩⟩, ⟨.service "a", ⟨1, 0⟩⟩, ⟨.all, .unbounded⟩],
      [.duplicateSelector "a/*", .badCount "c/*\x7bh:\x7d" (.notANumber "")]⟩
    let ds : List Diagnostic := [.bound ⟨.method "a" "b", ⟨0, 7⟩⟩, .bound ⟨.service "a", ⟨1, 0⟩⟩,
      .dropped (.duplicateSelector "a/*"), .bound ⟨.all, .unbounded⟩,
      .dropped (.badCount "c/*\x7bh:\x7d" (.notANumber ""))]
    compile "a/b\x7bm:7\x7d,a/*\x7bh:1\x7d,a/*,*,c/*\x7bh:\x7d" = (.ok t, ds) ∧
      (t.resolve "a/b/c").1 = some .unbounded ∧ IsKeyPart "a" ∧
      ∃ m, t.ruleFor m = some ⟨.service "a", ⟨1, 0⟩⟩ ∧ (t.resolve m).1 = some ⟨1, 0⟩ := by
  intro t ds
  have h : compile "a/b\x7bm:7\x7d,a/*\x7bh:1\x7d,a/*,*,c/*\x7bh:\x7d" = (.ok t, ds) := rfl
  obtain ⟨hkeys, hslashes, hresolve, clauses, -, htexts, hlive⟩ := rules_live h
  have hlength : 1 < clauses.length := by
    rw [← clauses.length_map (·.text.toList), htexts]
    decide
  obtain ⟨-, -, m, hm⟩ := hlive 1 _ _ (List.getElem?_eq_getElem hlength) rfl
  refine ⟨h, (hslashes "a/b/c" (by decide) _).2 (by simp [t]),
    (hkeys ⟨.service "a", ⟨1, 0⟩⟩ (by simp [t]) "a").1 (by simp [Selector.key]), m, hm, ?_⟩
  rw [hresolve, hm]
  rfl

end BinaryLog.Config
