import BinaryLog.Config.RuleTable
import BinaryLog.Proofs.Config.RoundTrip

/-!
# The clause grammar

The grammar of a clause on its own, as strings of characters: `IsSelector`, `IsBlock`, `IsClause`.
`isClause_iff` says that it describes the texts of the clauses that can be written, hence
(`Clause.parse?_eq_some_iff`) what is read. For a whole configuration:

* `readClauses_eq_ok_iff`: reading gives the clauses whose texts are the pieces.
* `readClauses_eq_error_iff`: reading fails with the leftmost piece outside the grammar.
* `compile_iff_grammar`: so does compiling, and then nothing is reported.
-/

namespace BinaryLog.Config

/-! ## The grammar -/

/-- A name: not empty, and without slash, star and braces. -/
def IsName (s : List Char) : Prop := s ≠ [] ∧ ∀ c ∈ s, c ∉ ['/', '*', '\x7b', '\x7d']

/-- `*`, or `s/*`, or `s/t`. -/
inductive IsSelector : List Char → Prop
  | all : IsSelector ['*']
  | service {s : List Char} : IsName s → IsSelector (s ++ ['/', '*'])
  | method {s t : List Char} : IsName s → IsName t → IsSelector (s ++ '/' :: t)

/-- What may follow a letter: nothing, or `:T` for a possibly empty `T` without `;` and braces. -/
inductive IsCount : List Char → Prop
  | absent : IsCount []
  | given {t : List Char} : (∀ c ∈ t, c ∉ [';', '\x7b', '\x7d']) → IsCount (':' :: t)

/-- `{h}`, `{m}` or `{h;m}`, each letter with or without a count. -/
inductive IsBlock : List Char → Prop
  | headers {h : List Char} : IsCount h → IsBlock (['\x7b', 'h'] ++ h ++ ['\x7d'])
  | messages {m : List Char} : IsCount m → IsBlock (['\x7b', 'm'] ++ m ++ ['\x7d'])
  | both {h m : List Char} : IsCount h → IsCount m →
      IsBlock (['\x7b', 'h'] ++ h ++ [';', 'm'] ++ m ++ ['\x7d'])

/-- A selector, then at most one block. -/
inductive IsClause : List Char → Prop
  | bare {s : List Char} : IsSelector s → IsClause s
  | withBlock {s b : List Char} : IsSelector s → IsBlock b → IsClause (s ++ b)

/-! ## The grammar describes what can be written -/

theorem isName_toList {name : String} :
    IsName name.toList ↔ name ≠ "" ∧ ∀ c ∈ name.toList, isNameChar c := by
  simp [IsName, isNameChar, and_assoc]

theorem isSelector_iff {text : List Char} :
    IsSelector text ↔ ∃ s : Selector, s.WellFormed ∧ s.text.toList = text := by
  refine ⟨fun h => ?_, fun h => ?_⟩
  · cases h with
    | all => exact ⟨.all, trivial, rfl⟩
    | @service s hs =>
      exact ⟨.service (String.ofList s), isName_toList.1 (by simpa using hs),
        by simp [Selector.text]⟩
    | @method s t hs ht =>
      exact ⟨.method (String.ofList s) (String.ofList t),
        ⟨isName_toList.1 (by simpa using hs), isName_toList.1 (by simpa using ht)⟩,
        by simp [Selector.text]⟩
  · obtain ⟨s, h, rfl⟩ := h
    cases s with
    | all => exact .all
    | service name =>
      have := IsSelector.service (isName_toList.2 h)
      simpa [Selector.text] using this
    | method ofService name =>
      have := IsSelector.method (isName_toList.2 h.1) (isName_toList.2 h.2)
      simpa [Selector.text] using this

theorem isCount_iff {text : List Char} :
    IsCount text ↔ ∃ count, WritableCount count ∧ (countText count).toList = text := by
  refine ⟨fun h => ?_, fun h => ?_⟩
  · cases h with
    | absent => exact ⟨none, by simp [WritableCount], rfl⟩
    | @given t ht =>
      refine ⟨some (String.ofList t), ?_, by simp [countText]⟩
      simpa [WritableCount, isCountChar, and_assoc] using ht
  · obtain ⟨count, h, rfl⟩ := h
    cases count with
    | none => exact .absent
    | some t =>
      have ht : ∀ c ∈ t.toList, c ∉ [';', '\x7b', '\x7d'] := by
        simpa [WritableCount, isCountChar, and_assoc] using h
      simpa [countText] using IsCount.given ht

theorem isBlock_iff {text : List Char} :
    IsBlock text ↔ ∃ o : Options, o.WellFormed ∧ o.text.toList = text := by
  refine ⟨fun h => ?_, fun h => ?_⟩
  · cases h with
    | headers hh =>
      obtain ⟨h, hw, rfl⟩ := isCount_iff.1 hh
      exact ⟨.headers h, Options.wellFormed_headers.2 hw, by simp [Options.text]⟩
    | messages hm =>
      obtain ⟨m, hw, rfl⟩ := isCount_iff.1 hm
      exact ⟨.messages m, Options.wellFormed_messages.2 hw, by simp [Options.text]⟩
    | both hh hm =>
      obtain ⟨h, hwh, rfl⟩ := isCount_iff.1 hh
      obtain ⟨m, hwm, rfl⟩ := isCount_iff.1 hm
      exact ⟨.both h m, Options.wellFormed_both.2 ⟨hwh, hwm⟩, by simp [Options.text]⟩
  · obtain ⟨o, hw, rfl⟩ := h
    cases o with
    | headers h =>
      have := IsBlock.headers (isCount_iff.2 ⟨h, Options.wellFormed_headers.1 hw, rfl⟩)
      simpa [Options.text] using this
    | messages m =>
      have := IsBlock.messages (isCount_iff.2 ⟨m, Options.wellFormed_messages.1 hw, rfl⟩)
      simpa [Options.text] using this
    | both h m =>
      obtain ⟨hwh, hwm⟩ := Options.wellFormed_both.1 hw
      have := IsBlock.both (isCount_iff.2 ⟨h, hwh, rfl⟩) (isCount_iff.2 ⟨m, hwm, rfl⟩)
      simpa [Options.text] using this

theorem isClause_iff {text : List Char} :
    IsClause text ↔ ∃ c : Clause, c.WellFormed ∧ c.text.toList = text := by
  refine ⟨fun h => ?_, fun h => ?_⟩
  · cases h with
    | bare hs =>
      obtain ⟨s, hw, rfl⟩ := isSelector_iff.1 hs
      exact ⟨⟨s, none⟩, ⟨hw, by simp⟩, rfl⟩
    | withBlock hs hb =>
      obtain ⟨s, hw, rfl⟩ := isSelector_iff.1 hs
      obtain ⟨o, hwo, rfl⟩ := isBlock_iff.1 hb
      exact ⟨⟨s, some o⟩, ⟨hw, by simpa using hwo⟩, by simp [Clause.text]⟩
  · obtain ⟨⟨s, options⟩, ⟨hw, hwo⟩, rfl⟩ := h
    have hs := isSelector_iff.2 ⟨s, hw, rfl⟩
    cases options with
    | none => exact .bare hs
    | some o =>
      have := IsClause.withBlock hs (isBlock_iff.2 ⟨o, hwo o rfl, rfl⟩)
      simpa [Clause.text] using this

theorem isClause_iff_parse? {text : List Char} :
    IsClause text ↔ ∃ c, Clause.parse? text = some c := by
  simp only [isClause_iff, Clause.parse?_eq_some_iff]

/-! ## Configurations -/

/-- Reading gives the clauses whose texts are the pieces. -/
theorem readClauses_eq_ok_iff {pieces : List (List Char)} {clauses : List Clause} :
    readClauses pieces = .ok clauses ↔
      (∀ c ∈ clauses, c.WellFormed) ∧ clauses.map (·.text.toList) = pieces := by
  induction pieces generalizing clauses with
  | nil => cases clauses <;> simp [readClauses]
  | cons piece pieces ih =>
    rw [readClauses]
    cases hp : Clause.parse? piece with
    | none =>
      -- no clause is written as `piece`
      have hnone : ∀ c : Clause, c.WellFormed → c.text.toList ≠ piece := by
        intro c hw htext
        rw [Clause.parse?_eq_some_iff.2 ⟨hw, htext⟩] at hp
        cases hp
      cases clauses with
      | nil => simp
      | cons c clauses => simp +contextual [hnone]
    | some c =>
      -- `c` is the only clause that is written as `piece`
      have hunique : ∀ d : Clause, (d.WellFormed ∧ d.text.toList = piece) ↔ c = d := by
        intro d
        rw [← Clause.parse?_eq_some_iff, hp, Option.some.injEq]
      cases clauses with
      | nil => cases readClauses pieces <;> simp [Except.map]
      | cons d clauses =>
        have hmap : (readClauses pieces).map (c :: ·) = .ok (d :: clauses) ↔
            c = d ∧ readClauses pieces = .ok clauses := by
          cases readClauses pieces <;> simp [Except.map]
        rw [hmap, ih, ← hunique d]
        simp only [List.forall_mem_cons, List.map_cons, List.cons.injEq]
        refine ⟨fun h => ?_, fun h => ?_⟩
        · obtain ⟨⟨hw, ht⟩, hws, hts⟩ := h
          exact ⟨⟨hw, hws⟩, ht, hts⟩
        · obtain ⟨⟨hw, hws⟩, ht, hts⟩ := h
          exact ⟨⟨hw, ht⟩, hws, hts⟩

theorem readClauses_eq_error_iff {pieces : List (List Char)} {e : Error} :
    readClauses pieces = .error e ↔
      ∃ before piece after, pieces = before ++ piece :: after ∧ (∀ p ∈ before, IsClause p) ∧
        ¬ IsClause piece ∧ e = .configSyntax (String.ofList piece) := by
  induction pieces with
  | nil => simp [readClauses]
  | cons piece pieces ih =>
    rw [readClauses]
    cases hp : Clause.parse? piece with
    | none =>
      have hout : ¬ IsClause piece := by simp [isClause_iff_parse?, hp]
      refine ⟨fun h => ?_, fun h => ?_⟩
      · cases h
        exact ⟨[], piece, pieces, rfl, by simp, hout, rfl⟩
      · obtain ⟨before, piece', after, hpieces, hin, hout', rfl⟩ := h
        cases before with
        | nil =>
          cases hpieces
          rfl
        | cons p before =>
          cases hpieces
          exact absurd (hin _ List.mem_cons_self) hout
    | some c =>
      have hin : IsClause piece := isClause_iff_parse?.2 ⟨c, hp⟩
      have hmap : (readClauses pieces).map (c :: ·) = .error e ↔ readClauses pieces = .error e := by
        cases readClauses pieces <;> simp [Except.map]
      rw [hmap, ih]
      refine ⟨fun h => ?_, fun h => ?_⟩
      · obtain ⟨before, p, after, rfl, hbefore, hout, rfl⟩ := h
        exact ⟨piece :: before, p, after, rfl, by simpa using ⟨hin, hbefore⟩, hout, rfl⟩
      · obtain ⟨before, p, after, hpieces, hbefore, hout, rfl⟩ := h
        cases before with
        | nil =>
          cases hpieces
          exact absurd hin hout
        | cons q before =>
          cases hpieces
          have hbefore' : ∀ x ∈ before, IsClause x := fun x hx =>
            hbefore x (List.mem_cons_of_mem _ hx)
          exact ⟨before, p, after, rfl, hbefore', hout, rfl⟩

/-- The pieces between the commas of a configuration. -/
def pieces (config : String) : List (List Char) := config.toList.splitOn ','

theorem compile_eq_error_iff {config : String} {e : Error} {ds : List Diagnostic} :
    compile config = (.error e, ds) ↔ ds = [] ∧ readClauses (pieces config) = .error e := by
  unfold compile parse pieces
  cases readClauses (config.toList.splitOn ',') <;> simp [eq_comm, and_comm]

theorem exists_compile_eq_ok_iff {config : String} :
    (∃ t, (compile config).1 = .ok t) ↔ ∃ clauses, readClauses (pieces config) = .ok clauses := by
  unfold compile parse pieces
  cases readClauses (config.toList.splitOn ',') <;> simp

theorem exists_readClauses_eq_ok_iff {pieces : List (List Char)} :
    (∃ clauses, readClauses pieces = .ok clauses) ↔ ∀ p ∈ pieces, IsClause p := by
  refine ⟨fun h p hp => ?_, fun h => ?_⟩
  · obtain ⟨clauses, hread⟩ := h
    obtain ⟨hw, rfl⟩ := readClauses_eq_ok_iff.1 hread
    obtain ⟨c, hc, rfl⟩ := List.mem_map.1 hp
    exact isClause_iff.2 ⟨c, hw c hc, rfl⟩
  · cases hread : readClauses pieces with
    | ok clauses => exact ⟨clauses, rfl⟩
    | error e =>
      obtain ⟨before, piece, after, rfl, -, hout, -⟩ := readClauses_eq_error_iff.1 hread
      exact absurd (h piece (by simp)) hout

/-- **Compiling accepts exactly the grammar.** A configuration compiles if every piece between its
commas is a clause; if not, the error names the leftmost piece that is none, and nothing has been
reported. -/
theorem compile_iff_grammar (config : String) :
    ((∃ t, (compile config).1 = .ok t) ↔ ∀ p ∈ pieces config, IsClause p) ∧
    ∀ e ds, compile config = (.error e, ds) ↔
      ds = [] ∧ ∃ before piece after, pieces config = before ++ piece :: after ∧
        (∀ p ∈ before, IsClause p) ∧ ¬ IsClause piece ∧
        e = .configSyntax (String.ofList piece) := by
  refine ⟨?_, fun e ds => ?_⟩
  · rw [exists_compile_eq_ok_iff, exists_readClauses_eq_ok_iff]
  · rw [compile_eq_error_iff, readClauses_eq_error_iff]

end BinaryLog.Config
