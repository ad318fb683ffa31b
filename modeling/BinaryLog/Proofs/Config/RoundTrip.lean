import BinaryLog.Config.Clause
import Mathlib.Data.List.TakeWhile

/-!
# Reading a clause undoes writing it

The readers of `BinaryLog.Config` against the printers: `Selector.parse?_eq_some_iff`,
`Options.parse?_eq_some_iff` and `Clause.parse?_eq_some_iff` say that a text is read as a value
exactly if the value can be written (`WellFormed`) and the text is how it is written. So a clause
has one text, and what is read keeps every character of it.

* `takeWhile_append_stop`, `dropWhile_append_stop`: where a run of characters ends.
* `readCount_text`: a count takes all that may stand in one.
-/

namespace BinaryLog.Config

/-! ## Runs of characters -/

section
variable {p : Char → Bool} {s rest : List Char}

/-- A run of characters ends at the first one that cannot be in it. -/
theorem takeWhile_append_stop (hs : ∀ c ∈ s, p c) (hr : ∀ c ∈ rest.head?, p c = false) :
    (s ++ rest).takeWhile p = s := by
  rw [List.takeWhile_append_of_pos hs]
  cases rest with
  | nil => simp
  | cons c rest => simp [hr c rfl]

theorem dropWhile_append_stop (hs : ∀ c ∈ s, p c) (hr : ∀ c ∈ rest.head?, p c = false) :
    (s ++ rest).dropWhile p = rest := by
  rw [List.dropWhile_append_of_pos hs]
  cases rest with
  | nil => rfl
  | cons c rest => simp [hr c rfl]

/-- A text whose run of characters ends where `rest` begins is the run and `rest`. -/
theorem eq_append_of_dropWhile {text : List Char} (h : text.dropWhile p = rest) :
    text = text.takeWhile p ++ rest ∧ ∀ c ∈ text.takeWhile p, p c :=
  ⟨by rw [← h, List.takeWhile_append_dropWhile], fun _ hc => List.mem_takeWhile_imp hc⟩

end

/-! ## Selectors -/

theorem exists_cons_of_ne_empty {s : String} (h : s ≠ "") : ∃ c cs, s.toList = c :: cs :=
  List.exists_cons_of_ne_nil (by simpa using h)

theorem Selector.parse?_text {s : Selector} (h : s.WellFormed) :
    Selector.parse? s.text.toList = some s := by
  cases s with
  | all => rfl
  | service name =>
    obtain ⟨hne, hname⟩ := h
    obtain ⟨c, cs, hcs⟩ := exists_cons_of_ne_empty hne
    have htext : (service name).text.toList = name.toList ++ ['/', '*'] := by simp [text]
    unfold parse?
    rw [htext, takeWhile_append_stop hname (by simp [isNameChar]),
      dropWhile_append_stop hname (by simp [isNameChar]), if_neg (by simp [hcs])]
    simp only [hcs]
    rw [← hcs, String.ofList_toList]
  | method ofService name =>
    obtain ⟨⟨hne, hservice⟩, hne', hname⟩ := h
    obtain ⟨c, cs, hcs⟩ := exists_cons_of_ne_empty hne
    obtain ⟨d, ds, hds⟩ := exists_cons_of_ne_empty hne'
    have htext : (method ofService name).text.toList = ofService.toList ++ '/' :: name.toList := by
      simp [text]
    have hstar : d ≠ '*' := by
      intro heq
      subst heq
      exact absurd (hname '*' (by simp [hds])) (by decide)
    have hall : (d :: ds).all isNameChar = true := by
      rw [← hds, List.all_eq_true]
      exact hname
    unfold parse?
    rw [htext, takeWhile_append_stop hservice (by simp [isNameChar]),
      dropWhile_append_stop hservice (by simp [isNameChar]), if_neg (by simp [hcs])]
    simp only [hcs, hds]
    split
    · contradiction
    · rename_i hrest _
      simp [hstar] at hrest
    · rename_i hrest _
      simp only [List.cons.injEq, true_and] at hrest
      obtain ⟨rfl, rfl⟩ := hrest
      rw [if_pos hall, ← hcs, ← hds, String.ofList_toList, String.ofList_toList]
    · rename_i hrest
      exact absurd rfl (hrest d ds)

theorem Selector.wellFormed_of_parse? {text : List Char} {s : Selector}
    (h : Selector.parse? text = some s) : s.WellFormed ∧ s.text.toList = text := by
  unfold Selector.parse? at h
  split at h
  · rename_i htext
    cases h
    exact ⟨trivial, htext.symm⟩
  · generalize hrun : text.takeWhile isNameChar = run at h
    generalize hrest : text.dropWhile isNameChar = rest at h
    obtain ⟨htext, hname⟩ := eq_append_of_dropWhile hrest
    rw [hrun] at htext hname
    split at h
    · cases h
    · rename_i hne
      cases h
      exact ⟨⟨by simpa using hne, by simpa using hname⟩, by simp [Selector.text, htext]⟩
    · rename_i t ts _ hne
      split at h
      · rename_i hall
        cases h
        rw [List.all_eq_true] at hall
        exact ⟨⟨⟨by simpa using hne, by simpa using hname⟩, by simp, by simpa using hall⟩,
          by simp [Selector.text, htext]⟩
      · cases h
    · cases h

theorem Selector.parse?_eq_some_iff {text : List Char} {s : Selector} :
    Selector.parse? text = some s ↔ s.WellFormed ∧ s.text.toList = text := by
  refine ⟨wellFormed_of_parse?, fun h => ?_⟩
  obtain ⟨h, rfl⟩ := h
  exact parse?_text h

/-! ## Option blocks -/

/-- The counts that can be written. -/
def WritableCount (count : Option String) : Prop :=
  ∀ text ∈ count, ∀ c ∈ text.toList, isCountChar c

/-- A count is read to its end: what follows starts with a semicolon or a brace. -/
theorem readCount_text {count : Option String} {c : Char} (h : WritableCount count)
    (hc : isCountChar c = false) (rest : List Char) :
    readCount ((countText count).toList ++ c :: rest) = (count, c :: rest) := by
  cases count with
  | none =>
    have hcolon : c ≠ ':' := by
      intro heq
      subst heq
      exact absurd hc (by decide)
    simp only [countText, String.toList_empty, List.nil_append]
    unfold readCount
    split
    · rename_i heq
      cases heq
      exact absurd rfl hcolon
    · rfl
  | some text =>
    have htext : (countText (some text)).toList ++ c :: rest =
        ':' :: (text.toList ++ c :: rest) := by
      simp [countText]
    have hstop : ∀ d ∈ (c :: rest).head?, isCountChar d = false := by simpa using hc
    rw [htext, readCount, takeWhile_append_stop (h text rfl) hstop,
      dropWhile_append_stop (h text rfl) hstop, String.ofList_toList]

theorem writable_of_readCount {text rest : List Char} {count : Option String}
    (h : readCount text = (count, rest)) :
    WritableCount count ∧ (countText count).toList ++ rest = text := by
  unfold readCount at h
  split at h
  · rename_i rest'
    simp only [Prod.mk.injEq] at h
    obtain ⟨rfl, hrest⟩ := h
    obtain ⟨htext, hcount⟩ := eq_append_of_dropWhile hrest
    refine ⟨?_, by simp [countText, ← htext]⟩
    intro text htext
    cases htext
    simpa using hcount
  · cases h
    exact ⟨by simp [WritableCount], rfl⟩

namespace Options

@[simp] theorem wellFormed_headers {h : Option String} :
    (headers h).WellFormed ↔ WritableCount h := by
  simp [WellFormed, counts, WritableCount]

@[simp] theorem wellFormed_messages {m : Option String} :
    (messages m).WellFormed ↔ WritableCount m := by
  simp [WellFormed, counts, WritableCount]

@[simp] theorem wellFormed_both {h m : Option String} :
    (both h m).WellFormed ↔ WritableCount h ∧ WritableCount m := by
  simp [WellFormed, counts, WritableCount, or_imp, forall_and]

theorem parse?_text {o : Options} (h : o.WellFormed) : parse? o.text.toList = some o := by
  cases o with
  | headers count =>
    rw [wellFormed_headers] at h
    simp [text, parse?, readCount_text h (c := '\x7d') rfl []]
  | messages count =>
    rw [wellFormed_messages] at h
    simp [text, parse?, readCount_text h (c := '\x7d') rfl []]
  | both h m =>
    rw [wellFormed_both] at h
    obtain ⟨hh, hm⟩ := h
    simp [text, parse?, readCount_text hh (c := ';') rfl,
      readCount_text hm (c := '\x7d') rfl []]

theorem wellFormed_of_parse? {text : List Char} {o : Options} (h : parse? text = some o) :
    o.WellFormed ∧ o.text.toList = text := by
  unfold parse? at h
  split at h
  · split at h
    · rename_i hread
      cases h
      obtain ⟨hcount, hrest⟩ := writable_of_readCount hread
      exact ⟨wellFormed_headers.2 hcount, by simp [Options.text, hrest]⟩
    · rename_i hread
      obtain ⟨hcount, hrest⟩ := writable_of_readCount hread
      split at h
      · rename_i hread'
        cases h
        obtain ⟨hcount', hrest'⟩ := writable_of_readCount hread'
        exact ⟨wellFormed_both.2 ⟨hcount, hcount'⟩, by simp [Options.text, ← hrest, ← hrest']⟩
      · cases h
    · cases h
  · split at h
    · rename_i hread
      cases h
      obtain ⟨hcount, hrest⟩ := writable_of_readCount hread
      exact ⟨wellFormed_messages.2 hcount, by simp [Options.text, hrest]⟩
    · cases h
  · cases h

theorem parse?_eq_some_iff {text : List Char} {o : Options} :
    parse? text = some o ↔ o.WellFormed ∧ o.text.toList = text := by
  refine ⟨wellFormed_of_parse?, fun h => ?_⟩
  obtain ⟨h, rfl⟩ := h
  exact parse?_text h

end Options

/-! ## Clauses -/

/-- A selector has no opening brace, so a clause's block begins at its first one. -/
theorem Selector.not_brace_of_mem_text {s : Selector} (h : s.WellFormed) :
    ∀ c ∈ s.text.toList, (c != '\x7b') = true := by
  have hname : ∀ {name : String}, (∀ c ∈ name.toList, isNameChar c) →
      ∀ c ∈ name.toList, (c != '\x7b') = true := by
    intro name hn c hc
    have := hn c hc
    simp only [isNameChar, Bool.and_eq_true] at this
    exact this.1.2
  intro c hc
  cases s with
  | all =>
    simp [text] at hc
    simp [hc]
  | service name =>
    simp only [text, String.toList_append, List.mem_append] at hc
    rcases hc with hc | hc
    · exact hname h.2 c hc
    · obtain rfl | rfl : c = '/' ∨ c = '*' := by simpa using hc
      · rfl
      · rfl
  | method ofService name =>
    simp only [text, String.toList_append, List.mem_append] at hc
    rcases hc with (hc | hc) | hc
    · exact hname h.1.2 c hc
    · obtain rfl := List.mem_singleton.1 hc
      rfl
    · exact hname h.2.2 c hc

theorem Options.text_eq_cons (o : Options) : ∃ rest, o.text.toList = '\x7b' :: rest := by
  cases o <;> simp [Options.text]

namespace Clause

theorem parse?_text {c : Clause} (h : c.WellFormed) : parse? c.text.toList = some c := by
  obtain ⟨selector, options⟩ := c
  obtain ⟨hselector, hoptions⟩ := h
  have hbrace := Selector.not_brace_of_mem_text hselector
  cases options with
  | none =>
    simp [parse?, text, List.takeWhile_eq_self_iff.2 hbrace, List.dropWhile_eq_nil_iff.2 hbrace,
      Selector.parse?_text hselector]
  | some options =>
    obtain ⟨rest, hrest⟩ := options.text_eq_cons
    have hstop : ∀ d ∈ options.text.toList.head?, (d != '\x7b') = false := by simp [hrest]
    have hread := Options.parse?_text (hoptions options rfl)
    simp only [parse?, text, String.toList_append, takeWhile_append_stop hbrace hstop,
      dropWhile_append_stop hbrace hstop, Selector.parse?_text hselector]
    rw [hrest] at hread ⊢
    simp [hread]

theorem wellFormed_of_parse? {text : List Char} {c : Clause} (h : parse? text = some c) :
    c.WellFormed ∧ c.text.toList = text := by
  unfold parse? at h
  generalize hblock : text.dropWhile (· != '\x7b') = block at h
  obtain ⟨htext, -⟩ := eq_append_of_dropWhile hblock
  simp only [Option.bind_eq_bind, Option.bind_eq_some_iff] at h
  obtain ⟨selector, hselector, h⟩ := h
  obtain ⟨hw, hs⟩ := Selector.wellFormed_of_parse? hselector
  rw [← hs] at htext
  split at h
  · cases h
    exact ⟨⟨hw, by simp⟩, by simp [Clause.text, htext]⟩
  · rw [Option.map_eq_some_iff] at h
    obtain ⟨options, hoptions, rfl⟩ := h
    obtain ⟨hwo, hso⟩ := Options.wellFormed_of_parse? hoptions
    exact ⟨⟨hw, by simpa using hwo⟩, by simp [Clause.text, htext, hso]⟩

/-- **A clause is read from the one text that is how it is written.** -/
theorem parse?_eq_some_iff {text : List Char} {c : Clause} :
    parse? text = some c ↔ c.WellFormed ∧ c.text.toList = text := by
  refine ⟨wellFormed_of_parse?, fun h => ?_⟩
  obtain ⟨h, rfl⟩ := h
  exact parse?_text h

/-- A text is how one clause is written at most. -/
theorem eq_of_text_eq {c c' : Clause} (hc : c.WellFormed) (hc' : c'.WellFormed)
    (h : c.text.toList = c'.text.toList) : c = c' := by
  have hread := parse?_text hc
  rw [h, parse?_text hc'] at hread
  exact (Option.some.inj hread).symm

end Clause

end BinaryLog.Config
