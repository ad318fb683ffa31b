import BinaryLog.Proofs.Config.CountsDecide
import BinaryLog.Proofs.Config.Reproduction

/-!
# A selector and the text of limits

The text of limits behind a selector is a configuration, whatever the limits. If counts can ask for
them, the clause puts them in force; if not, it is dropped for the count that is too great.

* `limits_optionsOf_of_lt`: of limits that are too great, the first is reported.
* `compile_clause`: a single clause as a configuration.
* `text_injective`: different limits have different texts.
* `limits_text_is_configuration`: these together.
-/

namespace BinaryLog.Config

/-- A selector as it can stand in a configuration, where a comma ends a clause. -/
def IsSelectorText (text : String) : Prop := IsSelector text.toList ∧ ',' ∉ text.toList

/-! ## Limits that are too great -/

theorem limitOf_countOf_of_lt {limit : Nat} (h : Limits.noLimit < limit) :
    limitOf (countOf limit) = .error (.tooLarge (toString limit)) := by
  have hlimit : limit ≠ Limits.noLimit := by omega
  have hnumber : ¬ ((toString limit).toList.isEmpty ||
      !(toString limit).toList.all Char.isDigit) = true := by
    have hne : (toString limit).toList ≠ [] := by
      rw [toList_toString]
      exact Nat.toDigits_ne_nil
    have hdigits : ∀ c ∈ (toString limit).toList, c.isDigit := fun _ => isDigit_of_mem_toString
    simp only [Bool.or_eq_true, List.isEmpty_iff, Bool.not_eq_true', List.all_eq_false, not_or,
      not_exists, not_and, not_not]
    exact ⟨hne, hdigits⟩
  rw [countOf, if_neg hlimit, limitOf, if_neg hnumber, decimalValue_toString, if_pos h]

/-- The limit that is too great, the one for headers if both are. -/
def excess (l : Limits) : Nat :=
  if 2 ^ 31 - 1 < l.headerBytes then l.headerBytes else l.messageBytes

/-- Of limits that are too great, the first is reported. -/
theorem limits_optionsOf_of_lt {l : Limits}
    (h : ¬ (l.headerBytes ≤ 2 ^ 31 - 1 ∧ l.messageBytes ≤ 2 ^ 31 - 1)) :
    (optionsOf l).limits = .error (.tooLarge (toString (excess l))) := by
  by_cases hheaders : l.headerBytes ≤ 2 ^ 31 - 1
  · have hmessages : 2 ^ 31 - 1 < l.messageBytes := by omega
    rw [optionsOf, Options.limits, limitOf_countOf hheaders, limitOf_countOf_of_lt hmessages,
      excess, if_neg (Nat.not_lt.2 hheaders)]
    rfl
  · have hheaders : 2 ^ 31 - 1 < l.headerBytes := Nat.not_le.1 hheaders
    rw [optionsOf, Options.limits, limitOf_countOf_of_lt hheaders, excess, if_pos hheaders]
    rfl

/-! ## A single clause -/

theorem compile_clause {c : Clause} (hw : c.WellFormed) (hcomma : ',' ∉ c.text.toList) :
    compile c.text = (.ok (RuleTable.empty.add c).1, [(RuleTable.empty.add c).2]) := by
  have hpieces : pieces (",".intercalate [c.text]) = [c.text.toList] :=
    pieces_intercalate (List.cons_ne_nil _ _) (by simpa using hcomma)
  refine compile_eq_ok_iff.2 ⟨[c], readClauses_eq_ok_iff.2 ⟨by simpa using hw, ?_⟩, rfl⟩
  simpa [pieces] using hpieces.symm

/-- A selector with the text of limits behind it is a configuration of one clause. -/
theorem compile_selector_text {s : Selector} (hs : s.WellFormed) (hcomma : ',' ∉ s.text.toList)
    (l : Limits) :
    compile (s.text ++ l.text) =
      (.ok (RuleTable.empty.add ⟨s, some (optionsOf l)⟩).1,
        [(RuleTable.empty.add ⟨s, some (optionsOf l)⟩).2]) := by
  have htext : (⟨s, some (optionsOf l)⟩ : Clause).text = s.text ++ l.text := by
    show s.text ++ (optionsOf l).text = _
    rw [text_optionsOf]
  have hw : (⟨s, some (optionsOf l)⟩ : Clause).WellFormed := by
    refine ⟨hs, fun options hoptions => ?_⟩
    cases hoptions
    exact wellFormed_optionsOf
  rw [← htext]
  refine compile_clause hw ?_
  show ',' ∉ (s.text ++ (optionsOf l).text).toList
  rw [String.toList_append, List.mem_append, not_or]
  exact ⟨hcomma, comma_notMem_optionsOf⟩

/-! ## Different limits -/

theorem countOf_injective : Function.Injective countOf := by
  intro a b h
  unfold countOf at h
  split_ifs at h with ha hb
  · rw [ha, hb]
  · have hvalue := congrArg (fun text => decimalValue (String.toList text)) (Option.some.inj h)
    simpa only [decimalValue_toString] using hvalue

/-- **Different limits have different texts.** -/
theorem text_injective : Function.Injective Limits.text := by
  intro l l' h
  have htexts : (optionsOf l).text = (optionsOf l').text := by
    rw [text_optionsOf, text_optionsOf, h]
  have hread := Options.parse?_text (wellFormed_optionsOf (l := l))
  rw [htexts, Options.parse?_text wellFormed_optionsOf, Option.some.injEq, optionsOf, optionsOf,
    Options.both.injEq] at hread
  cases l
  cases l'
  rw [Limits.mk.injEq]
  exact ⟨(countOf_injective hread.1).symm, (countOf_injective hread.2).symm⟩

/-! ## The text of limits as configuration -/

/-- **The text of limits is configuration.** A selector and then the text of any limits is a
configuration that compiles. If both limits are at most `2 ^ 31 - 1`, it puts just these limits in
force for the selector, and nothing is dropped. Else no rule is in force, and the only warning says
of the first limit that is greater that its number is too large. And different limits have different
texts. -/
theorem limits_text_is_configuration {text : String} (h : IsSelectorText text) :
    (∃ s : Selector, s.WellFormed ∧ s.text = text ∧ ∀ l : Limits,
      (l.headerBytes ≤ 2 ^ 31 - 1 ∧ l.messageBytes ≤ 2 ^ 31 - 1 →
        compile (text ++ l.text) = (.ok ⟨[⟨s, l⟩], []⟩, [.bound ⟨s, l⟩])) ∧
      (¬ (l.headerBytes ≤ 2 ^ 31 - 1 ∧ l.messageBytes ≤ 2 ^ 31 - 1) →
        ∃ problem, problem.reason = toString (excess l) ++ " is too large a byte count" ∧
          compile (text ++ l.text) = (.ok ⟨[], [.badCount (text ++ l.text) problem]⟩,
            [.dropped (.badCount (text ++ l.text) problem)]))) ∧
    Function.Injective Limits.text := by
  obtain ⟨hselector, hcomma⟩ := h
  obtain ⟨s, hs, htext⟩ := isSelector_iff.1 hselector
  obtain rfl : s.text = text := String.toList_inj.1 htext
  refine ⟨⟨s, hs, rfl, fun l => ⟨fun hle => ?_, fun hgreat => ?_⟩⟩, text_injective⟩
  · have hlimits : (⟨s, some (optionsOf l)⟩ : Clause).limits = .ok l :=
      limits_optionsOf hle.1 hle.2
    rw [compile_selector_text hs hcomma, RuleTable.add, hlimits]
    rfl
  · have hlimits : (⟨s, some (optionsOf l)⟩ : Clause).limits =
        .error (.tooLarge (toString (excess l))) := limits_optionsOf_of_lt hgreat
    refine ⟨.tooLarge (toString (excess l)), rfl, ?_⟩
    rw [compile_selector_text hs hcomma, RuleTable.add, hlimits]
    simp only [Clause.text, text_optionsOf]
    rfl

/-- Of two texts of limits behind one selector, the second asks for more than counts can. -/
theorem limits_text_is_configuration_of_two :
    let great := "a/b\x7bh:7;m:18446744073709551615\x7d"
    IsSelectorText "a/b" ∧
    (∃ s : Selector, s.text = "a/b" ∧ compile "a/b\x7bh;m:12\x7d" =
      (.ok ⟨[⟨s, ⟨2 ^ 31 - 1, 12⟩⟩], []⟩, [.bound ⟨s, ⟨2 ^ 31 - 1, 12⟩⟩])) ∧
    ∃ problem, problem.reason = "18446744073709551615 is too large a byte count" ∧
      compile great =
        (.ok ⟨[], [.badCount great problem]⟩, [.dropped (.badCount great problem)]) := by
  intro great
  have hselector : IsSelectorText "a/b" := by
    have ha : IsName ['a'] := by simp [IsName]
    have hb : IsName ['b'] := by simp [IsName]
    exact ⟨IsSelector.method ha hb, by decide⟩
  obtain ⟨⟨s, -, hs, hlimits⟩, -⟩ := limits_text_is_configuration hselector
  have hsmall : "a/b" ++ (⟨2 ^ 31 - 1, 12⟩ : Limits).text = "a/b\x7bh;m:12\x7d" := by
    decide +kernel
  have hgreat : "a/b" ++ (⟨7, 2 ^ 64 - 1⟩ : Limits).text = great := by decide +kernel
  have hbound := (hlimits ⟨2 ^ 31 - 1, 12⟩).1 (by decide)
  have hdropped := (hlimits ⟨7, 2 ^ 64 - 1⟩).2 (by decide)
  rw [hsmall] at hbound
  rw [hgreat] at hdropped
  exact ⟨hselector, ⟨s, hs, hbound⟩, hdropped⟩

end BinaryLog.Config
