import ClassText.Proofs.Line.RoundTrip
import ClassText.Proofs.Text.Printable

/-!
# The characters of canonical lines

`text_split`: a canonical line is a printable text, followed by the free token of the
instruction, if it has one. So the line holds a line feed only if that token does
(`newline_not_mem_text`), and it ends in a carriage return only if it is a jump whose target
does (`endsInReturn_of_getLast?`).
-/

namespace ClassText.Instruction

open Descriptor Token

variable {i : Instruction} {t : ValueType} {signature : Signature}

-- ---------------------------------------------------------------------------
-- What is written before the free token
-- ---------------------------------------------------------------------------

theorem isPrintable_arrayPrefix (type : ValueType) : isPrintable type.arrayPrefix = true := by
  unfold ValueType.arrayPrefix
  split <;> decide

theorem isPrintable_localPrefix (type : ValueType) : isPrintable type.localPrefix = true := by
  unfold ValueType.localPrefix
  split
  · decide
  · decide
  · decide
  · decide
  · exact isPrintable_arrayPrefix type

theorem isPrintable_elementPrefix (type : ValueType) :
    isPrintable (elementPrefix type) = true := by
  unfold elementPrefix
  split
  · exact isPrintable_arrayPrefix _
  · exact isPrintable_arrayPrefix type

theorem printable_localText (hstem : printable stem.toList = true) :
    printable (localText stem type slot).toList = true := by
  have htext : (localText stem type slot).toList = type.localPrefix ::
      (stem.toList ++ ((if slot ≤ 3 then ['_'] else [' ']) ++ natText slot.toNat)) := by
    unfold localText
    split <;> simp
  have hmark : printable (if slot ≤ 3 then ['_'] else [' ']) = true := by
    split <;> decide
  rw [htext]
  simp only [printable_cons, printable_append, isPrintable_localPrefix, hstem, hmark,
    printable_natText, Bool.and_self]

theorem printable_intText_concat (hstem : printable stem.toList = true) :
    printable (stem ++ String.ofList (ClassText.intText n)).toList = true :=
  printable_concat hstem (printable_ofList printable_intText)

theorem printable_operandText (value : Single) : printable value.operandText.toList = true := by
  by_cases hfinite : value.isFinite = true
  · obtain ⟨-, hchars⟩ := Single.operandText_chars hfinite
    exact printable_of_isDecimalChar hchars
  · unfold Single.operandText
    rw [if_neg hfinite]
    split
    · decide
    · split <;> decide

theorem printable_literal (h : (push value).freeToken = none) :
    printable value.text.toList = true := by
  cases value with
  | int value =>
    simp only [Literal.text, Literal.intText]
    split
    · decide
    split
    · exact printable_intText_concat (by decide)
    split
    · exact printable_intText_concat (by decide)
    · exact printable_intText_concat (by decide)
  | long value =>
    simp only [Literal.text, Literal.longText]
    split
    · exact printable_intText_concat (by decide)
    · exact printable_intText_concat (by decide)
  | float value => exact printable_concat (by decide) (printable_operandText value)
  | string value => simp [freeToken] at h

theorem printable_invoke (mode : InvokeMode) : printable (mode.mnemonic ++ " ").toList = true := by
  cases mode <;> decide

theorem printable_field (scope : FieldScope) :
    printable (getMnemonic scope ++ " ").toList = true ∧
      printable (putMnemonic scope ++ " ").toList = true := by
  cases scope <;> decide

/-- A canonical line ends in the free token of its instruction. -/
theorem text_split (i : Instruction) : ∃ before, printable before = true ∧
    i.text.toList = before ++ i.freeToken.getD [] := by
  cases i with
  | load slot type =>
    exact ⟨_, printable_localText (by decide), (List.append_nil _).symm⟩
  | store slot type =>
    exact ⟨_, printable_localText (by decide), (List.append_nil _).symm⟩
  | arrayLoad type =>
    refine ⟨elementPrefix type :: "aload".toList, ?_, by simp [text, freeToken]⟩
    rw [printable_cons, isPrintable_elementPrefix]
    decide
  | arrayStore type =>
    refine ⟨elementPrefix type :: "astore".toList, ?_, by simp [text, freeToken]⟩
    rw [printable_cons, isPrintable_elementPrefix]
    decide
  | invoke mode owner name signature =>
    exact ⟨_, printable_invoke mode, by simp [text, freeToken]⟩
  | leave type =>
    cases type with
    | none => exact ⟨"return".toList, by decide, (List.append_nil _).symm⟩
    | some type =>
      refine ⟨type.localPrefix :: "return".toList, ?_, by simp [text, freeToken]⟩
      rw [printable_cons, isPrintable_localPrefix]
      decide
  | getField scope owner name type =>
    exact ⟨_, (printable_field scope).1, by simp [getField_text, freeToken]⟩
  | putField scope owner name type =>
    exact ⟨_, (printable_field scope).2, by simp [putField_text, freeToken]⟩
  | push value =>
    cases hfree : (push value).freeToken with
    | none => exact ⟨_, printable_literal hfree, (List.append_nil _).symm⟩
    | some cs =>
      cases value with
      | string value =>
        cases hfree
        exact ⟨"ldc ".toList, by decide, by simp [text, Literal.text]⟩
      | _ => simp [freeToken] at hfree
  | goto target => exact ⟨"goto ".toList, by decide, by simp [text, freeToken]⟩
  | label name => exact ⟨[], by decide, by simp [text, freeToken]⟩

-- ---------------------------------------------------------------------------
-- Line ends
-- ---------------------------------------------------------------------------

theorem newline_not_mem_text (h : ∀ cs, i.freeToken = some cs → '\n' ∉ cs) :
    '\n' ∉ i.text.toList := by
  obtain ⟨before, hbefore, htext⟩ := text_split i
  intro hmem
  rw [htext] at hmem
  rcases List.mem_append.mp hmem with hmem | hmem
  · exact not_mem_of_printable hbefore (by decide) hmem
  · cases hfree : i.freeToken with
    | none => simp [hfree] at hmem
    | some cs =>
      rw [hfree] at hmem
      exact h cs hfree hmem

theorem field_descriptor_last (h : t.IsField) :
    ∃ c, t.descriptor.toList.getLast? = some c ∧ isBlank c = false := by
  induction h with
  | primitive kind => cases kind <;> exact ⟨_, rfl, by decide⟩
  | array helement ih =>
    obtain ⟨c, hc, hblank⟩ := ih
    refine ⟨c, ?_, hblank⟩
    rw [ValueType.descriptor, String.toList_append, List.getLast?_append, hc]
    rfl
  | object hname => exact ⟨';', by simp [ValueType.descriptor, List.getLast?_cons], by decide⟩
  | typeVariable hname => exact ⟨';', by simp [ValueType.descriptor, List.getLast?_cons], by decide⟩

theorem method_descriptor_last (h : signature.IsMethod) :
    ∃ c, signature.descriptor.toList.getLast? = some c ∧ isBlank c = false := by
  have hresult : ∃ c, signature.result.descriptor.toList.getLast? = some c ∧ isBlank c = false := by
    rcases h.result with hvoid | hfield
    · rw [hvoid]
      exact ⟨'V', rfl, by decide⟩
    · exact field_descriptor_last hfield
  obtain ⟨c, hc, hblank⟩ := hresult
  refine ⟨c, ?_, hblank⟩
  rw [toList_descriptor]
  simp [List.getLast?_append, List.getLast?_cons, hc]

def EndsInReturn : Instruction → Prop
  | .goto target => target.toList.getLast? = some '\r'
  | _ => False

theorem endsInReturn_of_freeToken (h : i.WellFormed) (hfree : i.freeToken = some cs)
    (hlast : cs.getLast? = some '\r') : i.EndsInReturn := by
  have hmember : ∀ {owner name descriptor c}, descriptor.toList.getLast? = some c →
      isBlank c = false → (memberText owner name descriptor).toList.getLast? ≠ some '\r' := by
    intro owner name descriptor c hc hblank heq
    rw [memberText_toList] at heq
    simp only [List.getLast?_append, List.getLast?_cons, hc, Option.getD_some, Option.some_or,
      Option.some.injEq] at heq
    rw [heq] at hblank
    exact absurd hblank (by decide)
  cases i with
  | invoke mode owner name signature =>
    obtain ⟨c, hc, hblank⟩ := method_descriptor_last h.2
    cases hfree
    exact absurd hlast (hmember hc hblank)
  | getField scope owner name type =>
    obtain ⟨c, hc, hblank⟩ := field_descriptor_last h.2
    cases hfree
    exact absurd hlast (hmember hc hblank)
  | putField scope owner name type =>
    obtain ⟨c, hc, hblank⟩ := field_descriptor_last h.2
    cases hfree
    exact absurd hlast (hmember hc hblank)
  | push value =>
    cases value with
    | string value =>
      cases hfree
      simp [List.getLast?_cons] at hlast
    | _ => simp [freeToken] at hfree
  | goto target =>
    cases hfree
    exact hlast
  | label name =>
    cases hfree
    simp at hlast
  | _ => simp [freeToken] at hfree

theorem endsInReturn_of_getLast? (h : i.Readable) (hlast : i.text.toList.getLast? = some '\r') :
    i.EndsInReturn := by
  obtain ⟨before, hbefore, htext⟩ := text_split i
  rw [htext] at hlast
  cases hfree : i.freeToken with
  | none =>
    rw [hfree, Option.getD_none, List.append_nil] at hlast
    exact absurd (List.mem_of_getLast? hlast)
      (not_mem_of_printable hbefore (by decide))
  | some cs =>
    obtain ⟨hne, -⟩ := h.whole cs hfree
    obtain ⟨c, hc⟩ := Option.ne_none_iff_exists'.mp (mt List.getLast?_eq_none_iff.mp hne)
    rw [hfree, Option.getD_some, List.getLast?_append, hc, Option.some_or] at hlast
    exact endsInReturn_of_freeToken h.wellFormed hfree (hc.trans hlast)

end ClassText.Instruction
