import ClassText.Type.Descriptor
import ClassText.Type.Parser

/-!
# Field and class descriptors are read by exactly their grammar

`readType_iff`: a text is read as a type and a rest if and only if the type is one that
fields can have and the text is its descriptor before that rest. `ofDescriptor_iff` says
the same of whole texts, for fields and for classes.
-/

namespace ClassText

def GoodName (name : String) : Prop :=
  name ≠ "" ∧ ∀ c ∈ name.toList, Descriptor.endsName c = false

/-- The types of fields: all but void and methods, and no variable with bounds. -/
inductive ValueType.IsField : ValueType → Prop
  | primitive (kind : Primitive) : IsField (.primitive kind)
  | array (helement : IsField element) : IsField (.array element)
  | object (hname : GoodName internal) : IsField (.object ⟨internal⟩)
  | typeVariable (hname : GoodName name) : IsField (.typeVariable (.mk name []))

namespace Descriptor

theorem map_ok {x : Except ε α} {f : α → β} : x.map f = .ok b ↔ ∃ a, x = .ok a ∧ f a = b := by
  cases x <;> simp [Except.map]

theorem bind_ok {x : Except ε α} {f : α → Except ε β} :
    x >>= f = .ok b ↔ ∃ a, x = .ok a ∧ f a = .ok b := by
  cases x <;> simp [bind, Except.bind]

theorem toOption_eq_some {x : Except ε α} : x.toOption = some a ↔ x = .ok a := by
  cases x <;> simp [Except.toOption]

-- ---------------------------------------------------------------------------
-- Characters and names
-- ---------------------------------------------------------------------------

theorem expect_ok : expect c text = .ok rest ↔ text = c :: rest := by
  unfold expect
  split
  · simp
  · split
    · rename_i h
      simp [h]
    · rename_i h
      simp [h]

theorem readName_iff : readName text = .ok (name, rest) ↔
    GoodName name ∧ text = name.toList ++ ';' :: rest := by
  constructor
  · intro h
    have hsplit := List.takeWhile_append_dropWhile (p := (!endsName ·)) (l := text)
    have hall : ∀ c ∈ text.takeWhile (!endsName ·), (!endsName c) = true :=
      List.all_eq_true.mp List.all_takeWhile
    simp only [readName] at h
    split at h
    · simp at h
    · rename_i c after hdrop
      split at h
      · simp at h
      split at h
      · rename_i hne hc
        simp only [Except.ok.injEq, Prod.mk.injEq] at h
        obtain ⟨rfl, rfl⟩ := h
        refine ⟨⟨fun hnil => hne ?_, fun c hc => ?_⟩, ?_⟩
        · simp [String.ofList_eq_empty_iff] at hnil
          simp [hnil]
        · simpa using hall c (by simpa using hc)
        · rw [String.toList_ofList, ← hc, ← hdrop, hsplit]
      · simp at h
  · rintro ⟨⟨hne, hname⟩, rfl⟩
    have hp : ∀ c ∈ name.toList, (!endsName c) = true := fun c hc => by simp [hname c hc]
    have hend : endsName ';' = true := by decide
    simp [readName, List.takeWhile_append_of_pos hp, List.dropWhile_append_of_pos hp, hend, hne]

-- ---------------------------------------------------------------------------
-- Types
-- ---------------------------------------------------------------------------

theorem readType_ok (h : readType text = .ok (t, rest)) :
    t.IsField ∧ text = t.descriptor.toList ++ rest := by
  fun_induction readType text generalizing t with
  | case1 | case13 => simp at h
  | case2 | case3 | case4 | case5 | case6 | case7 | case8 | case9 =>
    simp only [Except.ok.injEq, Prod.mk.injEq] at h
    obtain ⟨rfl, rfl⟩ := h
    exact ⟨.primitive _, by simp [ValueType.descriptor, Primitive.letter]⟩
  | case10 more ih =>
    obtain ⟨⟨element, after⟩, hr, h⟩ := map_ok.mp h
    simp only [Prod.mk.injEq] at h
    obtain ⟨rfl, rfl⟩ := h
    obtain ⟨helement, rfl⟩ := ih hr
    exact ⟨.array helement, by simp [ValueType.descriptor]⟩
  | case11 more =>
    obtain ⟨⟨name, after⟩, hr, h⟩ := map_ok.mp h
    simp only [Prod.mk.injEq] at h
    obtain ⟨rfl, rfl⟩ := h
    obtain ⟨hname, rfl⟩ := readName_iff.mp hr
    exact ⟨.object hname, by simp [ValueType.descriptor]⟩
  | case12 more =>
    obtain ⟨⟨name, after⟩, hr, h⟩ := map_ok.mp h
    simp only [Prod.mk.injEq] at h
    obtain ⟨rfl, rfl⟩ := h
    obtain ⟨hname, rfl⟩ := readName_iff.mp hr
    exact ⟨.typeVariable hname, by simp [ValueType.descriptor]⟩

theorem readType_descriptor (h : t.IsField) (rest : List Char) :
    readType (t.descriptor.toList ++ rest) = .ok (t, rest) := by
  induction h with
  | primitive kind => cases kind <;> simp [ValueType.descriptor, Primitive.letter, readType]
  | array _ ih => simp [ValueType.descriptor, readType, ih, Except.map]
  | object hname =>
    simp [ValueType.descriptor, readType, readName_iff.mpr ⟨hname, rfl⟩, Except.map]
  | typeVariable hname =>
    simp [ValueType.descriptor, readType, readName_iff.mpr ⟨hname, rfl⟩, Except.map]

theorem readType_iff : readType text = .ok (t, rest) ↔
    t.IsField ∧ text = t.descriptor.toList ++ rest := by
  constructor
  · exact readType_ok
  · rintro ⟨ht, rfl⟩
    exact readType_descriptor ht rest

-- ---------------------------------------------------------------------------
-- Whole texts
-- ---------------------------------------------------------------------------

theorem whole_ok {read : List Char → Reading α} :
    whole read source = .ok a ↔ read source.toList = .ok (a, []) := by
  simp only [whole]
  split
  · rename_i h; simp [h]
  · rename_i h; simp [h]
  · rename_i b rest hne h
    simp only [h, reduceCtorEq, Except.ok.injEq, Prod.mk.injEq, false_iff, not_and]
    exact fun _ => hne

end Descriptor

open Descriptor

theorem ValueType.ofDescriptor_iff :
    ValueType.ofDescriptor source = .ok t ↔ t.IsField ∧ source = t.descriptor := by
  rw [ofDescriptor, whole_ok, readType_iff, List.append_nil, String.toList_inj]

theorem ClassName.ofDescriptor_iff : ClassName.ofDescriptor source = .ok name ↔
    GoodName name.internal ∧ source = "L" ++ name.internal ++ ";" := by
  rw [ofDescriptor, whole_ok]
  constructor
  · intro h
    simp only [readClass, bind_ok, expect_ok, Prod.exists] at h
    obtain ⟨text, htext, internal, rest, hname, h⟩ := h
    simp only [Except.ok.injEq, Prod.mk.injEq] at h
    obtain ⟨rfl, rfl⟩ := h
    obtain ⟨hgood, rfl⟩ := readName_iff.mp hname
    refine ⟨hgood, String.toList_inj.mp ?_⟩
    simp [htext]
  · rintro ⟨hgood, rfl⟩
    simp only [readClass, bind_ok, expect_ok, Prod.exists]
    exact ⟨_, by simp; rfl, name.internal, [], readName_iff.mpr ⟨hgood, by simp⟩, rfl⟩

end ClassText
