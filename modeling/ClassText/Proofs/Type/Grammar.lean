import ClassText.Proofs.Type.Signature

/-!
# Descriptors are read by exactly their grammar

`descriptor_grammar`: the texts that are read as field types, as classes and as methods without
type parameters are the printed forms of those types, classes and methods, and of nothing else.
A run of printed parameters can be cut into types in one way only.
-/

namespace ClassText

namespace Descriptor

variable {s : Signature}

theorem goodName_iff : GoodName name ↔
    name ≠ "" ∧ ∀ c ∈ name.toList, c ∉ [';', '<', '.', '[', ':', '(', ')'] := by
  simp [GoodName, endsName, and_assoc]

/-- Printed types are cut at one place each, as none of them starts with a parenthesis. -/
theorem descriptors_append_inj (hts : ∀ t ∈ ts, t.IsField) (hus : ∀ u ∈ us, u.IsField)
    (h : (descriptors ts).toList ++ ')' :: a = (descriptors us).toList ++ ')' :: b) :
    ts = us ∧ a = b := by
  have hleft : readTypes ((descriptors ts).toList ++ ')' :: a) = .ok (ts, ')' :: a) :=
    readTypes_iff.mpr ⟨hts, rfl, rfl⟩
  have hright : readTypes ((descriptors us).toList ++ ')' :: b) = .ok (us, ')' :: b) :=
    readTypes_iff.mpr ⟨hus, rfl, rfl⟩
  rw [h, hright] at hleft
  cases hleft
  exact ⟨rfl, rfl⟩

theorem readTypeParameters_plain (h : text.head? ≠ some '<') :
    readTypeParameters text = .ok ([], text) := by
  unfold readTypeParameters
  split
  · simp at h
  · rfl

theorem readSignature_plain_iff (hplain : text.head? ≠ some '<') :
    readSignature text = .ok (s, rest) ↔
      s.typeParameters = [] ∧ s.IsMethod ∧ text = s.descriptor.toList ++ rest := by
  obtain ⟨vs, ts, t⟩ := s
  simp only [readSignature, readTypeParameters_plain hplain, bind_ok, expect_ok, Prod.exists,
    readTypes_iff, readResult_iff, toList_descriptor]
  constructor
  · rintro ⟨_, _, ⟨⟩, _, rfl, us, _, ⟨hus, rfl, -⟩, _, rfl, u, _, ⟨hu, rfl⟩, ⟨⟩⟩
    refine ⟨rfl, ⟨trivial, hus, hu⟩, ?_⟩
    simp [Signature.typeParameters, Signature.parameters, Signature.result, typeParametersText]
  · rintro ⟨hvs, ⟨-, hts, ht⟩, rfl⟩
    obtain rfl : vs = [] := hvs
    refine ⟨[], _, rfl, _, ?_, ts, _, ⟨hts, rfl, rfl⟩, _, rfl, t, rest, ⟨ht, rfl⟩, rfl⟩
    simp [Signature.typeParameters, Signature.parameters, Signature.result, typeParametersText]

end Descriptor

open Descriptor

theorem Signature.ofDescriptor_plain_iff (hplain : source.toList.head? ≠ some '<') :
    Signature.ofDescriptor source = .ok s ↔
      s.typeParameters = [] ∧ s.IsMethod ∧ source = s.descriptor := by
  rw [ofDescriptor, whole_ok, readSignature_plain_iff hplain, List.append_nil, String.toList_inj]

/-- The grammar of names, field types, classes and methods without type parameters: reading and
printing undo each other, and no text has two readings. -/
theorem descriptor_grammar :
    (∀ name, GoodName name ↔
      name ≠ "" ∧ ∀ c ∈ name.toList, c ∉ [';', '<', '.', '[', ':', '(', ')']) ∧
    (∀ source t, ValueType.ofDescriptor source = .ok t ↔ t.IsField ∧ t.descriptor = source) ∧
    (∀ source name, ClassName.ofDescriptor source = .ok name ↔
      GoodName name.internal ∧ source = "L" ++ name.internal ++ ";") ∧
    (∀ source s, source.toList.head? ≠ some '<' →
      (Signature.ofDescriptor source = .ok s ↔
        s.typeParameters = [] ∧ (∀ t ∈ s.parameters, t.IsField) ∧
          (s.result = .void ∨ s.result.IsField) ∧ s.descriptor = source)) ∧
    ∀ ts us, (∀ t ∈ ts, ValueType.IsField t) → (∀ u ∈ us, ValueType.IsField u) →
      descriptors ts = descriptors us → ts = us := by
  refine ⟨fun name => goodName_iff, fun source t => ?_, fun source name =>
    ClassName.ofDescriptor_iff, fun source s hplain => ?_, fun ts us hts hus h => ?_⟩
  · rw [ValueType.ofDescriptor_iff, eq_comm (a := source)]
  · rw [Signature.ofDescriptor_plain_iff hplain]
    constructor
    · rintro ⟨hvs, hs, rfl⟩
      exact ⟨hvs, hs.parameters, hs.result, rfl⟩
    · rintro ⟨hvs, hts, ht, rfl⟩
      exact ⟨hvs, ⟨by rw [hvs]; trivial, hts, ht⟩, rfl⟩
  · exact (descriptors_append_inj hts hus (a := []) (b := []) (by rw [h])).1

/-- An array, a class and a variable, read as the parameters of one method only. -/
theorem descriptor_grammar_arrays :
    "([[ILa/B;TT;)V".toList.head? ≠ some '<' ∧
      Signature.ofDescriptor "([[ILa/B;TT;)V" = .ok (.mk []
        [.array (.array .int), .object ⟨"a/B"⟩, .typeVariable (.mk "T" [])] .void) := by
  have hname : GoodName "a/B" := goodName_iff.mpr (by simp)
  have hvariable : GoodName "T" := goodName_iff.mpr (by simp)
  have hfields : ∀ t ∈ [.array (.array .int), .object ⟨"a/B"⟩, .typeVariable (.mk "T" [])],
      ValueType.IsField t := by
    simp only [List.forall_mem_cons]
    exact ⟨.array (.array (.primitive .int)), .object hname, .typeVariable hvariable, by simp⟩
  have hhead : "([[ILa/B;TT;)V".toList.head? ≠ some '<' := by decide
  refine ⟨hhead, (descriptor_grammar.2.2.2.1 _ _ hhead).mpr ⟨rfl, hfields, .inl rfl, ?_⟩⟩
  decide +kernel

end ClassText
