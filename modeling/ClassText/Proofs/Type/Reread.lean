import ClassText.Proofs.Type.Signature

/-!
# What a printed method descriptor is read as

A descriptor is printed without the colon that may stand before a first bound, so no two
colons stand side by side in it. `readSignature_exact`: a text of that kind, if it is read at
all, is the descriptor of what it is read as, and all first bounds are open. Hence
`descriptor_reread`: a signature is read back from its descriptor if and only if its first
bounds are open, and whatever else is read there prints the same text.
-/

namespace ClassText

namespace Descriptor

variable {t : ValueType}

-- ---------------------------------------------------------------------------
-- Colons
-- ---------------------------------------------------------------------------

/-- No colon stands right behind another. -/
def SingleColons (text : List Char) : Prop := ¬[':', ':'] <:+: text

@[simp] theorem singleColons_nil : SingleColons [] := by
  simp [SingleColons]

theorem singleColons_cons (h : c ≠ ':') : SingleColons (c :: text) ↔ SingleColons text := by
  simp [SingleColons, List.infix_cons_iff, List.cons_prefix_cons, Ne.symm h]

theorem singleColons_colon :
    SingleColons (':' :: text) ↔ text.head? ≠ some ':' ∧ SingleColons text := by
  cases text with
  | nil => simp [SingleColons, List.infix_cons_iff]
  | cons c text => simp [SingleColons, List.infix_cons_iff, List.cons_prefix_cons, eq_comm]

theorem singleColons_append (h : ':' ∉ a) : SingleColons (a ++ b) ↔ SingleColons b := by
  induction a with
  | nil => rfl
  | cons c a ih =>
    rw [List.mem_cons, not_or] at h
    rw [List.cons_append, singleColons_cons (Ne.symm h.1), ih h.2]

theorem singleColons_of_not_mem (h : ':' ∉ text) : SingleColons text := by
  rw [← List.append_nil text, singleColons_append h]
  exact singleColons_nil

theorem SingleColons.right (h : SingleColons (a ++ b)) : SingleColons b :=
  fun hcolons => h (hcolons.trans (List.suffix_append a b).isInfix)

-- ---------------------------------------------------------------------------
-- Descriptors have single colons
-- ---------------------------------------------------------------------------

theorem colon_not_mem_name (h : GoodName name) : ':' ∉ name.toList :=
  fun hmem => absurd (h.2 ':' hmem) (by decide)

theorem colon_not_mem_descriptor (h : t.IsField) : ':' ∉ t.descriptor.toList := by
  induction h with
  | primitive kind => cases kind <;> decide
  | array _ ih => simpa [ValueType.descriptor] using ih
  | object hname => simpa [ValueType.descriptor] using colon_not_mem_name hname
  | typeVariable hname => simpa [ValueType.descriptor] using colon_not_mem_name hname

theorem colon_not_mem_descriptors (h : ∀ t ∈ ts, t.IsField) : ':' ∉ (descriptors ts).toList := by
  induction ts with
  | nil => simp [descriptors]
  | cons t ts ih =>
    obtain ⟨ht, hts⟩ := List.forall_mem_cons.mp h
    simp [descriptors, colon_not_mem_descriptor ht, ih hts]

theorem singleColons_moreBounds (hts : ∀ t ∈ ts, t.IsField) (hrest : SingleColons rest) :
    SingleColons ((moreBounds ts).toList ++ rest) := by
  induction ts with
  | nil => simpa [moreBounds] using hrest
  | cons t ts ih =>
    obtain ⟨ht, hts⟩ := List.forall_mem_cons.mp hts
    obtain ⟨c, cs, hc, -, hne, -⟩ := descriptor_head ht
    have htext : (moreBounds (t :: ts)).toList ++ rest =
        ':' :: (t.descriptor.toList ++ ((moreBounds ts).toList ++ rest)) := by simp [moreBounds]
    rw [htext, singleColons_colon, singleColons_append (colon_not_mem_descriptor ht)]
    exact ⟨by simpa [hc] using hne, ih hts⟩

theorem singleColons_boundsText (hts : ∀ t ∈ ts, t.IsField) (hhead : rest.head? ≠ some ':')
    (hrest : SingleColons rest) : SingleColons (':' :: (boundsText ts ++ rest)) := by
  rw [singleColons_colon]
  cases ts with
  | nil => exact ⟨hhead, hrest⟩
  | cons t ts =>
    obtain ⟨ht, hts⟩ := List.forall_mem_cons.mp hts
    obtain ⟨c, cs, hc, -, hne, -⟩ := descriptor_head ht
    rw [boundsText, List.append_assoc, singleColons_append (colon_not_mem_descriptor ht)]
    exact ⟨by simpa [hc] using hne, singleColons_moreBounds hts hrest⟩

theorem singleColons_binders (hvs : AreParameters vs) (hrest : SingleColons rest) :
    SingleColons ((binders vs).toList ++ '>' :: rest) := by
  induction vs with
  | nil => simpa [binders, singleColons_cons] using hrest
  | cons v vs ih =>
    rw [toList_binders_cons, List.append_assoc, List.cons_append, List.append_assoc,
      singleColons_append hvs.1.noColon]
    exact singleColons_boundsText hvs.1.bounds (binders_head hvs.2.2 rest).1 (ih hvs.2.2)

theorem singleColons_descriptor {s : Signature} (hs : s.IsMethod) :
    SingleColons s.descriptor.toList := by
  have hresult : ':' ∉ s.result.descriptor.toList := by
    rcases hs.result with hvoid | hfield
    · rw [hvoid]
      decide
    · exact colon_not_mem_descriptor hfield
  have hrest : ':' ∉ '(' :: ((descriptors s.parameters).toList ++
      ')' :: s.result.descriptor.toList) := by
    simp [colon_not_mem_descriptors hs.parameters, hresult]
  rw [toList_descriptor]
  cases hvs : s.typeParameters with
  | nil => exact singleColons_of_not_mem hrest
  | cons v vs =>
    rw [typeParametersText_append, singleColons_cons (by decide)]
    exact singleColons_binders (hvs ▸ hs.typeParameters) (singleColons_of_not_mem hrest)

-- ---------------------------------------------------------------------------
-- Texts with single colons
-- ---------------------------------------------------------------------------

/-- Where no colon stands first, bounds are read exactly as they are written, and the first one
only if it is of an open kind. -/
theorem readBounds_exact (h : readBounds text = .ok (ts, rest)) (hcolon : text.head? ≠ some ':') :
    text = boundsText ts ++ rest ∧ ∀ b ∈ ts.head?, b.opensBounds = true := by
  unfold readBounds at h
  split at h
  · rename_i hstart
    split at h
    · simp at h
    · rename_i t after hr
      obtain ⟨⟨more, last⟩, hm, h⟩ := map_ok.mp h
      cases h
      obtain ⟨ht, rfl⟩ := readType_iff.mp hr
      obtain ⟨-, rfl, -⟩ := readMoreBounds_iff.mp hm
      obtain ⟨c, cs, hc, -, -, hopen⟩ := descriptor_head ht
      rw [hc, List.cons_append, hopen] at hstart
      exact ⟨by simp [boundsText], by simpa using hstart⟩
  · obtain ⟨-, rfl, -⟩ := readMoreBounds_iff.mp h
    cases ts with
    | nil => exact ⟨by simp [moreBounds, boundsText], by simp⟩
    | cons t ts => simp [moreBounds] at hcolon

theorem readBinders_exact (h : readBinders text = .ok (vs, rest)) (hcolons : SingleColons text) :
    text = (binders vs).toList ++ rest ∧ ∀ v ∈ vs, v.BoundsOpen := by
  fun_induction readBinders text generalizing vs with
  | case1 text hend =>
    cases h
    exact ⟨by simp [binders], by simp⟩
  | case2 | case3 | case4 => simp at h
  | case5 text hend name after hs hname bounds last hb ih =>
    obtain ⟨⟨more, tail⟩, hm, h⟩ := map_ok.mp h
    cases h
    obtain ⟨rfl, hcolon⟩ := splitAtFirst_eq_some_iff.mp hs
    rw [singleColons_append hcolon, singleColons_colon] at hcolons
    obtain ⟨rfl, hopen⟩ := readBounds_exact hb hcolons.1
    obtain ⟨rfl, hmore⟩ := ih hm hcolons.2.right
    refine ⟨?_, List.forall_mem_cons.mpr ⟨hopen, hmore⟩⟩
    simp [toList_binders_cons, TypeVariable.name, TypeVariable.bounds]

theorem readTypeParameters_exact (h : readTypeParameters text = .ok (vs, rest))
    (hcolons : SingleColons text) :
    text = typeParametersText vs ++ rest ∧ ∀ v ∈ vs, v.BoundsOpen := by
  unfold readTypeParameters at h
  split at h
  · simp only [bind_ok, expect_ok, Prod.exists] at h
    obtain ⟨ws, _, hr, after, rfl, h⟩ := h
    split at h
    · simp at h
    · rename_i hne
      cases h
      obtain ⟨rfl, hopen⟩ := readBinders_exact hr ((singleColons_cons (by decide)).mp hcolons)
      obtain ⟨v, vs, rfl⟩ := List.exists_cons_of_ne_nil (by simpa using hne)
      exact ⟨typeParametersText_append.symm, hopen⟩
  · cases h
    exact ⟨rfl, by simp⟩

theorem readSignature_exact {s : Signature} (h : readSignature text = .ok (s, rest))
    (hcolons : SingleColons text) : text = s.descriptor.toList ++ rest ∧ s.BoundsOpen := by
  simp only [readSignature, bind_ok, expect_ok, Prod.exists] at h
  obtain ⟨vs, _, hrvs, _, rfl, ts, _, hrts, _, rfl, t, _, hrt, h⟩ := h
  cases h
  obtain ⟨rfl, hopen⟩ := readTypeParameters_exact hrvs hcolons
  obtain ⟨-, rfl, -⟩ := readTypes_iff.mp hrts
  obtain ⟨-, rfl⟩ := readResult_iff.mp hrt
  refine ⟨?_, hopen⟩
  rw [toList_descriptor]
  simp [Signature.typeParameters, Signature.parameters, Signature.result]

end Descriptor

open Descriptor

namespace Signature

/-- A descriptor is printed as it was read if and only if no two colons in it are neighbours. -/
theorem descriptor_eq_iff (h : ofDescriptor source = .ok s) :
    s.descriptor = source ↔ SingleColons source.toList := by
  constructor
  · rintro rfl
    exact singleColons_descriptor (ofDescriptor_colons h).1
  · intro hcolons
    rw [ofDescriptor, whole_ok] at h
    obtain ⟨htext, -⟩ := readSignature_exact h hcolons
    rw [List.append_nil] at htext
    exact String.toList_inj.mp htext.symm

/-- Where colons are single, reading undoes printing and nothing else is read. -/
theorem ofDescriptor_iff_of_singleColons {s : Signature} (hcolons : SingleColons source.toList) :
    ofDescriptor source = .ok s ↔ s.IsMethod ∧ s.BoundsOpen ∧ s.descriptor = source := by
  constructor
  · intro h
    have hs := (ofDescriptor_colons h).1
    have htext := (descriptor_eq_iff h).mpr hcolons
    rw [← htext, ofDescriptor_descriptor_iff hs] at h
    exact ⟨hs, h, htext⟩
  · rintro ⟨hs, hopen, rfl⟩
    exact (ofDescriptor_descriptor_iff hs).mpr hopen

/-- A signature that was read is read back from its descriptor if and only if its first bounds
are open. Otherwise that text is refused, or read as the one signature with open first bounds
that is printed the same. -/
theorem descriptor_reread (h : ofDescriptor source = .ok s) :
    (ofDescriptor s.descriptor = .ok s ↔ s.BoundsOpen) ∧
      (∀ s', ofDescriptor s.descriptor = .ok s' ↔
        s'.IsMethod ∧ s'.BoundsOpen ∧ s'.descriptor = s.descriptor) ∧
      ∀ source' s', ofDescriptor source' = .ok s' → s.BoundsOpen → s'.BoundsOpen →
        s.descriptor = s'.descriptor → s = s' := by
  have hs := (ofDescriptor_colons h).1
  have hreread : ∀ s', ofDescriptor s.descriptor = .ok s' ↔
      s'.IsMethod ∧ s'.BoundsOpen ∧ s'.descriptor = s.descriptor :=
    fun s' => ofDescriptor_iff_of_singleColons (singleColons_descriptor hs)
  refine ⟨ofDescriptor_descriptor_iff hs, hreread, ?_⟩
  intro source' s' h' hopen hopen' htext
  have hself := (hreread s).mpr ⟨hs, hopen, rfl⟩
  have hother := (hreread s').mpr ⟨(ofDescriptor_colons h').1, hopen', htext.symm⟩
  rw [hself, Except.ok.injEq] at hother
  exact hother

/-- Two bounds behind an absent one, and a parameter without bounds. -/
theorem descriptor_reread_interfaces :
    ∃ s, ofDescriptor "<T::LA;:[LB;U:>(TT;)TU;" = .ok s ∧
      s.descriptor = "<T:LA;:[LB;U:>(TT;)TU;" ∧
      (ofDescriptor s.descriptor = .ok s ↔ s.BoundsOpen) ∧
      (∀ s', ofDescriptor s.descriptor = .ok s' ↔
        s'.IsMethod ∧ s'.BoundsOpen ∧ s'.descriptor = s.descriptor) ∧
      ∀ source' s', ofDescriptor source' = .ok s' → s.BoundsOpen → s'.BoundsOpen →
        s.descriptor = s'.descriptor → s = s' := by
  let bounds : List ValueType := [.object ⟨"A"⟩, .array (.object ⟨"B"⟩)]
  let s : Signature := .mk [.mk "T" bounds, .mk "U" []] [.typeVariable (.mk "T" [])]
    (.typeVariable (.mk "U" []))
  have hread : ofDescriptor "<T::LA;:[LB;U:>(TT;)TU;" = .ok s :=
    toOption_eq_some.mp (by decide +kernel)
  exact ⟨s, hread, by decide +kernel, descriptor_reread hread⟩

/-- Two methods with one descriptor: the bound of `T` is the type `int` in the first, and the
first letter of the name `IU` in the second. Only the second is read back. -/
theorem descriptor_ambiguous :
    ∃ bounded named, ofDescriptor "<T::IU:>()V" = .ok bounded ∧
      ofDescriptor "<T:IU:>()V" = .ok named ∧ bounded ≠ named ∧
      bounded.descriptor = named.descriptor ∧ ofDescriptor bounded.descriptor ≠ .ok bounded := by
  let bounded : Signature := .mk [.mk "T" [.int], .mk "U" []] [] .void
  let named : Signature := .mk [.mk "T" [], .mk "IU" []] [] .void
  have hbounded : ofDescriptor "<T::IU:>()V" = .ok bounded :=
    toOption_eq_some.mp (by decide +kernel)
  have hnamed : ofDescriptor "<T:IU:>()V" = .ok named := toOption_eq_some.mp (by decide +kernel)
  have htext : bounded.descriptor = "<T:IU:>()V" := by decide +kernel
  have hne : bounded ≠ named := by simp [bounded, named]
  refine ⟨bounded, named, hbounded, hnamed, hne, by decide +kernel, ?_⟩
  rw [htext, hnamed]
  exact fun h => hne (Except.ok.inj h).symm

end Signature

end ClassText
