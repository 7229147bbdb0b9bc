import ClassText.Proofs.Type.Descriptor

/-!
# Which method descriptors are read back

The printed form of a type parameter has no colon before its first bound, while the
reader takes a bound there only if it is a class, a variable or an array.
`ofDescriptor_descriptor_iff`: of the signatures that are read, those without a first
bound of primitive type are exactly the ones whose descriptor is read as the same
signature. Printing loses nothing but colons (`ofDescriptor_colons`).
-/

namespace ClassText

/-- Classes, variables and arrays: the types that the reader takes for a first bound. -/
def ValueType.opensBounds : ValueType → Bool
  | .array _ | .object _ | .typeVariable _ => true
  | _ => false

/-- A variable without bounds, or with a first bound that the reader takes for one. -/
def TypeVariable.BoundsOpen (v : TypeVariable) : Prop :=
  ∀ b ∈ v.bounds.head?, b.opensBounds = true

def Signature.BoundsOpen (s : Signature) : Prop :=
  ∀ v ∈ s.typeParameters, v.BoundsOpen

/-- The names and bounds that the reader gives to type parameters. -/
structure TypeVariable.IsParameter (v : TypeVariable) : Prop where
  ne : v.name.toList ≠ []
  noColon : ':' ∉ v.name.toList
  noEnd : v.name.toList.head? ≠ some '>'
  bounds : ∀ b ∈ v.bounds, b.IsField

@[simp] theorem TypeVariable.mk_name_bounds (v : TypeVariable) : .mk v.name v.bounds = v := by
  cases v
  rfl

/-- After a parameter without bounds, nothing may stand that the reader takes for one. -/
def AreParameters : List TypeVariable → Prop
  | [] => True
  | v :: vs => v.IsParameter ∧
      (v.bounds = [] → Descriptor.startsBound (binders vs).toList = false) ∧ AreParameters vs

structure Signature.IsMethod (s : Signature) : Prop where
  typeParameters : AreParameters s.typeParameters
  parameters : ∀ t ∈ s.parameters, t.IsField
  result : s.result = .void ∨ s.result.IsField

namespace Descriptor

variable {t : ValueType}

def withoutColons (text : List Char) : List Char := text.filter (· ≠ ':')

theorem withoutColons_append :
    withoutColons (a ++ b) = withoutColons a ++ withoutColons b := List.filter_append ..

@[simp] theorem withoutColons_colon : withoutColons (':' :: a) = withoutColons a := by
  simp [withoutColons]

theorem withoutColons_cons (h : c ≠ ':') : withoutColons (c :: a) = c :: withoutColons a := by
  simp [withoutColons, h]

-- ---------------------------------------------------------------------------
-- Lists of types
-- ---------------------------------------------------------------------------

theorem descriptor_head (h : t.IsField) : ∃ c cs, t.descriptor.toList = c :: cs ∧
    c ≠ ')' ∧ c ≠ ':' ∧ ∀ rest, startsBound (c :: rest) = t.opensBounds := by
  cases h with
  | primitive kind =>
    cases kind <;> exact ⟨_, [], rfl, by decide, by decide, fun _ => rfl⟩
  | array =>
    exact ⟨'[', _, by rw [ValueType.descriptor, String.toList_append]; rfl, by decide, by decide,
      fun _ => rfl⟩
  | object =>
    exact ⟨'L', _, by rw [ValueType.descriptor, String.toList_append, String.toList_append]; rfl,
      by decide, by decide, fun _ => rfl⟩
  | typeVariable =>
    exact ⟨'T', _, by rw [ValueType.descriptor, String.toList_append, String.toList_append]; rfl,
      by decide, by decide, fun _ => rfl⟩

theorem readTypes_end (h : text.head? = some ')') : readTypes text = .ok ([], text) := by
  rw [readTypes, if_pos h]

theorem readTypes_step (hend : text.head? ≠ some ')') (hr : readType text = .ok (t, after)) :
    readTypes text = (readTypes after).map fun (ts, rest) => (t :: ts, rest) := by
  rw [readTypes, if_neg hend]
  split
  · rename_i he; simp [hr] at he
  · rename_i hu
    rw [hr] at hu
    cases hu
    rfl

theorem readTypes_iff : readTypes text = .ok (ts, rest) ↔ (∀ t ∈ ts, t.IsField) ∧
    text = (descriptors ts).toList ++ rest ∧ rest.head? = some ')' := by
  constructor
  · intro h
    fun_induction readTypes text generalizing ts with
    | case1 text hend =>
      cases h
      exact ⟨by simp, by simp [descriptors], hend⟩
    | case2 => simp at h
    | case3 text hend t after hr ih =>
      obtain ⟨⟨more, last⟩, hm, h⟩ := map_ok.mp h
      cases h
      obtain ⟨ht, rfl⟩ := readType_iff.mp hr
      obtain ⟨hmore, rfl, hlast⟩ := ih hm
      exact ⟨by simpa using ⟨ht, hmore⟩, by simp [descriptors], hlast⟩
  · rintro ⟨hts, rfl, hrest⟩
    induction ts with
    | nil => simp [descriptors, readTypes_end hrest]
    | cons t ts ih =>
      obtain ⟨ht, hts⟩ := List.forall_mem_cons.mp hts
      obtain ⟨c, cs, hc, hne, -⟩ := descriptor_head ht
      have hr := readType_descriptor ht ((descriptors ts).toList ++ rest)
      rw [descriptors, String.toList_append, List.append_assoc,
        readTypes_step (by simp [hc, hne]) hr, ih hts]
      rfl

theorem readMoreBounds_end (h : text.head? ≠ some ':') : readMoreBounds text = .ok ([], text) := by
  rw [readMoreBounds.eq_def]
  split
  · simp at h
  · rfl

theorem readMoreBounds_step (hr : readType text = .ok (t, after)) :
    readMoreBounds (':' :: text) =
      (readMoreBounds after).map fun (ts, rest) => (t :: ts, rest) := by
  rw [readMoreBounds]
  split
  · rename_i he; simp [hr] at he
  · rename_i hu
    rw [hr] at hu
    cases hu
    rfl

theorem readMoreBounds_iff : readMoreBounds text = .ok (ts, rest) ↔ (∀ t ∈ ts, t.IsField) ∧
    text = (moreBounds ts).toList ++ rest ∧ rest.head? ≠ some ':' := by
  constructor
  · intro h
    fun_induction readMoreBounds text generalizing ts with
    | case1 => simp at h
    | case2 more t after hr ih =>
      obtain ⟨⟨more, last⟩, hm, h⟩ := map_ok.mp h
      cases h
      obtain ⟨ht, rfl⟩ := readType_iff.mp hr
      obtain ⟨hmore, rfl, hlast⟩ := ih hm
      exact ⟨by simpa using ⟨ht, hmore⟩, by simp [moreBounds], hlast⟩
    | case3 text hend =>
      cases h
      refine ⟨by simp, by simp [moreBounds], fun hhead => ?_⟩
      obtain ⟨cs, rfl⟩ := List.head?_eq_some_iff.mp hhead
      exact hend cs rfl
  · rintro ⟨hts, rfl, hrest⟩
    induction ts with
    | nil => simp [moreBounds, readMoreBounds_end hrest]
    | cons t ts ih =>
      obtain ⟨ht, hts⟩ := List.forall_mem_cons.mp hts
      have hr := readType_descriptor ht ((moreBounds ts).toList ++ rest)
      have htext : (moreBounds (t :: ts)).toList ++ rest =
          ':' :: (t.descriptor.toList ++ ((moreBounds ts).toList ++ rest)) := by simp [moreBounds]
      rw [htext, readMoreBounds_step hr, ih hts]
      rfl

-- ---------------------------------------------------------------------------
-- Bounds
-- ---------------------------------------------------------------------------

def boundsText : List ValueType → List Char
  | [] => []
  | t :: ts => t.descriptor.toList ++ (moreBounds ts).toList

theorem toList_binder (v : TypeVariable) :
    v.binder.toList = v.name.toList ++ ':' :: boundsText v.bounds := by
  obtain ⟨name, bounds⟩ := v
  cases bounds <;> simp [TypeVariable.binder, TypeVariable.name, TypeVariable.bounds, boundsText]

/-- Bounds are read as they are written but for a colon that may stand before the first one. -/
theorem readBounds_ok (h : readBounds text = .ok (ts, rest)) : (∀ t ∈ ts, t.IsField) ∧
    withoutColons text = withoutColons (boundsText ts ++ rest) ∧ rest.head? ≠ some ':' ∧
    (ts = [] → startsBound rest = false ∧ text = rest) := by
  unfold readBounds at h
  split at h
  · split at h
    · simp at h
    · rename_i t after hr
      obtain ⟨⟨more, last⟩, hm, h⟩ := map_ok.mp h
      cases h
      obtain ⟨ht, rfl⟩ := readType_iff.mp hr
      obtain ⟨hmore, rfl, hlast⟩ := readMoreBounds_iff.mp hm
      exact ⟨by simpa using ⟨ht, hmore⟩, by simp [boundsText], hlast, by simp⟩
  · rename_i hstart
    obtain ⟨hts, rfl, hlast⟩ := readMoreBounds_iff.mp h
    cases ts with
    | nil =>
      exact ⟨hts, by simp [moreBounds, boundsText], hlast,
        fun _ => ⟨by simpa [moreBounds] using hstart, by simp [moreBounds]⟩⟩
    | cons t ts => exact ⟨hts, by simp [moreBounds, boundsText], hlast, by simp⟩

theorem readBounds_nil (hstart : startsBound rest = false) (hrest : rest.head? ≠ some ':') :
    readBounds rest = .ok ([], rest) := by
  rw [readBounds, hstart, if_neg Bool.false_ne_true, readMoreBounds_end hrest]

/-- Written bounds are read back if the first one is of the kind that the reader takes. -/
theorem readBounds_boundsText (hts : ∀ u ∈ t :: ts, u.IsField) (hopen : t.opensBounds = true)
    (hrest : rest.head? ≠ some ':') :
    readBounds (boundsText (t :: ts) ++ rest) = .ok (t :: ts, rest) := by
  obtain ⟨ht, hts⟩ := List.forall_mem_cons.mp hts
  obtain ⟨c, cs, hc, -, -, hstart⟩ := descriptor_head ht
  have hr := readType_descriptor ht ((moreBounds ts).toList ++ rest)
  have hm := readMoreBounds_iff.mpr ⟨hts, rfl, hrest⟩
  rw [boundsText, List.append_assoc, readBounds, hr, hc, List.cons_append, hstart, hopen,
    if_pos rfl]
  simp [hm, Except.map]

theorem readBounds_closed (ht : t.IsField) (hopen : t.opensBounds = false)
    (ts : List ValueType) (rest : List Char) :
    readBounds (boundsText (t :: ts) ++ rest) = .ok ([], boundsText (t :: ts) ++ rest) := by
  obtain ⟨c, cs, hc, -, hne, hstart⟩ := descriptor_head ht
  rw [boundsText, List.append_assoc, hc, List.cons_append]
  exact readBounds_nil (by rw [hstart, hopen]) (by simpa using hne)

-- ---------------------------------------------------------------------------
-- Type parameters
-- ---------------------------------------------------------------------------

theorem startsBound_append (ha : a ≠ []) : startsBound (a ++ b) = startsBound a := by
  obtain ⟨c, cs, rfl⟩ := List.exists_cons_of_ne_nil ha
  rfl

theorem readBinders_end (h : text.head? = some '>') : readBinders text = .ok ([], text) := by
  rw [readBinders, if_pos h]

theorem readBinders_step {v : TypeVariable} (hv : v.IsParameter)
    (hb : readBounds text = .ok (bounds, after)) :
    readBinders (v.name.toList ++ ':' :: text) =
      (readBinders after).map fun (vs, rest) => (.mk v.name bounds :: vs, rest) := by
  obtain ⟨c, cs, hc⟩ := List.exists_cons_of_ne_nil hv.ne
  have hsplit := splitAtFirst_eq_some_iff.mpr
    ⟨(rfl : v.name.toList ++ ':' :: text = v.name.toList ++ ':' :: text), hv.noColon⟩
  rw [readBinders, if_neg (by have := hv.noEnd; simp_all)]
  split
  · rename_i hs; simp [hsplit] at hs
  · rename_i name rest hs
    rw [hsplit] at hs
    cases hs
    rw [if_neg (by simp [hc])]
    split
    · rename_i he; simp [hb] at he
    · rename_i hr
      rw [hb] at hr
      cases hr
      rw [String.ofList_toList]

theorem readBinders_ok (h : readBinders text = .ok (vs, rest)) : AreParameters vs ∧
    rest.head? = some '>' ∧ withoutColons text = withoutColons ((binders vs).toList ++ rest) ∧
    (startsBound text = false → startsBound (binders vs).toList = false) := by
  fun_induction readBinders text generalizing vs with
  | case1 text hend =>
    cases h
    exact ⟨trivial, hend, by simp [binders], fun _ => rfl⟩
  | case2 | case3 | case4 => simp at h
  | case5 text hend name after hs hname bounds last hb ih =>
    obtain ⟨⟨more, tail⟩, hm, h⟩ := map_ok.mp h
    cases h
    obtain ⟨rfl, hcolon⟩ := splitAtFirst_eq_some_iff.mp hs
    obtain ⟨hmore, htail, htext, hstart⟩ := ih hm
    obtain ⟨hbounds, hafter, -, hnil⟩ := readBounds_ok hb
    have hne : name ≠ [] := by simpa using hname
    have hv : (TypeVariable.mk (String.ofList name) bounds).IsParameter :=
      ⟨by simpa [TypeVariable.name] using hne, by simpa [TypeVariable.name] using hcolon,
        by obtain ⟨c, cs, rfl⟩ := List.exists_cons_of_ne_nil hne
           simpa [TypeVariable.name] using hend, hbounds⟩
    refine ⟨⟨hv, fun hb => hstart (hnil hb).1, hmore⟩, htail, ?_, fun h => ?_⟩
    · simp only [binders, String.toList_append, toList_binder, TypeVariable.name,
        TypeVariable.bounds, String.toList_ofList, withoutColons_append, List.append_assoc,
        List.cons_append, withoutColons_colon, hafter, htext]
    · rw [startsBound_append hne] at h
      simp only [binders, String.toList_append, toList_binder, TypeVariable.name,
        String.toList_ofList, List.append_assoc]
      rwa [startsBound_append hne]

theorem toList_binders_cons : (binders (v :: vs)).toList =
    v.name.toList ++ ':' :: (boundsText v.bounds ++ (binders vs).toList) := by
  simp [binders, toList_binder]

theorem binders_head (hvs : AreParameters vs) (rest : List Char) :
    ((binders vs).toList ++ '>' :: rest).head? ≠ some ':' ∧
      startsBound ((binders vs).toList ++ '>' :: rest) = startsBound (binders vs).toList := by
  cases vs with
  | nil => exact ⟨by simp [binders], by simp [binders, startsBound]⟩
  | cons v vs =>
    obtain ⟨c, cs, hc⟩ := List.exists_cons_of_ne_nil hvs.1.ne
    have hcolon := hvs.1.noColon
    rw [hc, List.mem_cons, not_or] at hcolon
    rw [toList_binders_cons, hc]
    exact ⟨by simpa using Ne.symm hcolon.1, by simp [startsBound]⟩

theorem readBinders_cons (hv : v.IsParameter)
    (hb : readBounds (boundsText v.bounds ++ ((binders vs).toList ++ '>' :: rest)) =
      .ok (bounds, after)) :
    readBinders ((binders (v :: vs)).toList ++ '>' :: rest) =
      (readBinders after).map fun (ws, tail) => (.mk v.name bounds :: ws, tail) := by
  rw [toList_binders_cons, List.append_assoc, List.cons_append, List.append_assoc,
    readBinders_step hv hb]

theorem readBounds_binder (hvs : AreParameters (v :: vs)) (hopen : v.BoundsOpen) :
    readBounds (boundsText v.bounds ++ ((binders vs).toList ++ '>' :: rest)) =
      .ok (v.bounds, (binders vs).toList ++ '>' :: rest) := by
  obtain ⟨hv, hnil, hvs⟩ := hvs
  obtain ⟨hcolon, hstart⟩ := binders_head hvs rest
  have hfields := hv.bounds
  unfold TypeVariable.BoundsOpen at hopen
  cases hbounds : v.bounds with
  | nil => exact readBounds_nil (by rw [boundsText, List.nil_append, hstart, hnil hbounds]) hcolon
  | cons t ts =>
    rw [hbounds] at hfields hopen
    exact readBounds_boundsText hfields (hopen t rfl) hcolon

/-- Where the first bounds of all parameters are open, printed parameters are read back. -/
theorem readBinders_binders (hvs : AreParameters vs) (hopen : ∀ v ∈ vs, v.BoundsOpen) :
    readBinders ((binders vs).toList ++ '>' :: rest) = .ok (vs, '>' :: rest) := by
  induction vs with
  | nil => rw [readBinders_end (by simp [binders])]; simp [binders]
  | cons v vs ih =>
    obtain ⟨hopen, hmore⟩ := List.forall_mem_cons.mp hopen
    rw [readBinders_cons hvs.1 (readBounds_binder hvs hopen), ih hvs.2.2 hmore]
    simp [Except.map]

/-- A parameter whose first bound is not open is read as one without bounds. -/
theorem boundsOpen_of_readBinders (hvs : AreParameters vs)
    (h : readBinders ((binders vs).toList ++ '>' :: rest) = .ok (vs, tail)) :
    ∀ v ∈ vs, v.BoundsOpen := by
  induction vs with
  | nil => simp
  | cons v vs ih =>
    have hopen : v.BoundsOpen := by
      intro t ht
      obtain ⟨ts, hts⟩ := List.head?_eq_some_iff.mp ht
      refine Bool.of_not_eq_false fun hclosed => ?_
      have hb := readBounds_closed (hvs.1.bounds t (by simp [hts])) hclosed ts
        ((binders vs).toList ++ '>' :: rest)
      rw [← hts] at hb
      rw [readBinders_cons hvs.1 hb] at h
      obtain ⟨_, -, h⟩ := map_ok.mp h
      simp only [Prod.mk.injEq, List.cons.injEq] at h
      rw [← h.1.1] at hts
      simp [TypeVariable.bounds] at hts
    refine List.forall_mem_cons.mpr ⟨hopen, ih hvs.2.2 ?_⟩
    rw [readBinders_cons hvs.1 (readBounds_binder hvs hopen)] at h
    obtain ⟨⟨ws, end'⟩, hr, h⟩ := map_ok.mp h
    simp only [Prod.mk.injEq, List.cons.injEq] at h
    rw [hr, h.1.2, h.2]

-- ---------------------------------------------------------------------------
-- Signatures
-- ---------------------------------------------------------------------------

theorem readResult_iff : readResult text = .ok (t, rest) ↔
    (t = .void ∨ t.IsField) ∧ text = t.descriptor.toList ++ rest := by
  unfold readResult
  split
  · rename_i after
    constructor
    · intro h
      cases h
      exact ⟨.inl rfl, rfl⟩
    · rintro ⟨rfl | ht, htext⟩
      · cases htext
        rfl
      · have hr := readType_descriptor ht rest
        rw [← htext] at hr
        simp [readType] at hr
  · rename_i hvoid
    rw [readType_iff]
    constructor
    · rintro ⟨ht, htext⟩
      exact ⟨.inr ht, htext⟩
    · rintro ⟨rfl | ht, htext⟩
      · exact (hvoid rest htext).elim
      · exact ⟨ht, htext⟩

def typeParametersText : List TypeVariable → List Char
  | [] => []
  | vs => '<' :: (binders vs).toList ++ ['>']

theorem typeParametersText_append : typeParametersText (v :: vs) ++ rest =
    '<' :: ((binders (v :: vs)).toList ++ '>' :: rest) := by
  simp [typeParametersText]

theorem toList_descriptor (s : Signature) : s.descriptor.toList =
    typeParametersText s.typeParameters ++
      '(' :: ((descriptors s.parameters).toList ++ ')' :: s.result.descriptor.toList) := by
  obtain ⟨vs, ts, t⟩ := s
  cases vs <;> simp [Signature.descriptor, Signature.typeParameters, Signature.parameters,
    Signature.result, typeParametersText]

theorem readTypeParameters_ok (h : readTypeParameters text = .ok (vs, rest)) :
    AreParameters vs ∧ withoutColons text = withoutColons (typeParametersText vs ++ rest) := by
  unfold readTypeParameters at h
  split at h
  · rename_i more
    simp only [bind_ok, expect_ok, Prod.exists] at h
    obtain ⟨ws, _, hr, after, rfl, h⟩ := h
    split at h
    · simp at h
    · rename_i hne
      cases h
      obtain ⟨hvs, -, htext, -⟩ := readBinders_ok hr
      obtain ⟨v, vs, rfl⟩ := List.exists_cons_of_ne_nil (by simpa using hne)
      refine ⟨hvs, ?_⟩
      rw [typeParametersText_append, withoutColons_cons (by decide),
        withoutColons_cons (by decide), htext]
  · cases h
    exact ⟨trivial, rfl⟩

theorem readTypeParameters_text (hvs : AreParameters vs) (hopen : ∀ v ∈ vs, v.BoundsOpen) :
    readTypeParameters (typeParametersText vs ++ '(' :: rest) = .ok (vs, '(' :: rest) := by
  cases vs with
  | nil => rfl
  | cons v vs =>
    rw [typeParametersText_append, readTypeParameters]
    simp only [bind_ok, expect_ok, Prod.exists]
    exact ⟨_, _, readBinders_binders hvs hopen, _, rfl, rfl⟩

theorem boundsOpen_of_readTypeParameters (hvs : AreParameters vs)
    (h : readTypeParameters (typeParametersText vs ++ rest) = .ok (vs, tail)) :
    ∀ v ∈ vs, v.BoundsOpen := by
  cases vs with
  | nil => simp
  | cons v vs =>
    rw [typeParametersText_append, readTypeParameters] at h
    simp only [bind_ok, expect_ok, Prod.exists] at h
    obtain ⟨ws, _, hr, after, rfl, h⟩ := h
    split at h
    · simp at h
    · cases h
      exact boundsOpen_of_readBinders hvs hr

theorem readSignature_ok (h : readSignature text = .ok (s, rest)) :
    s.IsMethod ∧ withoutColons text = withoutColons (s.descriptor.toList ++ rest) := by
  simp only [readSignature, bind_ok, expect_ok, Prod.exists] at h
  obtain ⟨vs, _, hrvs, _, rfl, ts, _, hrts, _, rfl, t, _, hrt, h⟩ := h
  cases h
  obtain ⟨hvs, htext⟩ := readTypeParameters_ok hrvs
  obtain ⟨hts, rfl, -⟩ := readTypes_iff.mp hrts
  obtain ⟨ht, rfl⟩ := readResult_iff.mp hrt
  refine ⟨⟨hvs, hts, ht⟩, ?_⟩
  rw [htext, toList_descriptor]
  simp [Signature.typeParameters, Signature.parameters, Signature.result]

theorem readSignature_descriptor (hs : s.IsMethod) (hopen : s.BoundsOpen) :
    readSignature s.descriptor.toList = .ok (s, []) := by
  obtain ⟨vs, ts, t⟩ := s
  rw [toList_descriptor]
  simp only [readSignature, bind_ok, expect_ok, Prod.exists]
  exact ⟨vs, _, readTypeParameters_text hs.typeParameters hopen, _, rfl, ts, _,
    readTypes_iff.mpr ⟨hs.parameters, rfl, rfl⟩, _, rfl, t, [],
    readResult_iff.mpr ⟨hs.result, by simp [Signature.result]⟩, rfl⟩

theorem boundsOpen_of_readSignature (hs : s.IsMethod)
    (h : readSignature s.descriptor.toList = .ok (s, rest)) : s.BoundsOpen := by
  rw [toList_descriptor] at h
  simp only [readSignature, bind_ok, Prod.exists] at h
  obtain ⟨vs, _, hvs, _, -, _, _, -, _, -, _, _, -, h⟩ := h
  cases h
  exact boundsOpen_of_readTypeParameters hs.typeParameters hvs

end Descriptor

open Descriptor

/-- Printing a signature that was read may drop colons, and nothing else. -/
theorem Signature.ofDescriptor_colons (h : Signature.ofDescriptor source = .ok s) :
    s.IsMethod ∧ withoutColons s.descriptor.toList = withoutColons source.toList := by
  rw [ofDescriptor, whole_ok] at h
  obtain ⟨hs, htext⟩ := readSignature_ok h
  exact ⟨hs, by simpa using htext.symm⟩

theorem Signature.ofDescriptor_descriptor_iff (hs : s.IsMethod) :
    Signature.ofDescriptor s.descriptor = .ok s ↔ s.BoundsOpen := by
  rw [ofDescriptor, whole_ok]
  exact ⟨boundsOpen_of_readSignature hs, readSignature_descriptor hs⟩

end ClassText
