import ClassText.Proofs.Number.ConstantText
import ClassText.Proofs.Pool.Components
import ClassText.Proofs.Pool.References

/-!
# The text of a constant determines it

`text_determines_constant`: in a pool, different constants have different definitions and are
different operands, be they in the pool or not, and whichever of their parts are. Two pools with
one listing agree on this, so a listing and an operand determine the constant. Only bit patterns
that are no number cannot be told apart.

The text is cut into its kind and its components. A component is a reference or a string, and no
text is both; what a reference means is settled by the lines before it, by induction on positions.
-/

namespace ClassText

namespace Constant

variable {c c' d : Constant}

def isNaN : Constant → Bool
  | .float value => value.isNaN
  | .double value => value.isNaN
  | _ => false

/-- Two floating-point constants of one format that are no numbers. They have one text. -/
def BothNaN (c c' : Constant) : Prop :=
  c.kind = c'.kind ∧ c.isNaN = true ∧ c'.isNaN = true

def Alike (c c' : Constant) : Prop := c = c' ∨ BothNaN c c'

/-- The constants that come before a constant in a pool. -/
def Requires (c d : Constant) : Prop := ∃ part ∈ c.parts, part.Needs d

theorem requires_part (h : d ∈ c.parts) : c.Requires d := ⟨d, h, .self⟩

theorem requires_of_part {part : Constant} (hpart : part ∈ c.parts) (h : part.Requires d) :
    c.Requires d := by
  obtain ⟨inner, hinner, hneeds⟩ := h
  exact ⟨part, hpart, .part hinner hneeds⟩

theorem isNaN_of_mem_parts (h : d ∈ c.parts) : d.isNaN = false := by
  have hall : ∀ part ∈ c.parts, part.isNaN = false := by
    cases c <;> simp [parts, isNaN]
  exact hall d h

/-- Nothing refers to a number. -/
theorem Requires.isNaN (h : c.Requires d) : d.isNaN = false := by
  obtain ⟨part, hpart, hneeds⟩ := h
  have hnumber := isNaN_of_mem_parts hpart
  clear hpart
  induction hneeds with
  | self => exact hnumber
  | part hinner _ ih => exact ih (isNaN_of_mem_parts hinner)

theorem Alike.eq (h : Alike c c') (hc : c.isNaN = false) : c = c' := by
  rcases h with rfl | ⟨-, hnan, -⟩
  · rfl
  · rw [hc] at hnan
    cases hnan

end Constant

namespace Pool

open Component (joined joined_inj)

variable {pool pool' : Pool} {c c' p p' : Constant}

-- ---------------------------------------------------------------------------
-- Components
-- ---------------------------------------------------------------------------

/-- Two pools do not use one number for two different constants. -/
def Agree (pool pool' : Pool) (p p' : Constant) : Prop :=
  ∀ n, pool.number? p = some n → pool'.number? p' = some n → p = p'

/-- A reference to a constant, or the given string if the pool does not have it. -/
def component (pool : Pool) (c : Constant) (text : String) : Component :=
  match pool.number? c with
  | some number => .reference number
  | none => .string text

def nameAndTypeComponents (pool : Pool) (name descriptor : String) : List Component :=
  match pool.number? (.nameAndType name descriptor) with
  | some number => [.reference number]
  | none => [pool.component (.utf8 name) name, pool.component (.utf8 descriptor) descriptor]

theorem component_inj (hagree : Agree pool pool' p p')
    (h : pool.component p s = pool'.component p' s') : p = p' ∨ s = s' := by
  unfold component at h
  split at h
  · rename_i n hn
    split at h
    · rename_i n' hn'
      cases h
      exact .inl (hagree n hn hn')
    · cases h
  · split at h
    · cases h
    · cases h
      exact .inr rfl

theorem component_utf8_inj (hagree : Agree pool pool' (.utf8 s) (.utf8 s'))
    (h : pool.component (.utf8 s) s = pool'.component (.utf8 s') s') : s = s' := by
  rcases component_inj hagree h with hpart | rfl
  · cases hpart
    rfl
  · rfl

theorem component_class_inj (hagree : Agree pool pool' (.class s) (.class s'))
    (h : pool.component (.class s) s = pool'.component (.class s') s') : s = s' := by
  rcases component_inj hagree h with hpart | rfl
  · cases hpart
    rfl
  · rfl

/-- A reference to both stands for one component more or less than the two by themselves. -/
theorem nameAndTypeComponents_inj
    (hboth : Agree pool pool' (.nameAndType n d) (.nameAndType n' d'))
    (hname : Agree pool pool' (.utf8 n) (.utf8 n'))
    (hdescriptor : Agree pool pool' (.utf8 d) (.utf8 d'))
    (h : pool.nameAndTypeComponents n d = pool'.nameAndTypeComponents n' d') :
    n = n' ∧ d = d' := by
  unfold nameAndTypeComponents at h
  split at h
  · rename_i k hk
    split at h
    · rename_i k' hk'
      simp only [List.cons.injEq, Component.reference.injEq, and_true] at h
      subst h
      cases hboth _ hk hk'
      exact ⟨rfl, rfl⟩
    · simp at h
  · split at h
    · simp at h
    · simp only [List.cons.injEq, and_true] at h
      exact ⟨component_utf8_inj hname h.1, component_utf8_inj hdescriptor h.2⟩

theorem written_component (pool : Pool) (c : Constant) (text : String) :
    (pool.component c text).written = pool.referenceOr c (escape text) := by
  unfold component referenceOr
  cases pool.number? c with
  | some number => rfl
  | none => rfl

theorem written_inj {a b : Component} : a.written = b.written ↔ a = b := by
  have hsingle : joined [a] = joined [b] ↔ [a] = [b] := joined_inj
  simpa [joined, String.intercalate_singleton] using hsingle

theorem joined_pair (a b : Component) : joined [a, b] = a.written ++ " " ++ b.written := by
  simp [joined, String.intercalate_cons_cons, String.intercalate_singleton]

theorem joined_cons (a : Component) {components : List Component} (h : components ≠ []) :
    joined (a :: components) = a.written ++ " " ++ joined components := by
  obtain ⟨b, more, rfl⟩ := List.exists_cons_of_ne_nil h
  simp [joined, String.intercalate_cons_cons]

theorem joined_nameAndTypeComponents (pool : Pool) (name descriptor : String) :
    joined (pool.nameAndTypeComponents name descriptor) =
      pool.nameAndTypeText name descriptor := by
  unfold nameAndTypeComponents nameAndTypeText
  conv_rhs => unfold referenceOr
  cases pool.number? (.nameAndType name descriptor) with
  | some number => exact String.intercalate_singleton
  | none =>
    have hpair := joined_pair (pool.component (.utf8 name) name)
      (pool.component (.utf8 descriptor) descriptor)
    rw [written_component, written_component] at hpair
    exact hpair

theorem nameAndTypeComponents_ne_nil (pool : Pool) (name descriptor : String) :
    pool.nameAndTypeComponents name descriptor ≠ [] := by
  unfold nameAndTypeComponents
  split <;> simp

theorem memberText_eq_joined (pool : Pool) (kind owner name descriptor : String) :
    pool.memberText kind owner name descriptor = kind ++ " " ++
      joined (pool.component (.class owner) owner ::
        pool.nameAndTypeComponents name descriptor) := by
  rw [joined_cons _ (nameAndTypeComponents_ne_nil pool name descriptor),
    joined_nameAndTypeComponents, written_component, memberText, classText]
  simp only [String.append_assoc]

-- ---------------------------------------------------------------------------
-- Definitions
-- ---------------------------------------------------------------------------

theorem utf8Text_inj (hagree : Agree pool pool' (.utf8 s) (.utf8 s'))
    (h : pool.utf8Text s = pool'.utf8Text s') : s = s' := by
  rw [utf8Text, utf8Text, ← written_component, ← written_component, written_inj] at h
  exact component_utf8_inj hagree h

theorem classText_inj (hagree : Agree pool pool' (.class s) (.class s'))
    (h : pool.classText s = pool'.classText s') : s = s' := by
  rw [classText, classText, ← written_component, ← written_component, written_inj] at h
  exact component_class_inj hagree h

/-- A definition starts with the kind of its constant, which ends before a space. -/
theorem takeWhile_definition (pool : Pool) (c : Constant) :
    (pool.definition c).toList.takeWhile (· != ' ') = c.kind.toList := by
  cases c <;> simp [definition, Constant.kind, memberText]

theorem kind_eq_of_definition (h : pool.definition c = pool'.definition c') : c.kind = c'.kind := by
  rw [← String.toList_inj, ← takeWhile_definition pool c, h, takeWhile_definition pool' c']

theorem definition_ne_reference (pool : Pool) (c : Constant) (n : Nat) :
    pool.definition c ≠ reference n := by
  intro h
  have hhead := congrArg (fun text => text.toList.head?) h
  cases c <;> simp [definition, memberText, reference] at hhead

theorem nameAndType_inj
    (hagree : ∀ p p', (Constant.nameAndType n d).Requires p →
      (Constant.nameAndType n' d').Requires p' → Agree pool pool' p p')
    (h : pool.definition (.nameAndType n d) = pool'.definition (.nameAndType n' d')) :
    n = n' ∧ d = d' := by
  have hpart : ∀ {n d s : String}, s ∈ [n, d] →
      (Constant.nameAndType n d).Requires (.utf8 s) := fun hs =>
    Constant.requires_part (by simpa [Constant.parts] using hs)
  have hjoined : ∀ (pool : Pool) (n d : String), pool.definition (.nameAndType n d) =
      "NameAndType " ++ joined [pool.component (.utf8 n) n, pool.component (.utf8 d) d] := by
    intro pool n d
    simp only [definition, utf8Text, joined_pair, written_component, String.append_assoc]
  rw [hjoined, hjoined, String.append_right_inj, joined_inj] at h
  simp only [List.cons.injEq, and_true] at h
  exact ⟨component_utf8_inj (hagree _ _ (hpart (by simp)) (hpart (by simp))) h.1,
    component_utf8_inj (hagree _ _ (hpart (by simp)) (hpart (by simp))) h.2⟩

theorem memberText_inj (hparts : c.parts = [.class o, .nameAndType n d])
    (hparts' : c'.parts = [.class o', .nameAndType n' d'])
    (hagree : ∀ p p', c.Requires p → c'.Requires p' → Agree pool pool' p p')
    (h : pool.memberText kind o n d = pool'.memberText kind o' n' d') :
    o = o' ∧ n = n' ∧ d = d' := by
  have hclass : c.Requires (.class o) := Constant.requires_part (by simp [hparts])
  have hclass' : c'.Requires (.class o') := Constant.requires_part (by simp [hparts'])
  have hboth : Constant.nameAndType n d ∈ c.parts := by simp [hparts]
  have hboth' : Constant.nameAndType n' d' ∈ c'.parts := by simp [hparts']
  have hinner : ∀ s ∈ [n, d], c.Requires (.utf8 s) := fun s hs =>
    Constant.requires_of_part hboth (Constant.requires_part (by simpa [Constant.parts] using hs))
  have hinner' : ∀ s ∈ [n', d'], c'.Requires (.utf8 s) := fun s hs =>
    Constant.requires_of_part hboth' (Constant.requires_part (by simpa [Constant.parts] using hs))
  rw [memberText_eq_joined, memberText_eq_joined, String.append_right_inj, joined_inj,
    List.cons.injEq] at h
  refine ⟨component_class_inj (hagree _ _ hclass hclass') h.1, ?_⟩
  exact nameAndTypeComponents_inj
    (hagree _ _ (Constant.requires_part hboth) (Constant.requires_part hboth'))
    (hagree _ _ (hinner n (by simp)) (hinner' n' (by simp)))
    (hagree _ _ (hinner d (by simp)) (hinner' d' (by simp))) h.2

/-- Definitions are told apart if the pools agree on what the constants refer to. -/
theorem definition_inj (hagree : ∀ p p', c.Requires p → c'.Requires p' → Agree pool pool' p p')
    (h : pool.definition c = pool'.definition c') : c.Alike c' := by
  have hkind := kind_eq_of_definition h
  cases c <;> cases c'
  case null.null => exact .inl rfl
  case utf8.utf8 s s' =>
    rw [definition, definition, String.append_right_inj, escape_inj] at h
    exact .inl (congrArg _ h)
  case int.int v v' =>
    rw [definition, definition, String.append_right_inj] at h
    have hvalue := intText_inj.mp (String.ofList_injective h)
    exact .inl (congrArg _ (Int32.toInt_inj.mp hvalue))
  case float.float x x' =>
    rw [definition, definition, String.append_right_inj] at h
    rcases Single.constantText_inj h with rfl | ⟨hx, hx'⟩
    · exact .inl rfl
    · exact .inr ⟨rfl, hx, hx'⟩
  case long.long v v' =>
    rw [definition, definition, String.append_left_inj, String.append_right_inj] at h
    have hvalue := intText_inj.mp (String.ofList_injective h)
    exact .inl (congrArg _ (Int64.toInt_inj.mp hvalue))
  case double.double x x' =>
    rw [definition, definition, String.append_right_inj] at h
    rcases Double.constantText_inj h with rfl | ⟨hx, hx'⟩
    · exact .inl rfl
    · exact .inr ⟨rfl, hx, hx'⟩
  case class.class s s' | string.string s s' =>
    have hpart := hagree (.utf8 s) (.utf8 s') (Constant.requires_part (by simp [Constant.parts]))
      (Constant.requires_part (by simp [Constant.parts]))
    rw [definition, definition, String.append_right_inj] at h
    exact .inl (congrArg _ (utf8Text_inj hpart h))
  case nameAndType.nameAndType n d n' d' =>
    obtain ⟨rfl, rfl⟩ := nameAndType_inj hagree h
    exact .inl rfl
  case field.field o n d o' n' d' | method.method o n d o' n' d' |
      interfaceMethod.interfaceMethod o n d o' n' d' =>
    obtain ⟨rfl, rfl, rfl⟩ := memberText_inj rfl rfl hagree h
    exact .inl rfl
  -- constants of two kinds
  all_goals simp [Constant.kind] at hkind

-- ---------------------------------------------------------------------------
-- Listings
-- ---------------------------------------------------------------------------

theorem WellFormed.entry_of_number (h : pool.WellFormed) (hnumber : pool.number? c = some n) :
    1 ≤ n ∧ pool.entries[n]? = some c := by
  rw [number?_eq_position? h] at hnumber
  exact (h.index c n).mp hnumber

/-- What a constant requires has smaller numbers than the constant. -/
theorem WellFormed.number_lt (h : pool.WellFormed) (hentry : pool.entries[n]? = some c)
    (hrequires : c.Requires p) (hnumber : pool.number? p = some k) : k < n := by
  obtain ⟨part, hpart, hneeds⟩ := hrequires
  obtain ⟨earlier, hlt, hearlier⟩ := h.parts c n hentry part hpart
  induction hneeds generalizing n c earlier with
  | @self part =>
    have hpos := h.position_pos (parts_ne_null hpart) hearlier
    have hposition := (h.index part earlier).mpr ⟨hpos, hearlier⟩
    rw [number?_eq_position? h, hposition] at hnumber
    cases hnumber
    exact hlt
  | part hinner _ ih =>
    obtain ⟨before, hbefore, hinnerEntry⟩ := h.parts _ earlier hearlier _ hinner
    exact Nat.lt_trans (ih hearlier hnumber hinner before hbefore hinnerEntry) hlt

theorem rows_eq_of_listing (h : pool.listing = pool'.listing) : pool.rows = pool'.rows := by
  have hrows : ∀ pool : Pool, lines (pool.listing ++ "") = pool.rows := by
    intro pool
    rw [lines_listing_append]
    exact List.append_nil _
  rw [← hrows pool, ← hrows pool', h]

theorem definition_eq_of_listing (h : pool.WellFormed) (h' : pool'.WellFormed)
    (hlisting : pool.listing = pool'.listing) (hpos : 1 ≤ n) (hentry : pool.entries[n]? = some c)
    (hentry' : pool'.entries[n]? = some c') : pool.definition c = pool'.definition c' := by
  have hrow := getElem?_rows h hpos hentry
  rw [rows_eq_of_listing hlisting, getElem?_rows h' hpos hentry', Option.some.injEq] at hrow
  exact ((String.append_right_inj _).mp hrow).symm

/-- A listing determines the constant at each position, by induction on positions: the lines of
what a constant requires come before its own. -/
theorem alike_of_listing (h : pool.WellFormed) (h' : pool'.WellFormed)
    (hlisting : pool.listing = pool'.listing) (hpos : 1 ≤ n) (hentry : pool.entries[n]? = some c)
    (hentry' : pool'.entries[n]? = some c') : c.Alike c' := by
  induction n using Nat.strongRecOn generalizing c c' with
  | ind n ih =>
    refine definition_inj (fun p p' hp hp' k hk hk' => ?_)
      (definition_eq_of_listing h h' hlisting hpos hentry hentry')
    have hlt := h.number_lt hentry hp hk
    obtain ⟨hkpos, hkentry⟩ := h.entry_of_number hk
    obtain ⟨-, hkentry'⟩ := h'.entry_of_number hk'
    exact (ih k hlt hkpos hkentry hkentry').eq hp.isNaN

theorem agree_of_listing (h : pool.WellFormed) (h' : pool'.WellFormed)
    (hlisting : pool.listing = pool'.listing) (hp : p.isNaN = false) :
    Agree pool pool' p p' := by
  intro n hn hn'
  obtain ⟨hpos, hentry⟩ := h.entry_of_number hn
  obtain ⟨-, hentry'⟩ := h'.entry_of_number hn'
  exact (alike_of_listing h h' hlisting hpos hentry hentry').eq hp

theorem operand_inj (h : pool.WellFormed) (h' : pool'.WellFormed)
    (hlisting : pool.listing = pool'.listing) (hoperand : pool.operand c = pool'.operand c') :
    c.Alike c' := by
  unfold operand referenceOr at hoperand
  split at hoperand
  · rename_i n hn
    split at hoperand
    · rename_i n' hn'
      obtain rfl : n = n' := by
        have hwritten : (Component.reference n).written = (Component.reference n').written :=
          hoperand
        simpa using written_inj.mp hwritten
      obtain ⟨hpos, hentry⟩ := h.entry_of_number hn
      obtain ⟨-, hentry'⟩ := h'.entry_of_number hn'
      exact alike_of_listing h h' hlisting hpos hentry hentry'
    · exact absurd hoperand.symm (definition_ne_reference _ _ _)
  · split at hoperand
    · exact absurd hoperand (definition_ne_reference _ _ _)
    · exact definition_inj (fun p p' hp _ => agree_of_listing h h' hlisting hp.isNaN) hoperand

/-- Whatever was done with a pool, no two constants have one definition or are one operand, in
the pool or not, unless both are no numbers. With the listing of the pool alone, an operand and
the texts of strings and classes determine what they stand for. -/
theorem text_determines_constant :
    (∀ steps c c', c ≠ c' → ¬c.BothNaN c' →
      let pool := empty.run steps
      pool.definition c ≠ pool.definition c' ∧ pool.operand c ≠ pool.operand c') ∧
    ∀ steps steps', (empty.run steps).listing = (empty.run steps').listing →
      let pool := empty.run steps
      let pool' := empty.run steps'
      (∀ c c', pool.definition c = pool'.definition c' ∨ pool.operand c = pool'.operand c' →
        c = c' ∨ c.BothNaN c') ∧
      (∀ s s', pool.utf8Text s = pool'.utf8Text s' → s = s') ∧
      ∀ s s', pool.classText s = pool'.classText s' → s = s' := by
  have hpool : ∀ steps, (empty.run steps).WellFormed := fun steps =>
    (run_extends steps wellFormed_empty).wellFormed
  have hboth : ∀ steps steps', (empty.run steps).listing = (empty.run steps').listing → ∀ c c',
      (empty.run steps).definition c = (empty.run steps').definition c' ∨
        (empty.run steps).operand c = (empty.run steps').operand c' → c.Alike c' := by
    rintro steps steps' hlisting c c' (h | h)
    · refine definition_inj (fun p p' hp _ => ?_) h
      exact agree_of_listing (hpool steps) (hpool steps') hlisting hp.isNaN
    · exact operand_inj (hpool steps) (hpool steps') hlisting h
  constructor
  · intro steps c c' hne hnumber pool
    constructor
    · exact fun h => (hboth steps steps rfl c c' (.inl h)).elim hne hnumber
    · exact fun h => (hboth steps steps rfl c c' (.inr h)).elim hne hnumber
  · intro steps steps' hlisting pool pool'
    have hagree : ∀ p p', p.isNaN = false → Agree pool pool' p p' := fun p p' =>
      agree_of_listing (hpool steps) (hpool steps') hlisting
    exact ⟨hboth steps steps' hlisting, fun s s' => utf8Text_inj (hagree _ _ rfl),
      fun s s' => classText_inj (hagree _ _ rfl)⟩

/-- A name in the pool beside a name that spells its reference, and a listing that does not show
how often a text was added. -/
theorem text_determines_constant_field :
    (Constant.field "P" "x" "I" ≠ .field "P" "#1" "I" ∧
      ¬(Constant.field "P" "x" "I").BothNaN (.field "P" "#1" "I") ∧
      (empty.run [.utf8 "x"]).definition (.field "P" "x" "I") ≠
        (empty.run [.utf8 "x"]).definition (.field "P" "#1" "I")) ∧
    (empty.run [.utf8 "x"]).listing = (empty.run [.utf8 "x", .utf8 "x"]).listing ∧
      (empty.run [.utf8 "x"]).utf8Text "x" = (empty.run [.utf8 "x", .utf8 "x"]).utf8Text "x" ∧
      ∀ s, (empty.run [.utf8 "x"]).utf8Text s = (empty.run [.utf8 "x", .utf8 "x"]).utf8Text "x" →
        s = "x" := by
  have hne : Constant.field "P" "x" "I" ≠ .field "P" "#1" "I" := by decide
  have hnumber : ¬(Constant.field "P" "x" "I").BothNaN (.field "P" "#1" "I") := by
    rintro ⟨-, hnan, -⟩
    cases hnan
  have hlisting : (empty.run [.utf8 "x"]).listing = (empty.run [.utf8 "x", .utf8 "x"]).listing := by
    decide +kernel
  have htexts := (text_determines_constant.2 _ _ hlisting).2.1
  exact ⟨⟨hne, hnumber, (text_determines_constant.1 _ _ _ hne hnumber).1⟩, hlisting,
    by decide +kernel, fun s => htexts s "x"⟩

end Pool

end ClassText
