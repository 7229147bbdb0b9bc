import ClassText.ClassFile.Text
import ClassText.Proofs.Pool.Listing

/-!
# A filled class refers to its pool

`fillPool_resolved`: after the pool of a class was filled, the operands of all attributes are
written as references, on each of the levels where attributes can stand, and the line with
the number of a reference defines the constant that is meant. The constants of all
instructions are in the pool. Filling it once more, also after the class has grown, moves none
of them.

The text and the pool go through the class separately; they meet in `placed`, the list of all
attributes with their levels.
-/

namespace ClassText.ClassFile

variable {c : ClassFile} {a : Attribute} {level : Nat}

/-- The attributes of a class, its fields and its methods, with their levels in the text. -/
def placed (c : ClassFile) : List (Nat × Attribute) :=
  c.attributes.map (0, ·) ++ c.fields.flatMap (·.attributes.map (1, ·)) ++
    c.methods.flatMap (·.attributes.map (1, ·))

/-- A number refers to a constant: the pool has it at that position, and so many lines into
the text it is defined under that number. -/
structure Refers (c : ClassFile) (number : Nat) (constant : Constant) : Prop where
  pos : 1 ≤ number
  entry : c.pool.entries[number]? = some constant
  line : (lines c.text)[number - 1]? =
    some (Pool.reference number ++ "\t" ++ c.pool.definition constant)

/-- A directive stands in the text of a class, on lines of its own. -/
def Writes (c : ClassFile) (level : Nat) (directive : String) : Prop :=
  ∃ before after, c.text = before ++ "\n" ++ (indent level ++ directive ++ "\n") ++ after

/-- The operands of a directive are references to the right constants. -/
def Resolves (c : ClassFile) (level : Nat) (a : Attribute) : Prop :=
  match a with
  | .constantValue value => value = .null ∨ ∃ number, c.Refers number value ∧
      a.directive c.pool level = ".constantvalue " ++ Pool.reference number
  | .exceptions classes => ∃ number : ClassName → Nat,
      (∀ name ∈ classes, c.Refers (number name) (.class name.internal)) ∧
        a.directive c.pool level = ".exceptions" ++
          String.join (classes.map fun name => " " ++ Pool.reference (number name))
  | .signature text => ∃ number, c.Refers number (.utf8 text) ∧
      a.directive c.pool level = ".signature " ++ Pool.reference number
  | .sourceFile name => ∃ number, c.Refers number (.utf8 name) ∧
      a.directive c.pool level = ".sourcefile " ++ Pool.reference number
  | .code _ | .deprecated | .synthetic => True

-- ---------------------------------------------------------------------------
-- Where attributes are written
-- ---------------------------------------------------------------------------

theorem join_split {f : α → String} {xs : List α} (h : x ∈ xs) :
    ∃ before after, String.join (xs.map f) = before ++ f x ++ after := by
  obtain ⟨earlier, later, rfl⟩ := List.append_of_mem h
  refine ⟨String.join (earlier.map f), String.join (later.map f), ?_⟩
  simp [String.append_assoc]

/-- An attribute starts a line of its own if the text before the attributes ends one. -/
theorem texts_split {attributes : List Attribute} (pool : Pool) (level : Nat) (h : a ∈ attributes)
    (start : String) : ∃ before after,
      start ++ "\n" ++ Attribute.texts pool level attributes =
        before ++ "\n" ++ (indent level ++ a.directive pool level ++ "\n") ++ after := by
  induction attributes generalizing start with
  | nil => cases h
  | cons b attributes ih =>
    have htexts : Attribute.texts pool level (b :: attributes) =
        indent level ++ b.directive pool level ++ "\n" ++
          Attribute.texts pool level attributes := by
      simp [Attribute.texts, Attribute.text]
    rw [htexts]
    rcases List.mem_cons.mp h with rfl | h
    · refine ⟨start, Attribute.texts pool level attributes, ?_⟩
      simp only [String.append_assoc]
    · obtain ⟨before, after, heq⟩ :=
        ih h (start ++ "\n" ++ (indent level ++ b.directive pool level))
      refine ⟨before, after, ?_⟩
      rw [← heq]
      simp only [String.append_assoc]

theorem writes_of_text {attributes : List Attribute} (h : a ∈ attributes) (start rest : String)
    (htext : c.text = start ++ "\n" ++ Attribute.texts c.pool level attributes ++ rest) :
    c.Writes level (a.directive c.pool level) := by
  obtain ⟨before, after, heq⟩ := texts_split c.pool level h start
  refine ⟨before, after ++ rest, ?_⟩
  rw [htext, heq]
  simp only [String.append_assoc]

theorem writes_of_class (h : a ∈ c.attributes) : c.Writes 0 (a.directive c.pool 0) := by
  obtain ⟨start, hstart⟩ : ∃ start, c.header = start ++ "\n" := ⟨_, rfl⟩
  refine writes_of_text h (c.pool.listing ++ "\n" ++ start)
    (" \x7b\n" ++ c.fieldsText ++ c.methodsText ++ "\x7d\n") ?_
  rw [text, hstart]
  simp only [String.append_assoc]

theorem writes_of_field (hf : f ∈ c.fields) (h : a ∈ f.attributes) :
    c.Writes 1 (a.directive c.pool 1) := by
  obtain ⟨start, hstart⟩ : ∃ start, f.text c.pool 1 =
      start ++ "\n" ++ Attribute.texts c.pool 1 f.attributes := by
    refine ⟨indent 1 ++ Modifier.keywords f.modifiers ++ f.type.sourceForm ++ " " ++ f.name ++ ";",
      ?_⟩
    simp [Field.text, ← String.toList_inj]
  obtain ⟨before, after, hsplit⟩ := join_split (f := Field.text c.pool 1) hf
  refine writes_of_text h (c.pool.listing ++ "\n" ++ c.header ++
    Attribute.texts c.pool 0 c.attributes ++ " \x7b\n" ++ before ++ start)
    (after ++ (if c.fields.isEmpty then "" else "\n") ++ c.methodsText ++ "\x7d\n") ?_
  rw [text, fieldsText, hsplit, hstart]
  simp only [String.append_assoc]

theorem writes_of_method (hm : m ∈ c.methods) (h : a ∈ m.attributes) :
    c.Writes 1 (a.directive c.pool 1) := by
  obtain ⟨start, hstart⟩ : ∃ start, m.text c.pool 1 =
      start ++ "\n" ++ Attribute.texts c.pool 1 m.attributes := by
    refine ⟨indent 1 ++ Modifier.keywords m.modifiers ++ m.signature.parameterClause ++
      m.signature.result.sourceForm ++ " " ++ m.name ++ "(" ++
      ", ".intercalate (m.signature.parameters.map ValueType.sourceForm) ++ ");", ?_⟩
    simp [Method.text, ← String.toList_inj]
  obtain ⟨before, after, hsplit⟩ := join_split (f := fun m => Method.text c.pool 1 m ++ "\n") hm
  refine writes_of_text h (c.pool.listing ++ "\n" ++ c.header ++
    Attribute.texts c.pool 0 c.attributes ++ " \x7b\n" ++ c.fieldsText ++ before ++ start)
    ("\n" ++ after ++ "\x7d\n") ?_
  rw [text, methodsText, hsplit, hstart]
  simp only [String.append_assoc]

theorem mem_placed : (level, a) ∈ c.placed ↔ level = 0 ∧ a ∈ c.attributes ∨
    level = 1 ∧ ((∃ f ∈ c.fields, a ∈ f.attributes) ∨ ∃ m ∈ c.methods, a ∈ m.attributes) := by
  simp only [placed, List.mem_append, List.mem_map, List.mem_flatMap, Prod.mk.injEq]
  grind

theorem writes_of_placed (h : (level, a) ∈ c.placed) :
    c.Writes level (a.directive c.pool level) := by
  rcases mem_placed.mp h with ⟨rfl, ha⟩ | ⟨rfl, ⟨f, hf, ha⟩ | ⟨m, hm, ha⟩⟩
  · exact writes_of_class ha
  · exact writes_of_field hf ha
  · exact writes_of_method hm ha

-- ---------------------------------------------------------------------------
-- What attributes refer to
-- ---------------------------------------------------------------------------

theorem mem_constants (h : (level, a) ∈ c.placed) (hk : k ∈ a.constants) : k ∈ c.constants := by
  simp only [constants, List.mem_append, List.mem_flatMap]
  rcases mem_placed.mp h with ⟨-, ha⟩ | ⟨-, ⟨f, hf, ha⟩ | ⟨m, hm, ha⟩⟩
  · exact .inr ⟨a, ha, hk⟩
  · refine .inl (.inl (.inr ⟨f, hf, ?_⟩))
    exact List.mem_cons_of_mem _ (List.mem_cons_of_mem _ (List.mem_flatMap.mpr ⟨a, ha, hk⟩))
  · refine .inl (.inr ⟨m, hm, ?_⟩)
    exact List.mem_cons_of_mem _ (List.mem_cons_of_mem _ (List.mem_flatMap.mpr ⟨a, ha, hk⟩))

structure Filled (c : ClassFile) : Prop where
  wellFormed : c.pool.WellFormed
  entries : ∀ k ∈ c.constants, k ∈ c.pool.entries

theorem filled_fillPool (h : c.pool.WellFormed) : c.fillPool.Filled := by
  obtain ⟨hgrown, hmem⟩ := Pool.addAll_extends c.constants h
  exact ⟨hgrown.wellFormed, hmem⟩

def numberOf (c : ClassFile) (constant : Constant) : Nat :=
  (c.pool.position? constant).getD 0

theorem Filled.refers (h : c.Filled) (hk : k ∈ c.constants) (hnull : k ≠ .null) :
    c.Refers (c.numberOf k) k ∧
      ∀ inline, c.pool.referenceOr k inline = Pool.reference (c.numberOf k) := by
  obtain ⟨number, hposition⟩ := h.wellFormed.position?_of_mem hnull (h.entries k hk)
  obtain ⟨hpos, hentry⟩ := (h.wellFormed.index k number).mp hposition
  have hnumber : c.numberOf k = number := by rw [numberOf, hposition, Option.getD_some]
  have htext : ∃ rest, c.text = c.pool.listing ++ rest := by
    rw [text]
    simp only [String.append_assoc]
    exact ⟨_, rfl⟩
  obtain ⟨rest, hrest⟩ := htext
  have hline := Pool.getElem?_lines h.wellFormed hpos hentry rest
  rw [← hrest] at hline
  rw [hnumber]
  exact ⟨⟨hpos, hentry, hline⟩, Pool.referenceOr_eq h.wellFormed hposition⟩

theorem Filled.resolves (h : c.Filled) (ha : (level, a) ∈ c.placed) : c.Resolves level a := by
  have hrefers : ∀ k ∈ a.operands, k ≠ .null → c.Refers (c.numberOf k) k ∧
      ∀ inline, c.pool.referenceOr k inline = Pool.reference (c.numberOf k) := fun k hk =>
    h.refers (mem_constants ha (List.mem_cons_of_mem _ hk))
  cases a with
  | constantValue value =>
    by_cases hnull : value = .null
    · exact .inl hnull
    · obtain ⟨hnumber, hreference⟩ := hrefers value List.mem_cons_self hnull
      refine .inr ⟨_, hnumber, ?_⟩
      show ".constantvalue " ++ c.pool.operand value = _
      rw [Pool.operand, hreference]
  | exceptions classes =>
    have hclass : ∀ name ∈ classes, _ := fun name hname =>
      hrefers (.class name.internal) (List.mem_map_of_mem hname) (by rintro ⟨⟩)
    refine ⟨fun name => c.numberOf (.class name.internal),
      fun name hname => (hclass name hname).1, ?_⟩
    have htexts : (classes.map fun name => " " ++ c.pool.classText name.internal) =
        classes.map fun name => " " ++ Pool.reference (c.numberOf (.class name.internal)) := by
      refine List.map_congr_left fun name hname => ?_
      rw [Pool.classText, (hclass name hname).2]
    show ".exceptions" ++ String.join (classes.map fun name =>
      " " ++ c.pool.classText name.internal) = _
    rw [htexts]
  | signature text =>
    obtain ⟨hnumber, hreference⟩ := hrefers (.utf8 text) List.mem_cons_self (by rintro ⟨⟩)
    refine ⟨_, hnumber, ?_⟩
    show ".signature " ++ c.pool.utf8Text text = _
    rw [Pool.utf8Text, hreference]
  | sourceFile name =>
    obtain ⟨hnumber, hreference⟩ := hrefers (.utf8 name) List.mem_cons_self (by rintro ⟨⟩)
    refine ⟨_, hnumber, ?_⟩
    show ".sourcefile " ++ c.pool.utf8Text name = _
    rw [Pool.utf8Text, hreference]
  | code body => trivial
  | deprecated => trivial
  | synthetic => trivial

theorem Filled.mem_of_instruction (h : c.Filled) (hbody : (level, .code body) ∈ c.placed)
    (hi : i ∈ body.instructions) (hk : Constant.ofInstruction? i = some k) :
    k ∈ c.pool.entries := by
  refine h.entries k (mem_constants hbody (List.mem_cons_of_mem _ ?_))
  exact List.mem_filterMap.mpr ⟨i, hi, hk⟩

-- ---------------------------------------------------------------------------
-- Filling the pool again
-- ---------------------------------------------------------------------------

theorem Filled.fillPool_eq (h : c.Filled) : c.fillPool = c := by
  rw [fillPool, Pool.addAll_eq_self h.wellFormed h.entries]

/-- A class that takes over a pool keeps all its entries where they are. -/
theorem fillPool_extends (h : c.pool.WellFormed) :
    c.pool.entries <+: c.fillPool.pool.entries ∧
      ∀ k number, c.pool.position? k = some number →
        c.fillPool.pool.position? k = some number := by
  have hgrown := (Pool.addAll_extends c.constants h).1
  exact ⟨hgrown.entries, fun k number hposition => hgrown.position? h hposition⟩

/-- After its pool was filled, whatever was in it before, a class is written with references to
the right constants in place of all operands of its attributes. The pool has the constants of
all instructions and is not changed by filling it again. It keeps all positions when it is
filled for another class, such as the same one with more attributes, fields and methods. -/
theorem fillPool_resolved (c : ClassFile) (steps : List Pool.Step) :
    let d := { c with pool := Pool.empty.run steps }.fillPool
    (∀ place ∈ d.placed, d.Writes place.1 (place.2.directive d.pool place.1) ∧
      d.Resolves place.1 place.2) ∧
    (∀ place ∈ d.placed, ∀ body, place.2 = .code body → ∀ i ∈ body.instructions,
      ∀ k, Constant.ofInstruction? i = some k → k ∈ d.pool.entries) ∧
    d.fillPool = d ∧
    ∀ grown : ClassFile,
      let e := { grown with pool := d.pool }.fillPool
      d.pool.entries <+: e.pool.entries ∧
        ∀ k number, d.pool.position? k = some number → e.pool.position? k = some number := by
  intro d
  have hpool := (Pool.run_extends steps Pool.wellFormed_empty).wellFormed
  have hfilled : d.Filled := filled_fillPool hpool
  refine ⟨?_, ?_, hfilled.fillPool_eq, ?_⟩
  · intro place hplace
    exact ⟨writes_of_placed hplace, hfilled.resolves hplace⟩
  · rintro ⟨level, a⟩ hplace body hbody i hi k hk
    cases hbody
    exact hfilled.mem_of_instruction hplace hi hk
  · intro grown
    exact fillPool_extends (c := { grown with pool := d.pool }) hfilled.wellFormed

end ClassText.ClassFile
