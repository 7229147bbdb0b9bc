import ClassText.ClassFile.Wrap
import ClassText.Proofs.Pool.Invariant
import Mathlib.Data.Finset.Card

/-!
# What a pool holds

`contents_eq_closure`: a pool that is filled from nothing holds what the added constants need,
all of it and nothing else, so neither their order nor how often they were added matters. The
pool of a wrapped listing holds what the names of the class and the instructions need.

What a constant needs is written out in `Constant.needed`, which is what following its parts
finds (`mem_needed`). Both inclusions come from the invariant: a well-formed pool is closed under
parts, and adding a constant brings in only what that constant needs.
-/

namespace ClassText

namespace Constant

variable {c d : Constant} {cs cs' : List Constant}

/-- What a pool with a constant has to hold: the constant, what it refers to, and what that
refers to. Nothing stands for the null entry. -/
def needed (c : Constant) : List Constant :=
  match c with
  | .null => []
  | .utf8 _ | .int _ | .float _ | .long _ | .double _ => [c]
  | .class text | .string text => [c, .utf8 text]
  | .nameAndType name descriptor => [c, .utf8 name, .utf8 descriptor]
  | .field owner name descriptor | .method owner name descriptor
  | .interfaceMethod owner name descriptor =>
    [c, .class owner, .utf8 owner, .nameAndType name descriptor, .utf8 name, .utf8 descriptor]

/-- The constants of a list, with all that they need. -/
def closure (cs : List Constant) : Finset Constant :=
  (cs.flatMap needed).toFinset

theorem mem_closure : d ∈ closure cs ↔ ∃ c ∈ cs, d ∈ c.needed := by
  simp [closure]

theorem closure_congr (h : ∀ c, c ∈ cs ↔ c ∈ cs') : closure cs = closure cs' := by
  ext d
  simp only [mem_closure, h]

theorem mem_needed_iff (h : c ≠ .null) :
    d ∈ c.needed ↔ d = c ∨ ∃ part ∈ c.parts, d ∈ part.needed := by
  cases c with
  | null => exact absurd rfl h
  | _ => simp [needed, parts, or_assoc]

theorem needs_of_mem_needed {c d : Constant} (h : d ∈ c.needed) : d ≠ .null ∧ c.Needs d := by
  have hc : c ≠ .null := by
    rintro rfl
    simp [needed] at h
  rcases (mem_needed_iff hc).mp h with rfl | ⟨part, hpart, hd⟩
  · exact ⟨hc, .self⟩
  · obtain ⟨hnull, hneeds⟩ := needs_of_mem_needed hd
    exact ⟨hnull, .part hpart hneeds⟩
termination_by c.depth
decreasing_by exact depth_of_mem_parts hpart

theorem Needs.mem_needed (h : c.Needs d) (hnull : d ≠ .null) : d ∈ c.needed := by
  induction h with
  | self => exact (mem_needed_iff hnull).mpr (.inl rfl)
  | part hpart _ ih =>
    refine (mem_needed_iff ?_).mpr (.inr ⟨_, hpart, ih hnull⟩)
    rintro rfl
    simp [parts] at hpart

/-- The list says what following the references of a constant would find. -/
theorem mem_needed : d ∈ c.needed ↔ d ≠ .null ∧ c.Needs d :=
  ⟨needs_of_mem_needed, fun h => h.2.mem_needed h.1⟩

end Constant

/-- The constants that a class around a listing refers to: the class and its superclass, the
names and the descriptor that it consists of, and the constants of the instructions. -/
def WrapOptions.constants (options : WrapOptions) (instructions : List Instruction) :
    List Constant :=
  .class options.className :: options.superclass.toList.map .class ++
    ([options.methodName, "()V", "Code", "SourceFile", sourceFileName options.className].map
      .utf8) ++
    instructions.filterMap Constant.ofInstruction?

namespace Pool

variable {pool : Pool} {c d : Constant} {cs cs' : List Constant}

def contents (pool : Pool) : Finset Constant :=
  (pool.entries.filter (· ≠ .null)).toFinset

theorem mem_contents : c ∈ pool.contents ↔ c ∈ pool.entries ∧ c ≠ .null := by
  simp [contents]

theorem WellFormed.mem_of_needs (h : pool.WellFormed) (hneeds : c.Needs d)
    (hc : c ∈ pool.entries) : d ∈ pool.entries := by
  -- along the parts from `c` down to `d`
  induction hneeds with
  | self => exact hc
  | part hpart _ ih =>
    obtain ⟨n, hentry⟩ := List.mem_iff_getElem?.mp hc
    obtain ⟨earlier, -, hearlier⟩ := h.parts _ n hentry _ hpart
    exact ih (List.mem_of_getElem? hearlier)

theorem contents_addAll (cs : List Constant) :
    (empty.addAll cs).contents = Constant.closure cs := by
  obtain ⟨hgrown, hadded⟩ := addAll_extends cs wellFormed_empty
  ext d
  rw [mem_contents, Constant.mem_closure]
  constructor
  · rintro ⟨hd, hnull⟩
    rcases hgrown.new d hd with hold | ⟨c, hc, hneeds⟩
    · exact absurd (List.mem_singleton.mp hold) hnull
    · exact ⟨c, hc, hneeds.mem_needed hnull⟩
  · rintro ⟨c, hc, hd⟩
    obtain ⟨hnull, hneeds⟩ := Constant.mem_needed.mp hd
    exact ⟨hgrown.wellFormed.mem_of_needs hneeds (hadded c hc), hnull⟩

theorem WellFormed.size_eq_card (h : pool.WellFormed) : pool.size = pool.contents.card := by
  rw [contents, List.toFinset_card_of_nodup (h.nodup.filter _), size]

theorem size_addAll (cs : List Constant) :
    (empty.addAll cs).size = (Constant.closure cs).card := by
  rw [← contents_addAll]
  exact (addAll_extends cs wellFormed_empty).1.wellFormed.size_eq_card

/-- The constants in the order in which the pool is filled: those of the instructions come
before the name of the source file. -/
theorem ofListing_constants (options : WrapOptions) (instructions : List Instruction) :
    (ClassFile.ofListing options instructions).constants =
      .class options.className :: options.superclass.toList.map .class ++
        [.utf8 options.methodName, .utf8 "()V", .utf8 "Code"] ++
        instructions.filterMap Constant.ofInstruction? ++
        [.utf8 "SourceFile", .utf8 (sourceFileName options.className)] := by
  have hdescriptor : (Signature.mk [] [] .void).descriptor = "()V" := by decide
  have hsuperclass : (options.superclass.map ClassName.mk).toList.map (Constant.class ·.internal) =
      options.superclass.toList.map .class := by
    cases options.superclass with
    | none => rfl
    | some name => rfl
  simp [ClassFile.ofListing, ClassFile.fillPool, ClassFile.named, ClassFile.constants,
    Method.constants, Attribute.constants, Attribute.name, Attribute.operands,
    Code.ofInstructions, hdescriptor, hsuperclass]

theorem mem_ofListing_constants (options : WrapOptions) (instructions : List Instruction)
    (c : Constant) : c ∈ (ClassFile.ofListing options instructions).constants ↔
      c ∈ options.constants instructions := by
  rw [ofListing_constants, WrapOptions.constants]
  simp only [List.map_cons, List.map_nil, List.mem_append, List.mem_cons]
  grind

/-- After constants were added to an empty pool, its contents are exactly what they need, and it
counts so many. The same constants in another order or more often give the same contents. The
pool of a class around a listing has exactly what the constants of that class need. -/
theorem contents_eq_closure :
    (∀ cs, (empty.addAll cs).contents = Constant.closure cs ∧
      (empty.addAll cs).size = (Constant.closure cs).card) ∧
    (∀ cs cs', (∀ c, c ∈ cs ↔ c ∈ cs') →
      (empty.addAll cs).contents = (empty.addAll cs').contents ∧
        (empty.addAll cs).size = (empty.addAll cs').size) ∧
    ∀ options instructions,
      let pool := (ClassFile.ofListing options instructions).pool
      let needed := Constant.closure (options.constants instructions)
      pool.contents = needed ∧ pool.size = needed.card := by
  refine ⟨fun cs => ⟨contents_addAll cs, size_addAll cs⟩, ?_, ?_⟩
  · intro cs cs' hsame
    simp only [contents_addAll, size_addAll, Constant.closure_congr hsame, and_self]
  · intro options instructions
    have hpool : (ClassFile.ofListing options instructions).pool =
        empty.addAll (ClassFile.ofListing options instructions).constants := rfl
    have hneeded := Constant.closure_congr (mem_ofListing_constants options instructions)
    simp only [hpool, contents_addAll, size_addAll, hneeded, and_self]

/-- A method with the name of its class shares a text with it. -/
example : (Constant.closure [.method "A" "A" "()V", .null, .class "A", .utf8 "()V"]).card = 5 := by
  decide

end Pool

end ClassText
