import ClassText.ClassFile.Basic
import Mathlib.Order.Bounds.Basic

/-!
# Local variables of a code body

`locals_isLeast`: the local variable slots of a code body are as many as its loads and stores
need and no more, as long as a class file can state their number. Only an access to the last
slot that an instruction can name, or a wide one to the slot before it, needs more than that
(`lt_foldr_slotsOf_iff`, `locals_lt_needed`).

The slots are a maximum, which is taken for what it bounds: so many slots suffice if and only
if each instruction finds its own among them (`foldr_slotsOf_le_iff`).
-/

namespace ClassText

/-- The slots that a value of the type takes. -/
def ValueType.width (type : ValueType) : Nat :=
  if type = .primitive .long ∨ type = .primitive .double then 2 else 1

theorem ValueType.width_eq (type : ValueType) : type.width = if type.isWide then 2 else 1 := by
  cases type with
  | primitive kind => cases kind <;> simp [width, isWide]
  | _ => simp [width, isWide]

theorem ValueType.width_cases (type : ValueType) : type.width = 1 ∨ type.width = 2 := by
  unfold width
  split
  · exact .inr rfl
  · exact .inl rfl

/-- An instruction reads or writes the local variable of the type at the slot. -/
def Instruction.Accesses (i : Instruction) (slot : UInt16) (type : ValueType) : Prop :=
  i = .load slot type ∨ i = .store slot type

namespace Code

variable {n : Nat} {i : Instruction} {instructions : List Instruction}

/-- All local variables of the instructions are within the first `n` slots. -/
def FitsIn (n : Nat) (instructions : List Instruction) : Prop :=
  ∀ i ∈ instructions, ∀ slot type, i.Accesses slot type → slot.toNat + type.width ≤ n

theorem slotsOf_le_iff :
    slotsOf i ≤ n ↔ ∀ slot type, i.Accesses slot type → slot.toNat + type.width ≤ n := by
  cases i with
  | load slot type => simp [slotsOf, Instruction.Accesses, ValueType.width_eq]
  | store slot type => simp [slotsOf, Instruction.Accesses, ValueType.width_eq]
  | _ => simp [slotsOf, Instruction.Accesses]

theorem fitsIn_cons : FitsIn n (i :: instructions) ↔ slotsOf i ≤ n ∧ FitsIn n instructions := by
  rw [slotsOf_le_iff]
  exact List.forall_mem_cons

theorem foldr_slotsOf_le_iff :
    (instructions.map slotsOf).foldr max 0 ≤ n ↔ FitsIn n instructions := by
  induction instructions with
  | nil => simp [FitsIn]
  | cons i instructions ih => rw [fitsIn_cons, ← ih, List.map_cons, List.foldr_cons, Nat.max_le]

theorem isLeast_fitsIn (instructions : List Instruction) :
    IsLeast {n | FitsIn n instructions} ((instructions.map slotsOf).foldr max 0) :=
  ⟨foldr_slotsOf_le_iff.mp (le_refl _), fun _ h => foldr_slotsOf_le_iff.mpr h⟩

theorem toNat_locals (stack : UInt16) (instructions : List Instruction) :
    (ofInstructions stack instructions).locals.toNat =
      min ((instructions.map slotsOf).foldr max 0) 0xFFFF := by
  have hlt : localsOf instructions < 2 ^ 16 := by
    rw [localsOf]
    omega
  exact UInt16.toNat_ofNat_of_lt' hlt

theorem fitsIn_zero : FitsIn 0 instructions ↔ ∀ i ∈ instructions, ∀ slot type,
    ¬i.Accesses slot type := by
  have hpos : ∀ (slot : UInt16) (type : ValueType), ¬slot.toNat + type.width ≤ 0 := by
    intro slot type
    have hwidth := type.width_cases
    omega
  simp only [FitsIn, hpos, imp_false]

/-- The places that reach beyond the slots that a class file can state. -/
theorem lt_toNat_add_width {slot : UInt16} {type : ValueType} :
    0xFFFF < slot.toNat + type.width ↔ slot = 0xFFFF ∨ slot = 0xFFFE ∧ type.width = 2 := by
  have hlt := slot.toNat_lt
  have hwidth := type.width_cases
  simp only [← UInt16.toNat_inj, UInt16.reduceToNat]
  omega

theorem lt_foldr_slotsOf_iff : 0xFFFF < (instructions.map slotsOf).foldr max 0 ↔
    ∃ i ∈ instructions, ∃ slot type, i.Accesses slot type ∧
      (slot = 0xFFFF ∨ slot = 0xFFFE ∧ type.width = 2) := by
  rw [← Nat.not_le, foldr_slotsOf_le_iff]
  simp only [FitsIn, not_forall, exists_prop, Nat.not_le, lt_toNat_add_width]

/-- A code body has the least number of local variable slots that its loads and stores fit in,
which is none if there are no loads and stores; but at most 65535, the largest number that a
class file can state. It takes an access to the last slot, or a wide one to the slot before it,
to need more. -/
theorem locals_isLeast (stack : UInt16) (instructions : List Instruction) :
    (∃ least, IsLeast {n | FitsIn n instructions} least ∧
      (ofInstructions stack instructions).locals.toNat = min least 0xFFFF ∧
        (0xFFFF < least ↔ ∃ i ∈ instructions, ∃ slot type, i.Accesses slot type ∧
          (slot = 0xFFFF ∨ slot = 0xFFFE ∧ type.width = 2))) ∧
    ((ofInstructions stack instructions).locals = 0 ↔
      ∀ i ∈ instructions, ∀ slot type, ¬i.Accesses slot type) := by
  refine ⟨⟨_, isLeast_fitsIn instructions, toNat_locals stack instructions,
    lt_foldr_slotsOf_iff⟩, ?_⟩
  have hzero : min ((instructions.map slotsOf).foldr max 0) 0xFFFF = 0 ↔
      (instructions.map slotsOf).foldr max 0 ≤ 0 := by
    omega
  rw [← UInt16.toNat_inj, toNat_locals, ← fitsIn_zero, ← foldr_slotsOf_le_iff]
  exact hzero

/-- The last slot that an instruction can name is one too many. -/
theorem locals_lt_needed : (ofInstructions 0 [.load 0xFFFF .int]).locals = 0xFFFF ∧
    ¬IsLeast {n | FitsIn n [.load 0xFFFF .int]}
      (ofInstructions 0 [.load 0xFFFF .int]).locals.toNat := by
  have hlocals : (ofInstructions 0 [.load 0xFFFF .int]).locals = 0xFFFF := by decide
  refine ⟨hlocals, fun hleast => ?_⟩
  have hfits : FitsIn 0xFFFF [.load 0xFFFF .int] := by
    have hmem := hleast.1
    rwa [hlocals] at hmem
  have hslots : slotsOf (.load 0xFFFF .int) ≤ 0xFFFF := (fitsIn_cons.mp hfits).1
  exact absurd hslots (by decide)

end Code

end ClassText
