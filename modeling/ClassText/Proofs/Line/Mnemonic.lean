import ClassText.Line.Mnemonic
import ClassText.Number.Digits
import ClassText.Proofs.Line.Token

/-!
# The table of mnemonics

`ofMnemonic?_eq_some_iff`: a mnemonic names an operation if and only if the table has the two
in one row, as no mnemonic has two rows. The rows of a family are found by their types, and
the part of a mnemonic behind its underscore is its operand.
-/

namespace ClassText

def localTypes : List ValueType := Operation.localLetters.map (·.2)

def elementTypes : List ValueType := ValueType.prefixTable.map (·.2)

namespace Operation

open Token

variable {mnemonic stem : String} {operation : Operation} {type element : ValueType}

-- ---------------------------------------------------------------------------
-- Rows
-- ---------------------------------------------------------------------------

def hasLetter : Operation → Bool
  | .load type | .store type | .leave (some type) => type ∈ localTypes
  | .arrayLoad element | .arrayStore element => element ∈ elementTypes
  | _ => true

/-- What holds of every row, checked row by row: the mnemonic has no other row before it, it is
a token without quotes and no label, and the operation is on a type that has a letter. -/
theorem checked_row : ∀ row ∈ table, ofMnemonic? row.1 = some row.2 ∧
    (row.1 ≠ "" ∧ plain row.1.toList = true ∧ ':' ∉ row.1.toList) ∧ row.2.hasLetter = true := by
  decide +kernel

theorem ofMnemonic?_eq_some_iff :
    ofMnemonic? mnemonic = some operation ↔ (mnemonic, operation) ∈ table := by
  constructor
  · intro h
    obtain ⟨before, after, htable, -⟩ := List.lookup_eq_some_iff.mp h
    simp [htable]
  · intro h
    exact (checked_row _ h).1

theorem spelling_of_mem_table (row) (h : row ∈ table) :
    row.1 ≠ "" ∧ plain row.1.toList = true ∧ ':' ∉ row.1.toList :=
  (checked_row row h).2.1

theorem hasLetter_of_mem_table (row) (h : row ∈ table) : row.2.hasLetter = true :=
  (checked_row row h).2.2

theorem ofMnemonic?_eq_none_of_colon (h : ':' ∈ mnemonic.toList) :
    ofMnemonic? mnemonic = none := by
  refine List.lookup_eq_none_iff.mpr fun row hrow => ?_
  have hcolon := (spelling_of_mem_table row hrow).2.2
  rw [bne_iff_ne]
  rintro rfl
  exact hcolon h

theorem ofMnemonic?_goto : ofMnemonic? "goto" = none := by decide +kernel

-- ---------------------------------------------------------------------------
-- Families
-- ---------------------------------------------------------------------------

theorem mem_localLetters (h : type ∈ localTypes) : (type.localPrefix, type) ∈ localLetters := by
  obtain ⟨⟨letter, type⟩, hmem, rfl⟩ := List.mem_map.mp h
  obtain ⟨hrow, hletter⟩ := List.mem_filter.mp hmem
  rw [beq_iff_eq] at hletter
  exact hletter ▸ hmem

theorem mem_localMnemonics {make : ValueType → Operation} (h : type ∈ localTypes)
    (hslot : slot ∈ ["", "_0", "_1", "_2", "_3"]) :
    (type.localPrefix.toString ++ stem ++ slot, make type) ∈ localMnemonics stem make := by
  refine List.mem_flatMap.mpr ⟨_, mem_localLetters h, ?_⟩
  exact List.mem_map.mpr ⟨slot, hslot, rfl⟩

theorem mem_arrayMnemonics {make : ValueType → Operation} (h : element ∈ elementTypes) :
    (element.arrayPrefix.toString ++ stem, make element) ∈ arrayMnemonics stem make := by
  have hletters : ∀ row ∈ ValueType.prefixTable, row.1 = row.2.arrayPrefix := by decide
  obtain ⟨row, hrow, rfl⟩ := List.mem_map.mp h
  refine List.mem_map.mpr ⟨row, hrow, ?_⟩
  simp [hletters row hrow]

/-- The mnemonics of an operation on local variables, the first four slots of which are fused. -/
def NamesLocal (stem : String) (operation : Operation) : Prop :=
  ofMnemonic? stem = some operation ∧ ∀ n < 4,
    ofMnemonic? (stem ++ "_" ++ String.ofList (natText n)) = some operation ∧
      fusedOperand (stem ++ "_" ++ String.ofList (natText n)) = some (natText n)

theorem fusedOperand_of_split {before cs : List Char}
    (htext : mnemonic.toList = before ++ '_' :: cs) (h : '_' ∉ before) :
    fusedOperand mnemonic = some cs := by
  rw [fusedOperand, splitAtFirst_eq_some_iff.mpr ⟨htext, h⟩, Option.map_some]

theorem namesLocal {make : ValueType → Operation} (h : type ∈ localTypes)
    (hstem : '_' ∉ stem.toList) (htable : ∀ row ∈ localMnemonics stem make, row ∈ table) :
    NamesLocal (type.localPrefix.toString ++ stem) (make type) := by
  have hslots : ∀ n < 4, "_" ++ String.ofList (natText n) ∈ ["", "_0", "_1", "_2", "_3"] := by
    decide
  have hletter : ∀ row ∈ ValueType.prefixTable, row.1 ≠ '_' := by decide
  have hplain : '_' ∉ (type.localPrefix.toString ++ stem).toList := by
    have hrow := (List.mem_filter.mp (mem_localLetters h)).1
    simpa [hstem] using (hletter _ hrow).symm
  have hname : ∀ slot ∈ ["", "_0", "_1", "_2", "_3"],
      ofMnemonic? (type.localPrefix.toString ++ stem ++ slot) = some (make type) :=
    fun slot hslot => ofMnemonic?_eq_some_iff.mpr (htable _ (mem_localMnemonics h hslot))
  constructor
  · simpa using hname "" (by simp)
  · intro n hn
    refine ⟨?_, fusedOperand_of_split (by simp) hplain⟩
    rw [String.append_assoc]
    exact hname _ (hslots n hn)

theorem namesLocal_load (h : type ∈ localTypes) :
    NamesLocal (type.localPrefix.toString ++ "load") (.load type) :=
  namesLocal h (by decide) fun row hrow => by simp only [table, List.mem_append, hrow, true_or]

theorem namesLocal_store (h : type ∈ localTypes) :
    NamesLocal (type.localPrefix.toString ++ "store") (.store type) :=
  namesLocal h (by decide) fun row hrow => by
    simp only [table, List.mem_append, hrow, true_or, or_true]

theorem ofMnemonic?_return (h : type ∈ localTypes) :
    ofMnemonic? (type.localPrefix.toString ++ "return") = some (.leave (some type)) := by
  apply ofMnemonic?_eq_some_iff.mpr
  apply List.mem_append_left
  apply List.mem_append_left
  apply List.mem_append_right
  exact List.mem_map.mpr ⟨_, mem_localLetters h, rfl⟩

theorem ofMnemonic?_arrayLoad (h : element ∈ elementTypes) :
    ofMnemonic? (element.arrayPrefix.toString ++ "aload") = some (.arrayLoad element) := by
  apply ofMnemonic?_eq_some_iff.mpr
  simp only [table, List.mem_append, mem_arrayMnemonics h, true_or, or_true]

theorem ofMnemonic?_arrayStore (h : element ∈ elementTypes) :
    ofMnemonic? (element.arrayPrefix.toString ++ "astore") = some (.arrayStore element) := by
  apply ofMnemonic?_eq_some_iff.mpr
  simp only [table, List.mem_append, mem_arrayMnemonics h, true_or, or_true]

theorem ofMnemonic?_iconst (h : n < 6) :
    ofMnemonic? ("iconst_" ++ String.ofList (natText n)) = some .pushInt ∧
      fusedOperand ("iconst_" ++ String.ofList (natText n)) = some (natText n) := by
  have hdigits : ∀ n < 6, String.ofList (natText n) ∈ ["m1", "0", "1", "2", "3", "4", "5"] := by
    decide
  have hrow := List.mem_map_of_mem (f := fun value => ("iconst_" ++ value, Operation.pushInt))
    (hdigits n h)
  have htext : ("iconst_" ++ String.ofList (natText n)).toList =
      "iconst".toList ++ '_' :: natText n := by
    simp
  refine ⟨ofMnemonic?_eq_some_iff.mpr ?_, fusedOperand_of_split htext (by decide)⟩
  simp only [table, List.mem_append, hrow, true_or, or_true]

theorem ofMnemonic?_leave : ofMnemonic? "return" = some (.leave none) :=
  ofMnemonic?_eq_some_iff.mpr (by simp [table])

theorem ofMnemonic?_iconst_m1 : ofMnemonic? "iconst_m1" = some .pushInt :=
  ofMnemonic?_eq_some_iff.mpr (by simp [table])

theorem ofMnemonic?_bipush : ofMnemonic? "bipush" = some .pushInt :=
  ofMnemonic?_eq_some_iff.mpr (by simp [table])

theorem ofMnemonic?_sipush : ofMnemonic? "sipush" = some .pushInt :=
  ofMnemonic?_eq_some_iff.mpr (by simp [table])

theorem ofMnemonic?_ldc : ofMnemonic? "ldc" = some .pushPooled :=
  ofMnemonic?_eq_some_iff.mpr (by simp [table])

theorem ofMnemonic?_lconst (h : n < 2) :
    ofMnemonic? ("lconst_" ++ String.ofList (natText n)) = some .pushLong ∧
      fusedOperand ("lconst_" ++ String.ofList (natText n)) = some (natText n) := by
  have hdigits : ∀ n < 2, "lconst_" ++ String.ofList (natText n) = "lconst_0" ∨
      "lconst_" ++ String.ofList (natText n) = "lconst_1" := by decide
  have htext : ("lconst_" ++ String.ofList (natText n)).toList =
      "lconst".toList ++ '_' :: natText n := by
    simp
  refine ⟨ofMnemonic?_eq_some_iff.mpr ?_, fusedOperand_of_split htext (by decide)⟩
  rcases hdigits n h with hn | hn
  · simp [hn, table]
  · simp [hn, table]

end Operation

end ClassText
