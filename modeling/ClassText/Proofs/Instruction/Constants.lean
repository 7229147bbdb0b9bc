import ClassText.Pool.Basic
import ClassText.Proofs.Line.RoundTrip
import ClassText.Proofs.Pool.Invariant

/-!
# Constants of instructions and their lines

`constant_iff_text`: an instruction refers to a constant of the pool if and only if its
canonical line starts with the mnemonic of an operation that does so. Two such lines that start
alike are the same if and only if their constants are, so that the pool has one entry for
operands that are written alike and several for others.

Behind the mnemonic stands the operand that is written for the constant alone
(`text_of_constant`). What is left is that the operand determines the constant: of members, as
the class has no dot and the name no colon (`memberLine_inj`), and of pushed constants, as their
lines are read back.
-/

namespace ClassText

open Descriptor Instruction Operation Token

variable {i j : Instruction} {c d : Constant} {mnemonic stem : String} {operation : Operation}

/-- The first token of a line. -/
def Token.leading? (line : String) : Option String := (scan line).head?.map Token.text

/-- The mnemonic of operations that refer to the pool: `ldc`, or one on fields or methods. -/
def NamesConstant (mnemonic : String) : Prop :=
  mnemonic = "ldc" ∨ ∃ operation, Operation.ofMnemonic? mnemonic = some operation ∧
    (operation.family = .field ∨ operation.family = .invoke)

def Operation.usesPool : Operation → Bool
  | .getField _ | .putField _ | .invoke _ | .pushPooled => true
  | _ => false

/-- The operand that is written for a constant. -/
def Constant.operandText : Constant → String
  | .field owner name descriptor | .method owner name descriptor
  | .interfaceMethod owner name descriptor => memberText ⟨owner⟩ name descriptor
  | .string value => "\"" ++ value ++ "\""
  | .float value => value.operandText
  | .long value => String.ofList (intText value.toInt)
  | _ => ""

namespace Instruction

/-- The mnemonic of an instruction that refers to a constant. -/
def poolMnemonic : Instruction → String
  | .invoke mode _ _ _ => mode.mnemonic
  | .getField scope _ _ _ => getMnemonic scope
  | .putField scope _ _ _ => putMnemonic scope
  | _ => "ldc"

def poolOperation : Instruction → Operation
  | .invoke mode _ _ _ => .invoke mode
  | .getField scope _ _ _ => .getField scope
  | .putField scope _ _ _ => .putField scope
  | _ => .pushPooled

-- ---------------------------------------------------------------------------
-- First tokens
-- ---------------------------------------------------------------------------

theorem leading?_bare (h : ofMnemonic? mnemonic = some operation) :
    leading? mnemonic = some mnemonic := by
  obtain ⟨hne, hplain, -⟩ := spelling_of_mem_table _ (ofMnemonic?_eq_some_iff.mp h)
  rw [leading?, scan, scanFrom_token (whole_of_plain hne hplain)]
  rfl

theorem leading?_before (hne : mnemonic ≠ "") (hplain : plain mnemonic.toList = true)
    (operand : String) : leading? (mnemonic ++ " " ++ operand) = some mnemonic := by
  have htext : (mnemonic ++ " " ++ operand).toList = mnemonic.toList ++ ' ' :: operand.toList := by
    simp
  rw [leading?, scan, htext, scanFrom_whole_blank (whole_of_plain hne hplain)
    (endsQuoted_of_plain hplain) (by decide), String.ofList_toList]
  rfl

theorem leading?_operand (h : ofMnemonic? mnemonic = some operation) (operand : String) :
    leading? (mnemonic ++ " " ++ operand) = some mnemonic := by
  obtain ⟨hne, hplain, -⟩ := spelling_of_mem_table _ (ofMnemonic?_eq_some_iff.mp h)
  exact leading?_before hne hplain operand

-- ---------------------------------------------------------------------------
-- Lines with a constant
-- ---------------------------------------------------------------------------

theorem ofMnemonic?_poolMnemonic (i : Instruction) :
    ofMnemonic? i.poolMnemonic = some i.poolOperation := by
  cases i with
  | invoke mode owner name signature => exact invoke_mnemonics mode
  | getField scope owner name type => exact (field_mnemonics scope).1
  | putField scope owner name type => exact (field_mnemonics scope).2
  | _ => exact ofMnemonic?_ldc

theorem namesConstant_poolMnemonic (i : Instruction) : NamesConstant i.poolMnemonic := by
  cases i with
  | invoke mode owner name signature => exact .inr ⟨_, invoke_mnemonics mode, .inr rfl⟩
  | getField scope owner name type => exact .inr ⟨_, (field_mnemonics scope).1, .inl rfl⟩
  | putField scope owner name type => exact .inr ⟨_, (field_mnemonics scope).2, .inl rfl⟩
  | _ => exact .inl rfl

theorem longText_of_pooled {value : Int64} (h : ¬(value = 0 ∨ value = 1)) :
    Literal.longText value.toInt = "ldc " ++ String.ofList (intText value.toInt) := by
  have hlarge : ¬(0 ≤ value.toInt ∧ value.toInt ≤ 1) := by
    intro hsmall
    have hcases : value.toInt = 0 ∨ value.toInt = 1 := by omega
    exact h (hcases.imp Int64.toInt_inj.mp Int64.toInt_inj.mp)
  rw [Literal.longText, if_neg hlarge]

/-- The line consists of the mnemonic and of what is written for the constant. -/
theorem text_of_constant (h : Constant.ofInstruction? i = some c) :
    i.text = i.poolMnemonic ++ " " ++ c.operandText := by
  cases i with
  | invoke mode owner name signature => cases mode <;> cases h <;> rfl
  | getField scope owner name type =>
    cases h
    exact getField_text
  | putField scope owner name type =>
    cases h
    exact putField_text
  | push value =>
    cases value with
    | int value => cases h
    | long value =>
      simp only [Constant.ofInstruction?] at h
      split at h
      · cases h
      · rename_i hlarge
        cases h
        exact longText_of_pooled hlarge
    | float value =>
      cases h
      rfl
    | string value =>
      cases h
      simp [text, Literal.text, poolMnemonic, Constant.operandText, ← String.toList_inj]
  | _ => cases h

theorem leading?_of_constant (h : Constant.ofInstruction? i = some c) :
    leading? i.text = some i.poolMnemonic := by
  rw [text_of_constant h]
  exact leading?_operand (ofMnemonic?_poolMnemonic i) _

-- ---------------------------------------------------------------------------
-- Lines without a constant
-- ---------------------------------------------------------------------------

/-- A line starts with a token that is not the mnemonic of an operation on the pool. -/
def NamesNoConstant (line : String) : Prop :=
  ∃ first, leading? line = some first ∧ ¬NamesConstant first

theorem not_namesConstant (h : ofMnemonic? mnemonic = some operation)
    (hpool : operation.usesPool = false) : ¬NamesConstant mnemonic := by
  rintro (rfl | ⟨other, hother, hfamily⟩)
  · rw [ofMnemonic?_ldc] at h
    cases h
    cases hpool
  · rw [h] at hother
    cases hother
    cases operation <;> simp [usesPool, family] at hpool hfamily

theorem not_namesConstant_of_none (h : ofMnemonic? mnemonic = none) :
    ¬NamesConstant mnemonic := by
  rintro (rfl | ⟨other, hother, -⟩)
  · rw [ofMnemonic?_ldc] at h
    cases h
  · rw [h] at hother
    cases hother

theorem namesNoConstant_bare (h : ofMnemonic? mnemonic = some operation)
    (hpool : operation.usesPool = false) : NamesNoConstant mnemonic :=
  ⟨mnemonic, leading?_bare h, not_namesConstant h hpool⟩

theorem namesNoConstant_operand (h : ofMnemonic? mnemonic = some operation)
    (hpool : operation.usesPool = false) (operand : String) :
    NamesNoConstant (mnemonic ++ " " ++ operand) :=
  ⟨mnemonic, leading?_operand h operand, not_namesConstant h hpool⟩

theorem namesNoConstant_localText
    (hnames : NamesLocal (type.localPrefix.toString ++ stem) operation)
    (hpool : operation.usesPool = false) (slot : UInt16) :
    NamesNoConstant (localText stem type slot) := by
  unfold localText
  split
  · rename_i hle
    have hlt : slot.toNat < 4 := Nat.lt_succ_of_le (UInt16.le_iff_toNat_le.mp hle)
    exact namesNoConstant_bare (hnames.2 _ hlt).1 hpool
  · exact namesNoConstant_operand hnames.1 hpool _

theorem namesNoConstant_intText (value : Int) : NamesNoConstant (Literal.intText value) := by
  unfold Literal.intText
  split
  · exact namesNoConstant_bare ofMnemonic?_iconst_m1 rfl
  split
  · rename_i hsmall
    obtain ⟨n, rfl⟩ := Int.eq_ofNat_of_zero_le hsmall.1
    rw [intText_natCast]
    exact namesNoConstant_bare (ofMnemonic?_iconst (by omega)).1 rfl
  split
  · exact namesNoConstant_operand ofMnemonic?_bipush rfl _
  · exact namesNoConstant_operand ofMnemonic?_sipush rfl _

theorem namesNoConstant_longText {value : Int64} (h : value = 0 ∨ value = 1) :
    NamesNoConstant (Literal.longText value.toInt) := by
  obtain ⟨n, hn, hvalue⟩ : ∃ n < 2, value.toInt = (n : Nat) := by
    rcases h with rfl | rfl
    · exact ⟨0, by decide, rfl⟩
    · exact ⟨1, by decide, rfl⟩
  rw [hvalue, Literal.longText, if_pos (by omega), intText_natCast]
  exact namesNoConstant_bare (ofMnemonic?_lconst hn).1 rfl

theorem namesNoConstant_goto (target : String) : NamesNoConstant (goto target).text := by
  refine ⟨"goto", ?_, not_namesConstant_of_none ofMnemonic?_goto⟩
  rw [text, show "goto " = "goto" ++ " " from rfl]
  exact leading?_before (by decide) (by decide) target

theorem namesNoConstant_label (h : (label name).Readable) :
    NamesNoConstant (label name).text := by
  have htext : (name ++ ":").toList = name.toList ++ [':'] := by simp
  have hwhole : Whole (name ++ ":").toList := htext ▸ h.whole _ rfl
  refine ⟨name ++ ":", ?_, not_namesConstant_of_none (ofMnemonic?_eq_none_of_colon (by simp))⟩
  rw [leading?, scan, text, scanFrom_token hwhole]
  rfl

theorem namesNoConstant_of_none (h : i.Readable) (hnone : Constant.ofInstruction? i = none) :
    NamesNoConstant i.text := by
  have hformed := h.wellFormed
  cases i with
  | load slot type => exact namesNoConstant_localText (namesLocal_load hformed) rfl slot
  | store slot type => exact namesNoConstant_localText (namesLocal_store hformed) rfl slot
  | arrayLoad type =>
    obtain ⟨element, helement, rfl⟩ := hformed
    exact namesNoConstant_bare (ofMnemonic?_arrayLoad helement) rfl
  | arrayStore type =>
    obtain ⟨element, helement, rfl⟩ := hformed
    exact namesNoConstant_bare (ofMnemonic?_arrayStore helement) rfl
  | leave type =>
    cases type with
    | none => exact namesNoConstant_bare ofMnemonic?_leave rfl
    | some type => exact namesNoConstant_bare (ofMnemonic?_return hformed) rfl
  | push value =>
    cases value with
    | int value => exact namesNoConstant_intText value.toInt
    | long value =>
      simp only [Constant.ofInstruction?] at hnone
      split at hnone
      · rename_i hsmall
        exact namesNoConstant_longText hsmall
      · cases hnone
    | float value => cases hnone
    | string value => cases hnone
  | goto target => exact namesNoConstant_goto target
  | label name => exact namesNoConstant_label h
  | invoke mode owner name signature => cases mode <;> cases hnone
  | getField scope owner name type => cases hnone
  | putField scope owner name type => cases hnone

/-- An instruction has a constant if and only if its line starts with a mnemonic that says so. -/
theorem isSome_ofInstruction?_iff (h : i.Readable) : (Constant.ofInstruction? i).isSome = true ↔
    ∃ first, leading? i.text = some first ∧ NamesConstant first := by
  cases hconstant : Constant.ofInstruction? i with
  | none =>
    obtain ⟨first, hfirst, hnames⟩ := namesNoConstant_of_none h hconstant
    simp [hfirst, hnames]
  | some c =>
    have hfirst := leading?_of_constant hconstant
    simp [hfirst, namesConstant_poolMnemonic]

-- ---------------------------------------------------------------------------
-- Operands
-- ---------------------------------------------------------------------------

/-- The class has no dot and the name no colon, so there is one way to cut a member reference. -/
theorem memberLine_inj {owner owner' : ClassName} {name name' descriptor descriptor' : String}
    (h : IsMember owner name) (h' : IsMember owner' name')
    (htext : mnemonic ++ " " ++ memberText owner name descriptor =
      mnemonic ++ " " ++ memberText owner' name' descriptor') :
    owner = owner' ∧ name = name' ∧ descriptor = descriptor' := by
  have hlist := congrArg String.toList ((String.append_right_inj _).mp htext)
  rw [memberText_toList] at hlist
  have hdot := splitAtFirst_eq_some_iff.mpr ⟨hlist.symm, h.dot_not_mem⟩
  rw [splitAtFirst_eq_some_iff.mpr ⟨memberText_toList, h'.dot_not_mem⟩, Option.some.injEq,
    Prod.mk.injEq] at hdot
  have hcolon := splitAtFirst_eq_some_iff.mpr ⟨hdot.2, h.noColon⟩
  rw [splitAtFirst_eq_some_iff.mpr ⟨rfl, h'.noColon⟩, Option.some.injEq, Prod.mk.injEq] at hcolon
  obtain ⟨internal⟩ := owner
  obtain ⟨internal'⟩ := owner'
  simp only [String.toList_inj] at hdot hcolon
  exact ⟨congrArg _ hdot.1.symm, hcolon.1.symm, hcolon.2.symm⟩

/-- Of two instructions of one operation that refer to constants, the lines are the same only if
the constants are. -/
theorem constant_eq_of_text_eq (hi : i.Readable) (hj : j.Readable)
    (hc : Constant.ofInstruction? i = some c) (hd : Constant.ofInstruction? j = some d)
    (hoperation : i.poolOperation = j.poolOperation) (htext : i.text = j.text) : c = d := by
  cases i with
  | invoke mode owner name signature =>
    cases j with
    | invoke mode' owner' name' signature' =>
      cases hoperation
      obtain ⟨rfl, rfl, hdescriptor⟩ := memberLine_inj hi.wellFormed.1 hj.wellFormed.1 htext
      cases mode <;> cases hc <;> cases hd <;> rw [hdescriptor]
    | _ => cases hoperation
  | getField scope owner name type =>
    cases j with
    | getField scope' owner' name' type' =>
      cases hoperation
      rw [getField_text, getField_text] at htext
      obtain ⟨rfl, rfl, hdescriptor⟩ := memberLine_inj hi.wellFormed.1 hj.wellFormed.1 htext
      cases hc
      cases hd
      rw [hdescriptor]
    | _ => cases hoperation
  | putField scope owner name type =>
    cases j with
    | putField scope' owner' name' type' =>
      cases hoperation
      rw [putField_text, putField_text] at htext
      obtain ⟨rfl, rfl, hdescriptor⟩ := memberLine_inj hi.wellFormed.1 hj.wellFormed.1 htext
      cases hc
      cases hd
      rw [hdescriptor]
    | _ => cases hoperation
  | push value =>
    cases j with
    | push value' =>
      have hread : readFrom 0 (push value).text = .ok (some (push value)) := readFrom_push hi
      rw [htext, readFrom_push hj] at hread
      cases hread
      exact Option.some.inj (hc.symm.trans hd)
    | invoke | getField | putField => cases hoperation
    | _ => cases hd
  | _ => cases hc

theorem constant_eq_iff (hi : i.Readable) (hj : j.Readable)
    (hc : Constant.ofInstruction? i = some c) (hd : Constant.ofInstruction? j = some d)
    (hfirst : leading? i.text = leading? j.text) : c = d ↔ i.text = j.text := by
  have hmnemonic : i.poolMnemonic = j.poolMnemonic := by
    rw [leading?_of_constant hc, leading?_of_constant hd] at hfirst
    exact Option.some.inj hfirst
  have hoperation : i.poolOperation = j.poolOperation := by
    have hrow := ofMnemonic?_poolMnemonic i
    rw [hmnemonic, ofMnemonic?_poolMnemonic j] at hrow
    exact (Option.some.inj hrow).symm
  constructor
  · rintro rfl
    rw [text_of_constant hc, text_of_constant hd, hmnemonic]
  · exact constant_eq_of_text_eq hi hj hc hd hoperation

/-- An instruction that was read has a constant if and only if its canonical line starts with
`ldc` or with a mnemonic for fields or methods. Of two such instructions whose lines start alike,
the constants are the same if and only if the lines are; then, and only then, a pool that both
are added to has one position for them. -/
theorem constant_iff_text (hi : ofLine line = .ok (some i)) (hj : ofLine line' = .ok (some j)) :
    ((Constant.ofInstruction? i).isSome = true ↔
      ∃ first, leading? i.text = some first ∧ NamesConstant first) ∧
    (leading? i.text = leading? j.text → ∀ c d, Constant.ofInstruction? i = some c →
      Constant.ofInstruction? j = some d → (c = d ↔ i.text = j.text) ∧
        ∀ steps later, let added := (Pool.empty.run steps).locate c
          ((added.1.run later).locate d).2 = added.2 ↔ i.text = j.text) := by
  have hreadable := readable_of_ofLine hi
  refine ⟨isSome_ofInstruction?_iff hreadable, fun hfirst c d hc hd => ?_⟩
  have hiff := constant_eq_iff hreadable (readable_of_ofLine hj) hc hd hfirst
  refine ⟨hiff, fun steps later => ?_⟩
  have hpool := (Pool.run_extends steps Pool.wellFormed_empty).wellFormed
  have hlater := Pool.run_extends later (Pool.locate_located c hpool).grown.wellFormed
  exact (Pool.locate_eq_iff hpool hlater).trans hiff

/-- The two zeros are the same number, but they are written in two ways and so are two
constants. -/
theorem constant_iff_text_zeros :
    let zero : Instruction := .push (.float ⟨0⟩)
    let negative : Instruction := .push (.float ⟨0x80000000⟩)
    ofLine "ldc 0.0" = .ok (some zero) ∧ ofLine "ldc -0.0" = .ok (some negative) ∧
      zero.sameValue negative = true ∧ leading? zero.text = leading? negative.text ∧
      Constant.ofInstruction? zero = some (.float ⟨0⟩) ∧
      Constant.ofInstruction? negative = some (.float ⟨0x80000000⟩) ∧
      (Constant.float ⟨0⟩ = .float ⟨0x80000000⟩ ↔ zero.text = negative.text) ∧
      zero.text ≠ negative.text := by
  intro zero negative
  have hzero : ofLine "ldc 0.0" = .ok (some zero) := toOption_eq_some.mp (by decide +kernel)
  have hnegative : ofLine "ldc -0.0" = .ok (some negative) :=
    toOption_eq_some.mp (by decide +kernel)
  have hfirst : leading? zero.text = leading? negative.text := by decide +kernel
  have hiff := ((constant_iff_text hzero hnegative).2 hfirst _ _ rfl rfl).1
  exact ⟨hzero, hnegative, by decide, hfirst, rfl, rfl, hiff, mt hiff.mpr (by decide)⟩

end Instruction

end ClassText
