import ClassText.Proofs.Line.RoundTrip

/-!
# Mnemonics with an operand in them

`Fused` says what each mnemonic with an operand in it stands for. `ofLine_fused_iff`: a line
that starts with one holds that instruction if nothing follows. An operand that follows takes
the place of the fused one: it is the slot of a load or store, and makes a constant of type
`int` whatever type the mnemonic is of. No line has more than one operand.
-/

namespace ClassText.Instruction

open Descriptor Operation Token

/-- The mnemonics with an operand in them, and the instruction that each stands for. -/
inductive Fused : String → Instruction → Prop
  | load (hletter : (letter, type) ∈ localLetters) (hslot : slot < 4) :
      Fused (letter.toString ++ "load" ++ "_" ++ String.ofList (natText slot))
        (.load (UInt16.ofNat slot) type)
  | store (hletter : (letter, type) ∈ localLetters) (hslot : slot < 4) :
      Fused (letter.toString ++ "store" ++ "_" ++ String.ofList (natText slot))
        (.store (UInt16.ofNat slot) type)
  | int (hvalue : value < 6) :
      Fused ("iconst_" ++ String.ofList (natText value)) (.push (.int (Int32.ofInt value)))
  | minusOne : Fused "iconst_m1" (.push (.int (-1)))
  | long (hvalue : value < 2) :
      Fused ("lconst_" ++ String.ofList (natText value)) (.push (.long (Int64.ofInt value)))

/-- The integers that may follow the mnemonic of an instruction. -/
def operandRange : Instruction → IntRange
  | .load .. | .store .. => .slot
  | _ => .int

/-- What an instruction becomes by an operand that is written out. -/
def withOperand (value : Int) : Instruction → Instruction
  | .load _ type => .load (UInt16.ofNat value.toNat) type
  | .store _ type => .store (UInt16.ofNat value.toNat) type
  | _ => .push (.int (Int32.ofInt value))

variable {mnemonic operand : Token} {range : IntRange} {meant : Instruction} {type : ValueType}

theorem localType_of_mem (h : (letter, type) ∈ localLetters) :
    letter = type.localPrefix ∧ type ∈ localTypes := by
  have hletter := (List.mem_filter.mp h).2
  rw [beq_iff_eq] at hletter
  exact ⟨hletter.symm, List.mem_map.mpr ⟨_, h, rfl⟩⟩

-- ---------------------------------------------------------------------------
-- Operands
-- ---------------------------------------------------------------------------

theorem map_map (x : Except ε α) (f : α → β) (g : β → γ) :
    (x.map f).map g = x.map fun a => g (f a) := by
  cases x <;> rfl

theorem readInt_ok : operand.readInt range = .ok value ↔
    range.read operand.text.toList = some value := by
  unfold readInt
  split
  · rename_i h
    simp [h]
  · rename_i h
    simp [h, reject]

/-- How an operation reads its operands, if there are any, behind a mnemonic that has one. -/
structure ReadsFused (operation : Operation) (mnemonic : Token) (meant : Instruction) : Prop where
  alone : operation.read mnemonic [] = .ok meant
  operand : ∀ operand, operation.read mnemonic [operand] =
    (operand.readInt meant.operandRange).map meant.withOperand

theorem rejects_two (operation : Operation) :
    operation.read mnemonic (first :: second :: rest) ≠ .ok i := by
  cases operation <;> rintro ⟨⟩

/-- Loads and stores have their slot in the mnemonic. -/
theorem readSlot_fused (hdigits : fusedOperand mnemonic.text = some (natText slot))
    (hslot : slot < 4) : mnemonic.readSlot [] = .ok (UInt16.ofNat slot) := by
  have hread : IntRange.slot.read (natText slot) = some (slot : Int) :=
    read_natText _ (by simp [IntRange.slot]) (by simp only [IntRange.slot]; omega)
  simp [readSlot, hdigits, hread]

theorem readsFused_load (hdigits : fusedOperand mnemonic.text = some (natText slot))
    (hslot : slot < 4) :
    ReadsFused (.load type) mnemonic (.load (UInt16.ofNat slot) type) where
  alone := by simp only [Operation.read, readSlot_fused hdigits hslot, Except.map]
  operand _ := map_map ..

theorem readsFused_store (hdigits : fusedOperand mnemonic.text = some (natText slot))
    (hslot : slot < 4) :
    ReadsFused (.store type) mnemonic (.store (UInt16.ofNat slot) type) where
  alone := by simp only [Operation.read, readSlot_fused hdigits hslot, Except.map]
  operand _ := map_map ..

/-- Constants have their value in the mnemonic, which also says of what type it is. -/
theorem readsFused_int (hdigits : fusedOperand mnemonic.text = some digits)
    (hread : IntRange.int.readFused digits = some value) :
    ReadsFused .pushInt mnemonic (.push (.int (Int32.ofInt value))) where
  alone := by simp [Operation.read, readLiteral, readFusedInt, hdigits, hread, Except.map]
  operand _ := map_map ..

theorem readsFused_long (hdigits : fusedOperand mnemonic.text = some digits)
    (hread : IntRange.long.readFused digits = some value) :
    ReadsFused .pushLong mnemonic (.push (.long (Int64.ofInt value))) where
  alone := by simp [Operation.read, readLiteral, readFusedInt, hdigits, hread, Except.map]
  operand _ := map_map ..

-- ---------------------------------------------------------------------------
-- Lines
-- ---------------------------------------------------------------------------

theorem readsFused_of_fused (h : Fused mnemonic.text meant) :
    ∃ operation, ofMnemonic? mnemonic.text = some operation ∧
      ReadsFused operation mnemonic meant := by
  generalize htext : mnemonic.text = text at h
  cases h with
  | load hletter hslot =>
    obtain ⟨rfl, htype⟩ := localType_of_mem hletter
    obtain ⟨hname, hdigits⟩ := (namesLocal_load htype).2 _ hslot
    exact ⟨_, hname, readsFused_load (htext ▸ hdigits) hslot⟩
  | store hletter hslot =>
    obtain ⟨rfl, htype⟩ := localType_of_mem hletter
    obtain ⟨hname, hdigits⟩ := (namesLocal_store htype).2 _ hslot
    exact ⟨_, hname, readsFused_store (htext ▸ hdigits) hslot⟩
  | @int value hvalue =>
    obtain ⟨hname, hdigits⟩ := ofMnemonic?_iconst hvalue
    have hread : IntRange.int.readFused (natText value) = some (value : Int) := by
      rw [readFused_natText]
      exact read_natText _ (by simp [IntRange.int]) (by simp only [IntRange.int]; omega)
    exact ⟨_, hname, readsFused_int (htext ▸ hdigits) hread⟩
  | minusOne =>
    have hdigits : fusedOperand "iconst_m1" = some ['m', '1'] := by decide
    have hread : IntRange.int.readFused ['m', '1'] = some (-1) := by decide
    exact ⟨_, ofMnemonic?_iconst_m1, readsFused_int (htext ▸ hdigits) hread⟩
  | @long value hvalue =>
    obtain ⟨hname, hdigits⟩ := ofMnemonic?_lconst hvalue
    have hread : IntRange.long.readFused (natText value) = some (value : Int) := by
      rw [readFused_natText]
      exact read_natText _ (by simp [IntRange.long]) (by simp only [IntRange.long]; omega)
    exact ⟨_, hname, readsFused_long (htext ▸ hdigits) hread⟩

/-- A line that starts with a mnemonic with an operand in it is read as what the mnemonic
stands for if it ends there, and otherwise as what one operand behind it says. -/
theorem ofLine_fused_iff (hscan : scan line = mnemonic :: operands)
    (hfused : Fused mnemonic.text meant) : ofLine line = .ok (some i) ↔
      operands = [] ∧ i = meant ∨
        ∃ operand value, operands = [operand] ∧
          meant.operandRange.read operand.text.toList = some value ∧
            i = meant.withOperand value := by
  obtain ⟨operation, hname, hreads⟩ := readsFused_of_fused hfused
  have hline : ofLine line = (operation.read mnemonic operands).map some := by
    simp only [ofLine, hscan, ofTokens, hname]
  rw [hline, map_ok]
  simp only [Option.some.injEq, exists_eq_right]
  rcases operands with _ | ⟨operand, _ | ⟨second, rest⟩⟩
  · simp [hreads.alone, eq_comm]
  · rw [hreads.operand, map_ok]
    simp only [readInt_ok]
    constructor
    · rintro ⟨value, hvalue, rfl⟩
      exact .inr ⟨operand, value, rfl, hvalue, rfl⟩
    · rintro (⟨⟨⟩, -⟩ | ⟨_, value, ⟨⟩, hvalue, rfl⟩)
      exact ⟨value, hvalue, rfl⟩
  · simp [rejects_two]

/-- A hexadecimal slot behind a mnemonic that names another. -/
theorem ofLine_fused_iff_astore :
    scan "  astore_2 0x1F" = [⟨"astore_2", 2⟩, ⟨"0x1F", 11⟩] ∧
      Fused "astore_2" (.store 2 .reference) ∧
        ofLine "  astore_2 0x1F" = .ok (some (.store 31 .reference)) := by
  have hscan : scan "  astore_2 0x1F" = [⟨"astore_2", 2⟩, ⟨"0x1F", 11⟩] := by decide +kernel
  have hletter : ('a', ValueType.reference) ∈ localLetters := by decide +kernel
  have hfused : Fused "astore_2" (.store 2 .reference) := .store hletter (by decide : 2 < 4)
  have hread : IntRange.slot.read "0x1F".toList = some 31 := by decide
  exact ⟨hscan, hfused, (ofLine_fused_iff hscan hfused).mpr (.inr ⟨_, 31, rfl, hread, rfl⟩)⟩

/-- Both lines have an operand that makes them another instruction than their mnemonic does,
the second one even of another type. -/
theorem ofLine_fused_ne :
    ((Fused "iload_1" (.load 1 .int) ∧ scan "iload_1 5" = [⟨"iload_1", 0⟩, ⟨"5", 8⟩]) ∧
        ofLine "iload_1 5" = .ok (some (.load 5 .int))) ∧
      (Fused "lconst_1" (.push (.long 1)) ∧ scan "lconst_1 1" = [⟨"lconst_1", 0⟩, ⟨"1", 9⟩]) ∧
        ofLine "lconst_1 1" = .ok (some (.push (.int 1))) := by
  have hletter : ('i', ValueType.int) ∈ localLetters := by decide +kernel
  have hload : Fused "iload_1" (.load 1 .int) := .load hletter (by decide : 1 < 4)
  have hlong : Fused "lconst_1" (.push (.long 1)) := .long (by decide : 1 < 2)
  exact ⟨⟨⟨hload, by decide +kernel⟩, toOption_eq_some.mp (by decide +kernel)⟩,
    ⟨hlong, by decide +kernel⟩, toOption_eq_some.mp (by decide +kernel)⟩

end ClassText.Instruction
