import ClassText.Line.Parser
import ClassText.Proofs.Line.Partition

/-!
# Blanks between tokens do not matter

Which instruction a line holds, or why it holds none, depends on the texts of its tokens
only; the bytes that they start at matter for the span of an error and for nothing else.
`outcome_ofTokens`: each reader comes to the same on tokens moved to the start of a line.
`scan_respaced`: tokens with other blanks between them are read as before.
-/

namespace ClassText

/-- What comes of reading a part of a line, whatever is to blame for an error. -/
def outcome (result : Except SyntaxError α) : Except Cause α :=
  result.mapError SyntaxError.cause

@[simp] theorem outcome_ok (a : α) : outcome (.ok a) = .ok a := rfl

@[simp] theorem outcome_map (f : α → β) (result : Except SyntaxError α) :
    outcome (result.map f) = (outcome result).map f := by
  cases result <;> rfl

@[simp] theorem outcome_bind (result : Except SyntaxError α) (f : α → Except SyntaxError β) :
    outcome (result >>= f) = outcome result >>= fun a => outcome (f a) := by
  cases result <;> rfl

theorem mapError_message (result : Except SyntaxError α) :
    result.mapError SyntaxError.message = (outcome result).mapError Cause.message := by
  cases result <;> rfl

namespace Token

variable {token mnemonic operand : Token} {operands : List Token}

@[simp] theorem outcome_reject (token : Token) (cause : Cause) :
    outcome (token.reject cause : Except SyntaxError α) = .error cause := rfl

@[simp] theorem outcome_accept (token : Token) (reading : Except Descriptor.Error α) :
    outcome (token.accept reading) = reading.mapError .descriptor := by
  cases reading <;> rfl

/-- The token as it stands at the start of a line. -/
def unplaced (token : Token) : Token := ⟨token.text, 0⟩

@[simp] theorem unplaced_text (token : Token) : token.unplaced.text = token.text := rfl

theorem map_unplaced_eq {tokens tokens' : List Token} (h : tokens.map text = tokens'.map text) :
    tokens.map unplaced = tokens'.map unplaced := by
  have hmap (ts : List Token) : ts.map unplaced = (ts.map text).map fun t => ⟨t, 0⟩ := by
    rw [List.map_map]
    rfl
  rw [hmap, hmap, h]

-- ---------------------------------------------------------------------------
-- Operands
-- ---------------------------------------------------------------------------

@[simp] theorem outcome_rejectCount (mnemonic : Token) (operands : List Token) :
    outcome (mnemonic.rejectCount operands : Except SyntaxError α) = .error .argumentCount := rfl

@[simp] theorem outcome_readInt (token : Token) (range : IntRange) :
    outcome (token.unplaced.readInt range) = outcome (token.readInt range) := by
  simp only [readInt, unplaced_text]
  cases range.read token.text.toList <;> rfl

@[simp] theorem outcome_readFusedInt (token : Token) (range : IntRange) (digits : List Char) :
    outcome (token.unplaced.readFusedInt range digits) =
      outcome (token.readFusedInt range digits) := by
  simp only [readFusedInt]
  cases range.readFused digits <;> rfl

@[simp] theorem outcome_readSlot (mnemonic : Token) (operands : List Token) :
    outcome (mnemonic.unplaced.readSlot (operands.map unplaced)) =
      outcome (mnemonic.readSlot operands) := by
  match operands with
  | [] =>
    simp only [readSlot, List.map_nil, unplaced_text]
    cases fusedOperand mnemonic.text with
    | none => rfl
    | some digits =>
      dsimp only
      cases IntRange.slot.read digits <;> rfl
  | [operand] => simp only [readSlot, List.map_cons, List.map_nil, outcome_map, outcome_readInt]
  | _ :: _ :: _ => rfl

@[simp] theorem outcome_readPooled (operand : Token) :
    outcome operand.unplaced.readPooled = outcome operand.readPooled := by
  obtain ⟨text, start⟩ := operand
  change outcome (readPooled ⟨text, 0⟩) = _
  simp only [readPooled]
  split
  · split <;> rfl
  · split
    · cases FloatLiteral.read text.toList with
      | none => rfl
      | some value => cases hfinite : value.isFinite <;> simp [hfinite]
    · rw [outcome_map, outcome_map]
      exact congrArg _ (outcome_readInt ⟨text, start⟩ .long)

@[simp] theorem outcome_readLiteral (mnemonic : Token) (operation : Operation)
    (operands : List Token) :
    outcome (mnemonic.unplaced.readLiteral operation (operands.map unplaced)) =
      outcome (mnemonic.readLiteral operation operands) := by
  match operands with
  | [] =>
    simp only [readLiteral, List.map_nil, unplaced_text]
    cases fusedOperand mnemonic.text with
    | none => rfl
    | some digits =>
      dsimp only
      split <;> simp only [outcome_map, outcome_readFusedInt]
  | [operand] =>
    simp only [readLiteral, List.map_cons, List.map_nil]
    split
    · rw [outcome_readPooled]
    · simp only [outcome_map, outcome_readInt]
  | _ :: _ :: _ => rfl

@[simp] theorem outcome_readBare (mnemonic : Token) (operands : List Token)
    (instruction : Instruction) :
    outcome (mnemonic.unplaced.readBare (operands.map unplaced) instruction) =
      outcome (mnemonic.readBare operands instruction) := by
  cases operands <;> rfl

-- ---------------------------------------------------------------------------
-- Member references
-- ---------------------------------------------------------------------------

/-- A member with the text of its descriptor in place of the token. -/
def memberTexts (member : MemberRef) : ClassName × String × String :=
  (member.owner, member.name, member.descriptor.text)

theorem outcome_ofToken (operand : Token) :
    (outcome (MemberRef.ofToken operand.unplaced)).map memberTexts =
      (outcome (MemberRef.ofToken operand)).map memberTexts := by
  obtain ⟨text, start⟩ := operand
  change (outcome (MemberRef.ofToken ⟨text, 0⟩)).map memberTexts = _
  simp only [MemberRef.ofToken, split]
  cases splitAtFirst '.' text.toList with
  | none => rfl
  | some parts =>
    simp only [Option.map_some, String.toList_ofList]
    cases splitAtFirst ':' parts.2 with
    | none => rfl
    | some names =>
      simp only [Option.map_some]
      -- the three checks for an empty part
      iterate 3
        split
        · rfl
      rw [outcome_map, outcome_map, outcome_accept, outcome_accept]
      cases ClassName.ofDescriptor ("L" ++ String.ofList parts.1 ++ ";") <;> rfl

/-- A member is read as its texts say. -/
theorem outcome_readMember_eq (mnemonic operand : Token)
    (read : String → Except Descriptor.Error α) (make : ClassName → String → α → Instruction) :
    outcome (mnemonic.readMember [operand] read make) =
      (outcome (MemberRef.ofToken operand)).map memberTexts >>= fun (owner, name, descriptor) =>
        (read descriptor).mapError .descriptor >>= fun type => .ok (make owner name type) := by
  simp only [readMember, outcome_bind, outcome_accept]
  cases outcome (MemberRef.ofToken operand) <;> rfl

@[simp] theorem outcome_readMember (mnemonic : Token) (operands : List Token)
    (read : String → Except Descriptor.Error α) (make : ClassName → String → α → Instruction) :
    outcome (mnemonic.unplaced.readMember (operands.map unplaced) read make) =
      outcome (mnemonic.readMember operands read make) := by
  match operands with
  | [] => rfl
  | [operand] =>
    rw [List.map_cons, List.map_nil, outcome_readMember_eq, outcome_readMember_eq, outcome_ofToken]
  | _ :: _ :: _ => rfl

end Token

-- ---------------------------------------------------------------------------
-- Lines
-- ---------------------------------------------------------------------------

open Token

@[simp] theorem Operation.outcome_read (operation : Operation) (mnemonic : Token)
    (operands : List Token) :
    outcome (operation.read mnemonic.unplaced (operands.map unplaced)) =
      outcome (operation.read mnemonic operands) := by
  cases operation <;>
    simp only [read, outcome_map, outcome_readSlot, outcome_readBare, outcome_readMember,
      outcome_readLiteral]

namespace Instruction

@[simp] theorem outcome_ofOther (first : Token) (operands : List Token) :
    outcome (ofOther first.unplaced (operands.map unplaced)) =
      outcome (ofOther first operands) := by
  obtain ⟨text, start⟩ := first
  change outcome (ofOther ⟨text, 0⟩ (operands.map unplaced)) = _
  match operands with
  | [] =>
    simp only [ofOther, List.map_nil]
    split <;> rfl
  | [target] =>
    simp only [ofOther, List.map_cons, List.map_nil, unplaced_text]
    split <;> rfl
  | _ :: _ :: _ => rfl

@[simp] theorem outcome_ofTokens (tokens : List Token) :
    outcome (ofTokens (tokens.map unplaced)) = outcome (ofTokens tokens) := by
  cases tokens with
  | nil => rfl
  | cons first operands =>
    rw [List.map_cons]
    simp only [ofTokens, unplaced_text]
    cases Operation.ofMnemonic? first.text with
    | none => simp only [outcome_map, outcome_ofOther]
    | some operation => simp only [outcome_map, Operation.outcome_read]

/-- Lines with the same texts for tokens hold the same instruction or are rejected for the same
cause. -/
theorem outcome_ofLine_congr {line line' : String}
    (h : (scan line).map Token.text = (scan line').map Token.text) :
    outcome (ofLine line) = outcome (ofLine line') := by
  rw [ofLine, ofLine, ← outcome_ofTokens, map_unplaced_eq h, outcome_ofTokens]

end Instruction

-- ---------------------------------------------------------------------------
-- Partition and spacing of a line
-- ---------------------------------------------------------------------------

theorem Token.map_text_scan_spaced {line : String} {front cs : List Char}
    (hfront : front.all isBlank = true) (hspaced : Spaced ((scan line).map Token.text) cs) :
    (scan (String.ofList (front ++ cs))).map Token.text = (scan line).map Token.text := by
  obtain ⟨tokens, hpartition, htexts⟩ := (scan_eq_iff.mp rfl).exists_spaced 0 hfront hspaced
  rw [← String.toList_ofList (l := front ++ cs)] at hpartition
  rw [scan_eq_iff.mpr hpartition, htexts]

/-- A line is partitioned into its tokens and the blanks around them, in one way; each token is
a text that starts with no blank and has an odd number of quotes before each of its blanks, and
ends before the next one starts. With other blanks between the tokens and before the first, the
tokens are the same, and so are the instruction and the message of an error. -/
theorem Token.scan_partition_respaced (line : String) :
    (∀ tokens, scan line = tokens ↔ Partition 0 line.toList tokens) ∧
      (∀ token ∈ scan line, token.text ≠ "" ∧
        (∀ c ∈ token.text.toList.head?, isBlank c = false) ∧
        ∀ before b after, token.text.toList = before ++ b :: after → isBlank b = true →
          before.count '"' % 2 = 1) ∧
      (∀ before t u after, scan line = before ++ t :: u :: after → t.span.stop < u.span.start) ∧
      ∀ front cs, front.all isBlank = true → Spaced ((scan line).map Token.text) cs →
        (scan (String.ofList (front ++ cs))).map Token.text = (scan line).map Token.text ∧
        (Instruction.ofLine (String.ofList (front ++ cs))).mapError SyntaxError.message =
          (Instruction.ofLine line).mapError SyntaxError.message := by
  refine ⟨fun tokens => scan_eq_iff, ?_, ?_, ?_⟩
  · intro token htoken
    have his := whole_iff.mp (whole_of_mem_scan htoken)
    exact ⟨by simpa using his.1, his.head?_ne_blank, his.2⟩
  · intro before t u after heq
    exact (scan_eq_iff.mp rfl).stop_lt_start heq
  · intro front cs hfront hspaced
    have htexts := map_text_scan_spaced hfront hspaced
    refine ⟨htexts, ?_⟩
    rw [mapError_message, mapError_message, Instruction.outcome_ofLine_congr htexts]

/-- Two blanks before a quoted operand and one in it: those before it become a tab. -/
theorem Token.scan_partition_respaced_quoted :
    [' '].all isBlank = true ∧
      Spaced ((scan "ldc  \"a b\" ").map Token.text) ("ldc".toList ++ ['\t'] ++ "\"a b\"".toList) ∧
      (Instruction.ofLine " ldc\t\"a b\"").mapError SyntaxError.message =
        (Instruction.ofLine "ldc  \"a b\" ").mapError SyntaxError.message := by
  have hscan : (scan "ldc  \"a b\" ").map Token.text = ["ldc", "\"a b\""] := by decide
  have hspaced :
      Spaced ((scan "ldc  \"a b\" ").map Token.text)
        ("ldc".toList ++ ['\t'] ++ "\"a b\"".toList) := by
    rw [hscan]
    exact .more "ldc" (by simp) (by decide) (.last _)
  refine ⟨by decide, hspaced, ?_⟩
  exact ((scan_partition_respaced "ldc  \"a b\" ").2.2.2 [' '] _ (by decide) hspaced).2

end ClassText

