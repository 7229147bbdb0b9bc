import ClassText.Line.MemberRef
import ClassText.Line.Mnemonic
import ClassText.Number.FloatLiteral
import ClassText.Number.IntLiteral

/-!
# Reading lines

A line holds one instruction or nothing. The first token says which operation it is and
so what its operands are; what is no mnemonic may be a jump or a label.
-/

namespace ClassText

namespace Token

/-- Rejects a line for the number of its operands: the first of them is to blame, or the
mnemonic if there are none. -/
def rejectCount {α : Type} (mnemonic : Token) (operands : List Token) : Except SyntaxError α :=
  (operands.headD mnemonic).reject .argumentCount

def readInt (token : Token) (range : IntRange) : Except SyntaxError Int :=
  match range.read token.text.toList with
  | some value => .ok value
  | none => token.reject (.invalidInteger token.text)

def readFusedInt (mnemonic : Token) (range : IntRange) (digits : List Char) :
    Except SyntaxError Int :=
  match range.readFused digits with
  | some value => .ok value
  | none => mnemonic.reject (.invalidInteger (String.ofList digits))

def readSlot (mnemonic : Token) (operands : List Token) : Except SyntaxError UInt16 :=
  let slot (value : Int) : UInt16 := UInt16.ofNat value.toNat
  match operands with
  | [] =>
    match fusedOperand mnemonic.text with
    | none => mnemonic.reject .slotRequired
    | some digits =>
      match IntRange.slot.read digits with
      | some value => .ok (slot value)
      | none => mnemonic.reject (.invalidInteger (String.ofList digits))
  | [operand] => (operand.readInt .slot).map slot
  | _ => mnemonic.rejectCount operands

/-- A constant from the constant pool. Quotes make it a string, a point makes it a
floating-point number, and anything else is an integer of type `long`. -/
def readPooled (operand : Token) : Except SyntaxError Literal :=
  let cs := operand.text.toList
  match cs with
  | '"' :: rest =>
    if rest.getLast? = some '"' then .ok (.string (String.ofList rest.dropLast))
    else operand.reject .unterminatedString
  | _ =>
    if cs.contains '.' then
      match FloatLiteral.read cs with
      | some value =>
        if value.isFinite then .ok (.float value)
        else operand.reject (.floatOutOfRange operand.text)
      | none => operand.reject (.invalidFloat operand.text)
    else (operand.readInt .long).map fun value => .long (Int64.ofInt value)

def readLiteral (mnemonic : Token) (operation : Operation) (operands : List Token) :
    Except SyntaxError Literal :=
  match operands with
  | [] =>
    match fusedOperand mnemonic.text with
    | none => mnemonic.reject .constantRequired
    | some digits =>
      if operation = .pushInt then
        (mnemonic.readFusedInt .int digits).map fun value => .int (Int32.ofInt value)
      else (mnemonic.readFusedInt .long digits).map fun value => .long (Int64.ofInt value)
  | [operand] =>
    if operation = .pushPooled then operand.readPooled
    else (operand.readInt .int).map fun value => .int (Int32.ofInt value)
  | _ => mnemonic.rejectCount operands

/-- The member of an operation on one, with the descriptor read as the operation needs it. -/
def readMember {α : Type} (mnemonic : Token) (operands : List Token)
    (read : String → Except Descriptor.Error α) (make : ClassName → String → α → Instruction) :
    Except SyntaxError Instruction :=
  match operands with
  | [operand] => do
    let member ← MemberRef.ofToken operand
    let type ← member.descriptor.accept (read member.descriptor.text)
    return make member.owner member.name type
  | _ => mnemonic.rejectCount operands

def readBare (mnemonic : Token) (operands : List Token) (instruction : Instruction) :
    Except SyntaxError Instruction :=
  match operands with
  | [] => .ok instruction
  | _ => mnemonic.rejectCount operands

end Token

namespace Operation

def read (operation : Operation) (mnemonic : Token) (operands : List Token) :
    Except SyntaxError Instruction :=
  match operation with
  | .load type => (mnemonic.readSlot operands).map fun slot => .load slot type
  | .store type => (mnemonic.readSlot operands).map fun slot => .store slot type
  | .arrayLoad element => mnemonic.readBare operands (.arrayLoad (.array element))
  | .arrayStore element => mnemonic.readBare operands (.arrayStore (.array element))
  | .getField scope => mnemonic.readMember operands ValueType.ofDescriptor (.getField scope)
  | .putField scope => mnemonic.readMember operands ValueType.ofDescriptor (.putField scope)
  | .invoke mode => mnemonic.readMember operands Signature.ofDescriptor (.invoke mode)
  | .leave type => mnemonic.readBare operands (.leave type)
  | .pushInt | .pushLong | .pushPooled =>
    (mnemonic.readLiteral operation operands).map .push

end Operation

namespace Instruction

/-- Reads a first token that is no mnemonic: a jump or a label. -/
def ofOther (first : Token) (operands : List Token) : Except SyntaxError Instruction :=
  let cs := first.text.toList
  match operands with
  | [target] => if first.text = "goto" then .ok (.goto target.text)
    else first.reject .unknownInstruction
  | [] =>
    if cs.getLast? = some ':' ∧ 1 < cs.length then .ok (.label (String.ofList cs.dropLast))
    else first.reject .unknownInstruction
  | _ => first.reject .unknownInstruction

def ofTokens : List Token → Except SyntaxError (Option Instruction)
  | [] => .ok none
  | first :: operands =>
    match Operation.ofMnemonic? first.text with
    | some operation => (operation.read first operands).map some
    | none => (ofOther first operands).map some

/-- Reads a line. A blank line has no instruction. -/
def ofLine (line : String) : Except SyntaxError (Option Instruction) :=
  ofTokens (Token.scan line)

end Instruction

end ClassText
