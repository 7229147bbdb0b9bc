import ClassText.Instruction.Basic
import ClassText.Number.Layout
import ClassText.Type.Descriptor
import ClassText.Type.Prefix

/-!
# The text of instructions

The canonical line of each instruction: operands that have a place in the mnemonic are
written there, and all others after one space.
-/

namespace ClassText

def InvokeMode.mnemonic : InvokeMode → String
  | .virtual => "invokevirtual"
  | .interface => "invokeinterface"
  | .special => "invokespecial"
  | .static => "invokestatic"

/-- Floating-point operands have a point, so that they cannot be taken for integers; outside
`10⁻⁴` to `10¹⁶` they are written with an exponent. -/
def operandLayout : FloatLayout :=
  ⟨-4, 15, true⟩

namespace Single

/-- The text of a floating-point operand. Infinities and what is no number have names, which
are no literals. -/
def operandText (x : Single) : String :=
  if x.isFinite then
    String.ofList (operandLayout.text BinaryFormat.single x.isNegative x.magnitude)
  else if x.isNaN then "NaN"
  else if x.isNegative then "-inf"
  else "inf"

end Single

namespace Literal

/-- The instruction that pushes an integer: it is part of the mnemonic if it is small, and
otherwise an operand of one or two bytes. -/
def intText (value : Int) : String :=
  let digits := String.ofList (ClassText.intText value)
  if value = -1 then "iconst_m1"
  else if 0 ≤ value ∧ value ≤ 5 then "iconst_" ++ digits
  else if -128 ≤ value ∧ value ≤ 127 then "bipush " ++ digits
  else "sipush " ++ digits

def longText (value : Int) : String :=
  let digits := String.ofList (ClassText.intText value)
  if 0 ≤ value ∧ value ≤ 1 then "lconst_" ++ digits else "ldc " ++ digits

/-- The instruction that pushes a constant. Strings stand between quotes as they are. -/
def text : Literal → String
  | .int value => intText value.toInt
  | .long value => longText value.toInt
  | .float value => "ldc " ++ value.operandText
  | .string value => "ldc \"" ++ value ++ "\""

end Literal

namespace Instruction

/-- An instruction on a local variable. The first four slots are part of the mnemonic. -/
def localText (stem : String) (type : ValueType) (slot : UInt16) : String :=
  type.localPrefix.toString ++ stem ++ (if slot ≤ 3 then "_" else " ") ++
    String.ofList (natText slot.toNat)

def elementPrefix : ValueType → Char
  | .array element => element.arrayPrefix
  | type => type.arrayPrefix

def memberText (owner : ClassName) (name descriptor : String) : String :=
  owner.internal ++ "." ++ name ++ ":" ++ descriptor

/-- The canonical line of an instruction, without indentation. -/
def text : Instruction → String
  | .load slot type => localText "load" type slot
  | .store slot type => localText "store" type slot
  | .arrayLoad type => (elementPrefix type).toString ++ "aload"
  | .arrayStore type => (elementPrefix type).toString ++ "astore"
  | .invoke mode owner name signature =>
    mode.mnemonic ++ " " ++ memberText owner name signature.descriptor
  | .leave none => "return"
  | .leave (some type) => type.localPrefix.toString ++ "return"
  | .getField .static owner name type => "getstatic " ++ memberText owner name type.descriptor
  | .getField .perObject owner name type => "getfield " ++ memberText owner name type.descriptor
  | .putField .static owner name type => "putstatic " ++ memberText owner name type.descriptor
  | .putField .perObject owner name type => "putfield " ++ memberText owner name type.descriptor
  | .push value => value.text
  | .goto target => "goto " ++ target
  | .label name => name ++ ":"

end Instruction

end ClassText
