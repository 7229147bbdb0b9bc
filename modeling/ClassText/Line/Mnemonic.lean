import ClassText.Instruction.Basic
import ClassText.Text.Basic
import ClassText.Type.Prefix

/-!
# Mnemonics

The names of the operations. Some mnemonics carry an operand of their own after an
underscore, such as the slot in `iload_1`.
-/

namespace ClassText

inductive Operation where
  | load (type : ValueType)
  | store (type : ValueType)
  | arrayLoad (element : ValueType)
  | arrayStore (element : ValueType)
  | getField (scope : FieldScope)
  | putField (scope : FieldScope)
  | invoke (mode : InvokeMode)
  | leave (type : Option ValueType)
  | pushInt
  | pushLong
  /-- Pushes a constant of any kind from the constant pool. -/
  | pushPooled
deriving DecidableEq

/-- The families of operations that have their operands in common. -/
inductive Family where
  | loadStore | arrayLoadStore | field | invoke | leave | const
deriving DecidableEq

namespace Operation

def family : Operation → Family
  | .load _ | .store _ => .loadStore
  | .arrayLoad _ | .arrayStore _ => .arrayLoadStore
  | .getField _ | .putField _ => .field
  | .invoke _ => .invoke
  | .leave _ => .leave
  | .pushInt | .pushLong | .pushPooled => .const

def localLetters : List (Char × ValueType) :=
  ValueType.prefixTable.filter fun (letter, type) => type.localPrefix == letter

/-- An operation on a local variable, with the slot as an operand or in the mnemonic. -/
def localMnemonics (stem : String) (operation : ValueType → Operation) :
    List (String × Operation) :=
  localLetters.flatMap fun (letter, type) =>
    ["", "_0", "_1", "_2", "_3"].map fun slot => (letter.toString ++ stem ++ slot, operation type)

def arrayMnemonics (stem : String) (operation : ValueType → Operation) :
    List (String × Operation) :=
  ValueType.prefixTable.map fun (letter, type) => (letter.toString ++ stem, operation type)

def table : List (String × Operation) :=
  localMnemonics "load" .load ++ localMnemonics "store" .store ++
    arrayMnemonics "aload" .arrayLoad ++ arrayMnemonics "astore" .arrayStore ++
    [("getstatic", .getField .static), ("getfield", .getField .perObject),
      ("putstatic", .putField .static), ("putfield", .putField .perObject),
      ("invokespecial", .invoke .special), ("invokevirtual", .invoke .virtual),
      ("invokeinterface", .invoke .interface), ("invokestatic", .invoke .static),
      ("return", .leave none)] ++
    (localLetters.map fun (letter, type) => (letter.toString ++ "return", .leave (some type))) ++
    (["m1", "0", "1", "2", "3", "4", "5"].map fun value => ("iconst_" ++ value, .pushInt)) ++
    [("lconst_0", .pushLong), ("lconst_1", .pushLong), ("bipush", .pushInt),
      ("sipush", .pushInt), ("ldc", .pushPooled), ("ldc_w", .pushPooled),
      ("ldc2_w", .pushPooled)]

/-- The operation that a mnemonic names. Case matters. -/
def ofMnemonic? (mnemonic : String) : Option Operation :=
  table.lookup mnemonic

end Operation

/-- The operand in a mnemonic: what follows the first underscore. -/
def fusedOperand (mnemonic : String) : Option (List Char) :=
  (splitAtFirst '_' mnemonic.toList).map (·.2)

end ClassText
