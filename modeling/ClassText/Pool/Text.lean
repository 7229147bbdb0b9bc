import ClassText.Number.Layout
import ClassText.Pool.Basic
import ClassText.Text.Escape

/-!
# The text of constants

A constant is written with its kind. What it refers to is written as a reference `#n` to
a position of the pool, or spelled out if the pool does not have it.
-/

namespace ClassText

/-- Floating-point constants are always written with an exponent. -/
def constantLayout : FloatLayout :=
  ⟨0, -1, false⟩

def specialText (isNaN negative : Bool) : String :=
  if isNaN then "+NaN" else if negative then "-Infinity" else "+Infinity"

def Single.constantText (x : Single) : String :=
  (if x.isFinite then
    String.ofList (constantLayout.text BinaryFormat.single x.isNegative x.magnitude)
  else specialText x.isNaN x.isNegative) ++ "f"

def Double.constantText (x : Double) : String :=
  if x.isFinite then
    String.ofList (constantLayout.text BinaryFormat.double x.isNegative x.magnitude)
  else specialText x.isNaN x.isNegative

namespace Pool

def reference (number : Nat) : String :=
  "#" ++ toString number

/-- The constants of a pool, numbered from one in the order of their positions. -/
def numbered (pool : Pool) : List (Constant × Nat) :=
  (pool.entries.filter (· ≠ .null)).zipIdx 1

def number? (pool : Pool) (c : Constant) : Option Nat :=
  pool.numbered.lookup c

/-- A reference to a constant, or the given text if the pool does not have it. -/
def referenceOr (pool : Pool) (c : Constant) (inline : String) : String :=
  match pool.number? c with
  | some number => reference number
  | none => inline

def utf8Text (pool : Pool) (text : String) : String :=
  pool.referenceOr (.utf8 text) (escape text)

def classText (pool : Pool) (name : String) : String :=
  pool.referenceOr (.class name) (escape name)

def nameAndTypeText (pool : Pool) (name descriptor : String) : String :=
  pool.referenceOr (.nameAndType name descriptor)
    (pool.utf8Text name ++ " " ++ pool.utf8Text descriptor)

def memberText (pool : Pool) (kind owner name descriptor : String) : String :=
  kind ++ " " ++ pool.classText owner ++ " " ++ pool.nameAndTypeText name descriptor

/-- The definition of a constant: its kind, and its value or what it refers to. -/
def definition (pool : Pool) : Constant → String
  | .null => "Null"
  | .utf8 text => "Utf8 " ++ escape text
  | .int value => "Int " ++ String.ofList (intText value.toInt)
  | .float value => "Float " ++ value.constantText
  | .long value => "Long " ++ String.ofList (intText value.toInt) ++ "L"
  | .double value => "Double " ++ value.constantText
  | .class name => "Class " ++ pool.utf8Text name
  | .string text => "String " ++ pool.utf8Text text
  | .nameAndType name descriptor =>
    "NameAndType " ++ pool.utf8Text name ++ " " ++ pool.utf8Text descriptor
  | .field owner name descriptor => pool.memberText "Field" owner name descriptor
  | .method owner name descriptor => pool.memberText "Method" owner name descriptor
  | .interfaceMethod owner name descriptor =>
    pool.memberText "InterfaceMethod" owner name descriptor

/-- A constant as an operand: a reference, or its definition if the pool does not have it. -/
def operand (pool : Pool) (c : Constant) : String :=
  pool.referenceOr c (pool.definition c)

def line (pool : Pool) (number : Nat) (c : Constant) : String :=
  reference number ++ "\t" ++ pool.definition c ++ "\n"

def listing (pool : Pool) : String :=
  String.join (pool.numbered.map fun (c, number) => pool.line number c)

end Pool

end ClassText
