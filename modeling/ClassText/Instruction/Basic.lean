import ClassText.Number.Binary
import ClassText.Type.Basic

/-!
# Instructions

The instructions of a listing. Labels are instructions of their own, and jumps name
their targets without resolving them.
-/

namespace ClassText

inductive InvokeMode where
  | virtual | interface | special | static
deriving DecidableEq

inductive FieldScope where
  | static | perObject
deriving DecidableEq

inductive Literal where
  | int (value : Int32)
  | long (value : Int64)
  | float (value : Single)
  | string (value : String)
deriving DecidableEq

inductive Instruction where
  | load (slot : UInt16) (type : ValueType)
  | store (slot : UInt16) (type : ValueType)
  /-- Reads an element; the type is that of the array. -/
  | arrayLoad (type : ValueType)
  | arrayStore (type : ValueType)
  | invoke (mode : InvokeMode) (owner : ClassName) (name : String) (signature : Signature)
  /-- Leaves the method, with a value if a type is given. -/
  | leave (type : Option ValueType)
  | getField (scope : FieldScope) (owner : ClassName) (name : String) (type : ValueType)
  | putField (scope : FieldScope) (owner : ClassName) (name : String) (type : ValueType)
  | push (value : Literal)
  | goto (target : String)
  | label (name : String)
deriving DecidableEq

/-- Equality of constants, floating-point ones by value. -/
def Literal.sameValue : Literal → Literal → Bool
  | .float x, .float y => x.sameValue y
  | x, y => x == y

/-- Equality of instructions, floating-point constants by value. -/
def Instruction.sameValue : Instruction → Instruction → Bool
  | .push x, .push y => x.sameValue y
  | x, y => x == y

end ClassText
