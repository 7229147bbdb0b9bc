import ClassText.Type.Basic

/-!
# Descriptors

The compact form of types in class files: a letter for each primitive type, brackets
for arrays, and names closed by a semicolon.
-/

namespace ClassText

def Primitive.letter : Primitive → String
  | .int => "I"
  | .long => "J"
  | .float => "F"
  | .double => "D"
  | .bool => "Z"
  | .char => "C"
  | .short => "S"
  | .byte => "B"

mutual

def ValueType.descriptor : ValueType → String
  | .primitive kind => kind.letter
  | .void => "V"
  | .array element => "[" ++ element.descriptor
  | .object name => "L" ++ name.internal ++ ";"
  | .function signature => signature.descriptor
  | .typeVariable (.mk name _) => "T" ++ name ++ ";"

/-- The type parameters come first, each with its bounds. -/
def Signature.descriptor : Signature → String
  | .mk [] parameters result =>
    "(" ++ descriptors parameters ++ ")" ++ result.descriptor
  | .mk (v :: vs) parameters result =>
    "<" ++ binders (v :: vs) ++ ">(" ++ descriptors parameters ++ ")" ++ result.descriptor

def descriptors : List ValueType → String
  | [] => ""
  | t :: ts => t.descriptor ++ descriptors ts

/-- Type variables where they are introduced. -/
def binders : List TypeVariable → String
  | [] => ""
  | v :: vs => v.binder ++ binders vs

/-- The name of a type variable, a colon, and the bounds with colons between them. -/
def TypeVariable.binder : TypeVariable → String
  | .mk name [] => name ++ ":"
  | .mk name (bound :: more) => name ++ ":" ++ bound.descriptor ++ moreBounds more

def moreBounds : List ValueType → String
  | [] => ""
  | t :: ts => ":" ++ t.descriptor ++ moreBounds ts

end

end ClassText
