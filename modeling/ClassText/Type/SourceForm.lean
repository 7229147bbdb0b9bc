import ClassText.Type.Basic

/-!
# Types as programs spell them

The readable form of types: keywords for the primitive ones, dots in class names, and
brackets after the element type of an array. The bounds of a type variable are shown
where it is introduced and nowhere else.
-/

namespace ClassText

def Primitive.keyword : Primitive → String
  | .int => "int"
  | .long => "long"
  | .float => "float"
  | .double => "double"
  | .bool => "boolean"
  | .char => "char"
  | .short => "short"
  | .byte => "byte"

mutual

def ValueType.sourceForm : ValueType → String
  | .primitive kind => kind.keyword
  | .void => "void"
  | .array element => element.sourceForm ++ "[]"
  | .object name => name.dotted
  | .function (.mk _ parameters result) =>
    "(" ++ ", ".intercalate (sourceForms parameters) ++ ")" ++ result.sourceForm
  | .typeVariable (.mk name _) => name

def sourceForms : List ValueType → List String
  | [] => []
  | t :: ts => t.sourceForm :: sourceForms ts

end

/-- A type variable where it is introduced, such as `T extends java.lang.Number`. -/
def TypeVariable.sourceForm (v : TypeVariable) : String :=
  match v.bounds with
  | [] => v.name
  | bounds => v.name ++ " extends " ++ " & ".intercalate (sourceForms bounds)

end ClassText
