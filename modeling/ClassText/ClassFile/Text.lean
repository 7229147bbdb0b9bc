import ClassText.ClassFile.Basic
import ClassText.Instruction.Text
import ClassText.Pool.Text
import ClassText.Type.SourceForm

/-!
# The text of class files

The constant pool comes first, then the header of the class with its attributes, and
between braces the fields and methods with theirs. Operands of attributes are references
to the pool where it has them.
-/

namespace ClassText

def indent (level : Nat) : String :=
  String.ofList (List.replicate (2 * level) ' ')

/-- The lines of a method's instructions: labels stand at the level of the body, instructions
one level deeper. -/
def Code.lines (level : Nat) (code : Code) : List String :=
  code.instructions.map fun
    | .label name => indent level ++ (Instruction.label name).text ++ "\n"
    | instruction => indent (level + 1) ++ instruction.text ++ "\n"

def Code.text (level : Nat) (code : Code) : String :=
  ".code stack " ++ toString code.stack.toNat ++ " locals " ++ toString code.locals.toNat ++
    "\n" ++ String.join (code.lines level) ++ indent level ++ ".end code"

namespace Attribute

def directive (pool : Pool) (level : Nat) : Attribute → String
  | .code body => body.text level
  | .constantValue value => ".constantvalue " ++ pool.operand value
  | .deprecated => ".deprecated"
  | .exceptions classes =>
    ".exceptions" ++ String.join (classes.map fun c => " " ++ pool.classText c.internal)
  | .signature text => ".signature " ++ pool.utf8Text text
  | .sourceFile name => ".sourcefile " ++ pool.utf8Text name
  | .synthetic => ".synthetic"

def text (pool : Pool) (level : Nat) (a : Attribute) : String :=
  indent level ++ a.directive pool level ++ "\n"

def texts (pool : Pool) (level : Nat) (attributes : List Attribute) : String :=
  String.join (attributes.map (text pool level))

end Attribute

def Field.text (pool : Pool) (level : Nat) (f : Field) : String :=
  indent level ++ Modifier.keywords f.modifiers ++ f.type.sourceForm ++ " " ++ f.name ++ ";\n" ++
    Attribute.texts pool level f.attributes

def Signature.parameterClause (s : Signature) : String :=
  match s.typeParameters with
  | [] => ""
  | vs => "<" ++ ", ".intercalate (vs.map TypeVariable.sourceForm) ++ "> "

def Method.text (pool : Pool) (level : Nat) (m : Method) : String :=
  indent level ++ Modifier.keywords m.modifiers ++ m.signature.parameterClause ++
    m.signature.result.sourceForm ++ " " ++ m.name ++ "(" ++
    ", ".intercalate (m.signature.parameters.map ValueType.sourceForm) ++ ");\n" ++
    Attribute.texts pool level m.attributes

namespace ClassFile

def header (c : ClassFile) : String :=
  Modifier.keywords c.modifiers ++ "class " ++ c.name.dotted ++ " " ++
    (match c.superclass with
      | none => ""
      | some s => " extends " ++ s.dotted) ++
    (match c.interfaces with
      | [] => ""
      | is => " implements " ++ ", ".intercalate (is.map ClassName.dotted)) ++ "\n"

/-- The fields, with an empty line after them if there are some. -/
def fieldsText (c : ClassFile) : String :=
  String.join (c.fields.map (Field.text c.pool 1)) ++ if c.fields.isEmpty then "" else "\n"

/-- The methods, each with an empty line after it. -/
def methodsText (c : ClassFile) : String :=
  String.join (c.methods.map fun m => m.text c.pool 1 ++ "\n")

def text (c : ClassFile) : String :=
  c.pool.listing ++ "\n" ++ c.header ++ Attribute.texts c.pool 0 c.attributes ++ " \x7b\n" ++
    c.fieldsText ++ c.methodsText ++ "\x7d\n"

end ClassFile

end ClassText
