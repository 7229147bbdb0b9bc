import ClassText.Pool.Basic

/-!
# Class files

A class with its fields, its methods and their attributes. The constant pool is filled
with everything that the class refers to, in the order in which a compiler writes it.
-/

namespace ClassText

inductive Modifier where
  | «private» | «protected» | «public» | static | abstract | final | super | bridge | enum
  | synthetic | native | strictfp | synchronized | transient | volatile
deriving DecidableEq

namespace Modifier

def keyword : Modifier → String
  | .private => "private"
  | .protected => "protected"
  | .public => "public"
  | .static => "static"
  | .abstract => "abstract"
  | .final => "final"
  | .super => "super"
  | .bridge => "bridge"
  | .enum => "enum"
  | .synthetic => "synthetic"
  | .native => "native"
  | .strictfp => "strictfp"
  | .synchronized => "synchronized"
  | .transient => "transient"
  | .volatile => "volatile"

def keywords (modifiers : List Modifier) : String :=
  String.join (modifiers.map fun m => m.keyword ++ " ")

end Modifier

/-- The body of a method: the size of its stack, the number of its local variable slots, and
its instructions. -/
structure Code where
  stack : UInt16
  locals : UInt16
  instructions : List Instruction
deriving DecidableEq

namespace Code

/-- The first slot that an instruction on a local variable leaves free. -/
def slotsOf : Instruction → Nat
  | .load slot type | .store slot type => slot.toNat + if type.isWide then 2 else 1
  | _ => 0

/-- The slots that instructions touch, up to the largest number that a class file can state. -/
def localsOf (instructions : List Instruction) : Nat :=
  min ((instructions.map slotsOf).foldr max 0) 0xFFFF

def ofInstructions (stack : UInt16) (instructions : List Instruction) : Code :=
  ⟨stack, UInt16.ofNat (localsOf instructions), instructions⟩

end Code

inductive Attribute where
  | code (body : Code)
  | constantValue (value : Constant)
  | deprecated
  | exceptions (classes : List ClassName)
  | signature (text : String)
  | sourceFile (name : String)
  | synthetic
deriving DecidableEq

namespace Attribute

def name : Attribute → String
  | .code _ => "Code"
  | .constantValue _ => "ConstantValue"
  | .deprecated => "Deprecated"
  | .exceptions _ => "Exceptions"
  | .signature _ => "Signature"
  | .sourceFile _ => "SourceFile"
  | .synthetic => "Synthetic"

/-- What an attribute refers to, apart from its name. -/
def operands : Attribute → List Constant
  | .code body => body.instructions.filterMap Constant.ofInstruction?
  | .constantValue value => [value]
  | .exceptions classes => classes.map fun c => .class c.internal
  | .signature text | .sourceFile text => [.utf8 text]
  | .deprecated | .synthetic => []

/-- The constants of an attribute, its name first. -/
def constants (a : Attribute) : List Constant :=
  .utf8 a.name :: a.operands

end Attribute

structure Field where
  modifiers : List Modifier
  type : ValueType
  name : String
  attributes : List Attribute
deriving DecidableEq

structure Method where
  modifiers : List Modifier
  signature : Signature
  name : String
  attributes : List Attribute
deriving DecidableEq

def Field.constants (f : Field) : List Constant :=
  .utf8 f.name :: .utf8 f.type.descriptor :: f.attributes.flatMap Attribute.constants

def Method.constants (m : Method) : List Constant :=
  .utf8 m.name :: .utf8 m.signature.descriptor :: m.attributes.flatMap Attribute.constants

structure ClassFile where
  modifiers : List Modifier
  name : ClassName
  superclass : Option ClassName
  interfaces : List ClassName
  attributes : List Attribute
  fields : List Field
  methods : List Method
  pool : Pool
deriving DecidableEq

namespace ClassFile

def named (name : ClassName) : ClassFile :=
  ⟨[], name, none, [], [], [], [], .empty⟩

/-- The constants of a class: the class itself, its superclass and interfaces, the fields, the
methods, and the attributes of the class. -/
def constants (c : ClassFile) : List Constant :=
  .class c.name.internal ::
    c.superclass.toList.map (fun s => .class s.internal) ++
    c.interfaces.map (fun i => .class i.internal) ++
    c.fields.flatMap Field.constants ++
    c.methods.flatMap Method.constants ++
    c.attributes.flatMap Attribute.constants

def fillPool (c : ClassFile) : ClassFile :=
  { c with pool := c.pool.addAll c.constants }

end ClassFile

end ClassText
