/-!
# Types

The types of a class file: the primitive ones, arrays, classes, and the generic forms
that method signatures use. Types are compared by their structure, the bounds of type
variables included.
-/

namespace ClassText

/-- The name of a class, its packages separated by slashes. -/
structure ClassName where
  internal : String
deriving DecidableEq

namespace ClassName

def rootClass : ClassName := ⟨"java/lang/Object"⟩

/-- The name as programs spell it, with dots in place of the slashes. -/
def dotted (name : ClassName) : String :=
  name.internal.map fun c => if c = '/' then '.' else c

end ClassName

inductive Primitive where
  | int | long | float | double | bool | char | short | byte
deriving DecidableEq

mutual

inductive ValueType where
  | primitive (kind : Primitive)
  | void
  | array (element : ValueType)
  | object (name : ClassName)
  | function (signature : Signature)
  | typeVariable (binder : TypeVariable)

/-- The name of a type variable with the types that bound it. -/
inductive TypeVariable where
  | mk (name : String) (bounds : List ValueType)

inductive Signature where
  | mk (typeParameters : List TypeVariable) (parameters : List ValueType) (result : ValueType)

end

namespace TypeVariable

def name : TypeVariable → String
  | .mk name _ => name

def bounds : TypeVariable → List ValueType
  | .mk _ bounds => bounds

end TypeVariable

namespace Signature

def typeParameters : Signature → List TypeVariable
  | .mk typeParameters _ _ => typeParameters

def parameters : Signature → List ValueType
  | .mk _ parameters _ => parameters

def result : Signature → ValueType
  | .mk _ _ result => result

end Signature

mutual

def ValueType.same : ValueType → ValueType → Bool
  | .primitive p, .primitive q => p == q
  | .void, .void => true
  | .array s, .array t => s.same t
  | .object m, .object n => m == n
  | .function s, .function t => s.same t
  | .typeVariable v, .typeVariable w => v.same w
  | _, _ => false

def TypeVariable.same : TypeVariable → TypeVariable → Bool
  | .mk m bs, .mk n cs => m == n && sameTypes bs cs

def Signature.same : Signature → Signature → Bool
  | .mk vs ps s, .mk ws qs t => sameVariables vs ws && sameTypes ps qs && s.same t

def sameTypes : List ValueType → List ValueType → Bool
  | [], [] => true
  | s :: ss, t :: ts => s.same t && sameTypes ss ts
  | _, _ => false

def sameVariables : List TypeVariable → List TypeVariable → Bool
  | [], [] => true
  | v :: vs, w :: ws => v.same w && sameVariables vs ws
  | _, _ => false

end

mutual

theorem ValueType.same_iff : (s t : ValueType) → (s.same t = true ↔ s = t)
  | .primitive _, t => by cases t <;> simp [ValueType.same]
  | .void, t => by cases t <;> simp [ValueType.same]
  | .array s, t => by cases t <;> simp [ValueType.same, s.same_iff]
  | .object _, t => by cases t <;> simp [ValueType.same]
  | .function s, t => by cases t <;> simp [ValueType.same, s.same_iff]
  | .typeVariable v, t => by cases t <;> simp [ValueType.same, v.same_iff]

theorem TypeVariable.same_iff : (v w : TypeVariable) → (v.same w = true ↔ v = w)
  | .mk _ bs, .mk _ cs => by simp [TypeVariable.same, sameTypes_iff bs cs]

theorem Signature.same_iff : (s t : Signature) → (s.same t = true ↔ s = t)
  | .mk vs ps s, .mk ws qs t => by
    simp [Signature.same, sameVariables_iff vs ws, sameTypes_iff ps qs, s.same_iff, and_assoc]

theorem sameTypes_iff : (ss ts : List ValueType) → (sameTypes ss ts = true ↔ ss = ts)
  | [], ts => by cases ts <;> simp [sameTypes]
  | s :: ss, ts => by cases ts <;> simp [sameTypes, s.same_iff, sameTypes_iff ss]

theorem sameVariables_iff : (vs ws : List TypeVariable) → (sameVariables vs ws = true ↔ vs = ws)
  | [], ws => by cases ws <;> simp [sameVariables]
  | v :: vs, ws => by cases ws <;> simp [sameVariables, v.same_iff, sameVariables_iff vs]

end

instance : DecidableEq ValueType := fun s t => decidable_of_iff _ (s.same_iff t)
instance : DecidableEq TypeVariable := fun v w => decidable_of_iff _ (v.same_iff w)
instance : DecidableEq Signature := fun s t => decidable_of_iff _ (s.same_iff t)

namespace ValueType

abbrev int : ValueType := .primitive .int
abbrev long : ValueType := .primitive .long

/-- The type of any reference. -/
def reference : ValueType := .object .rootClass

def isWide : ValueType → Bool
  | .primitive .long | .primitive .double => true
  | _ => false

end ValueType

end ClassText
