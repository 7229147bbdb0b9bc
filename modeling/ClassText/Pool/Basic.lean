import ClassText.Instruction.Basic
import ClassText.Type.Descriptor

/-!
# Constant pools

A pool holds the constants of a class, each once. A constant that names others by their
position, such as a method by its class and its name, comes after them.
-/

namespace ClassText

/-- A constant of a pool, with the constants that it refers to spelled out. -/
inductive Constant where
  /-- The entry at position zero, which no constant has. -/
  | null
  | utf8 (text : String)
  | int (value : Int32)
  | float (value : Single)
  | long (value : Int64)
  | double (value : Double)
  | class (name : String)
  | string (text : String)
  | nameAndType (name descriptor : String)
  | field (owner name descriptor : String)
  | method (owner name descriptor : String)
  | interfaceMethod (owner name descriptor : String)
deriving DecidableEq

namespace Constant

/-- The constants that a constant refers to directly. -/
def parts : Constant → List Constant
  | .class text | .string text => [.utf8 text]
  | .nameAndType name descriptor => [.utf8 name, .utf8 descriptor]
  | .field owner name descriptor | .method owner name descriptor
  | .interfaceMethod owner name descriptor => [.class owner, .nameAndType name descriptor]
  | .null | .utf8 _ | .int _ | .float _ | .long _ | .double _ => []

/-- The length of the longest chain of references from a constant. -/
def depth : Constant → Nat
  | .field .. | .method .. | .interfaceMethod .. => 2
  | .class _ | .string _ | .nameAndType .. => 1
  | .null | .utf8 _ | .int _ | .float _ | .long _ | .double _ => 0

theorem depth_of_mem_parts {c part : Constant} (h : part ∈ c.parts) : part.depth < c.depth := by
  have hall : ∀ part ∈ c.parts, part.depth < c.depth := by
    cases c <;> simp [parts, depth]
  exact hall part h

/-- The constant that an instruction refers to, if it has one in the pool. -/
def ofInstruction? : Instruction → Option Constant
  | .invoke .interface owner name signature =>
    some (.interfaceMethod owner.internal name signature.descriptor)
  | .invoke _ owner name signature => some (.method owner.internal name signature.descriptor)
  | .getField _ owner name type | .putField _ owner name type =>
    some (.field owner.internal name type.descriptor)
  | .push (.string text) => some (.string text)
  | .push (.float value) => some (.float value)
  | .push (.long value) => if value = 0 ∨ value = 1 then none else some (.long value)
  | _ => none

end Constant

/-- The entries of a pool by position, the null entry first, and an index from constants to
their positions. -/
structure Pool where
  entries : List Constant
  index : List (Constant × Nat)
deriving DecidableEq

namespace Pool

def empty : Pool := ⟨[.null], []⟩

def size (pool : Pool) : Nat :=
  (pool.entries.filter (· ≠ .null)).length

def position? (pool : Pool) (c : Constant) : Option Nat :=
  pool.index.lookup c

def append (pool : Pool) (c : Constant) : Pool :=
  ⟨pool.entries ++ [c], (c, pool.entries.length) :: pool.index⟩

/-- Adds a constant, unless the pool has it, after the constants that it refers to. The result
has its position, which is zero for the null entry. -/
def locate (pool : Pool) (c : Constant) : Pool × Nat :=
  match pool.position? c with
  | some position => (pool, position)
  | none =>
    if c = .null then (pool, 0)
    else
      let pool := c.parts.attach.foldl (fun pool part => (pool.locate part.1).1) pool
      (pool.append c, pool.entries.length)
termination_by c.depth
decreasing_by exact Constant.depth_of_mem_parts part.2

def add (pool : Pool) (c : Constant) : Pool :=
  (pool.locate c).1

def addAll (pool : Pool) (cs : List Constant) : Pool :=
  cs.foldl add pool

end Pool

end ClassText
