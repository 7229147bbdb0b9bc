import ClassText.Type.Basic

/-!
# Type letters of mnemonics

Many mnemonics start with a letter for the type that they work on. Array instructions
tell the small types apart, while local variables hold them as integers.
-/

namespace ClassText.ValueType

def prefixTable : List (Char × ValueType) :=
  [('l', .long), ('i', .int), ('f', .primitive .float), ('d', .primitive .double),
    ('b', .primitive .bool), ('c', .primitive .char), ('s', .primitive .short),
    ('a', .reference)]

def ofPrefix? (c : Char) : Option ValueType :=
  prefixTable.lookup c

/-- The letter of the instructions on array elements. -/
def arrayPrefix : ValueType → Char
  | .primitive .int => 'i'
  | .primitive .long => 'l'
  | .primitive .float => 'f'
  | .primitive .double => 'd'
  | .primitive .bool | .primitive .byte => 'b'
  | .primitive .char => 'c'
  | .primitive .short => 's'
  | _ => 'a'

/-- The letter of the instructions on local variables and of returns. -/
def localPrefix : ValueType → Char
  | .primitive .bool | .primitive .byte | .primitive .char | .primitive .short => 'i'
  | t => t.arrayPrefix

end ClassText.ValueType
