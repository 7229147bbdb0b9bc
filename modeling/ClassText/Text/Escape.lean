/-!
# Strings in a class listing

A string that looks like a name or a descriptor stands for itself. Any other string
is written between double quotes as printable ASCII: quotes and backslashes get a
backslash, and everything else outside ASCII's visible range is cut into UTF-16 units,
each written with four hexadecimal digits.
-/

namespace ClassText.Escape

def isLetter (c : Char) : Bool :=
  ('a' ≤ c && c ≤ 'z') || ('A' ≤ c && c ≤ 'Z')

/-- The characters that may follow the start of a bare word. -/
def isWordChar (c : Char) : Bool :=
  isLetter c || ('0' ≤ c && c ≤ '9') || "_$;/[()<>*+-".toList.contains c

/-- Bare words start like a name, a method descriptor, an angle-bracketed name or an array
descriptor. -/
def isWord : List Char → Bool
  | '[' :: c :: rest => (('A' ≤ c && c ≤ 'Z') || c == '[') && rest.all isWordChar
  | c :: rest => (isLetter c || "_$(<".toList.contains c) && rest.all isWordChar
  | [] => false

/-- The UTF-16 units of a character: one, or a surrogate pair. -/
def units (c : Char) : List Nat :=
  let n := c.toNat
  if n < 0x10000 then [n]
  else [0xD800 + (n - 0x10000) / 0x400, 0xDC00 + (n - 0x10000) % 0x400]

def hexDigit (n : Nat) : Char :=
  if n < 10 then Char.ofNat ('0'.toNat + n) else Char.ofNat ('A'.toNat + (n - 10))

def unitEscape (unit : Nat) : List Char :=
  ['\\', 'u', hexDigit (unit / 0x1000 % 16), hexDigit (unit / 0x100 % 16),
    hexDigit (unit / 0x10 % 16), hexDigit (unit % 16)]

def escapeChar (c : Char) : List Char :=
  if c = '"' then ['\\', '"']
  else if c = '\\' then ['\\', '\\']
  else if ' ' ≤ c && c ≤ '~' then [c]
  else (units c).flatMap unitEscape

def encode (text : List Char) : List Char :=
  if isWord text then text else '"' :: text.flatMap escapeChar ++ ['"']

end ClassText.Escape

namespace ClassText

/-- The form of a string constant in a class listing. -/
def escape (text : String) : String :=
  String.ofList (Escape.encode text.toList)

end ClassText
