import ClassText.Number.Decimal
import ClassText.Text.Basic

/-!
# Floating-point literals

A literal is read as a single-precision number. It is a decimal, rounded to the nearest
number, or a hexadecimal literal with a binary exponent, which has to denote a number
exactly. A type letter `f` or `d` in either case may follow; in a hexadecimal literal,
where these letters are digits too, only after the exponent.

Hexadecimal literals are the work of a reader from outside. `readWith` takes it as a
parameter and hands it the literal whole, from the minus sign on, without the plus signs
and the type letter. `readHex` stands in for it in `read`, and keeps to what is documented
of it: after `0x` there are hexadecimal digits with an optional point, at least one digit,
and a decimal exponent of two behind `p` or `P`, which has to be there; nothing may follow;
and only numbers of the format are read, exactly, from digits worth less than `hexLimit`.
-/

namespace ClassText.FloatLiteral

/-- Splits a sign off; true stands for a minus. -/
def splitSign : List Char → Bool × List Char
  | '-' :: rest => (true, rest)
  | '+' :: rest => (false, rest)
  | rest => (false, rest)

def readExponent (text : List Char) : Option Int :=
  let (negative, ds) := splitSign text
  if allDigits Char.isDigit ds then
    some (if negative then -ofDigits 10 ds else ofDigits 10 ds)
  else none

/-- The digits of a number with a point: those before it, those after it, and the rest. -/
def splitPoint (isDigit : Char → Bool) (text : List Char) :
    List Char × List Char × List Char :=
  let whole := text.takeWhile isDigit
  match text.dropWhile isDigit with
  | '.' :: rest => (whole, rest.takeWhile isDigit, rest.dropWhile isDigit)
  | rest => (whole, [], rest)

/-- An unsigned decimal: digits with an optional point and an optional exponent. -/
def readDecimal (text : List Char) : Option Decimal :=
  let (whole, fraction, rest) := splitPoint Char.isDigit text
  let ds := whole ++ fraction
  let exponent := match rest with
    | [] => some 0
    | c :: rest => if c = 'e' ∨ c = 'E' then readExponent rest else none
  if ds.isEmpty then none
  else exponent.map fun e => ⟨ofDigits 10 ds, e - fraction.length⟩

/-- Whether a text is a word given in lower case, in any case. -/
def isWord (word : String) (text : List Char) : Bool :=
  text.map Char.toLower == word.toList

/-- The magnitude of an unsigned decimal literal, of infinity or of what is no number. -/
def readMagnitude (text : List Char) : Option Nat :=
  let f := BinaryFormat.single
  if isWord "inf" text || isWord "infinity" text then some f.infinity
  else if isWord "nan" text then some (f.infinity + 2 ^ (f.fractionBits - 1))
  else (readDecimal text).map f.ofDecimal

/-- A decimal literal or a word, with its sign. -/
def readPlain (text : List Char) : Option Single :=
  let (negative, unsigned) := splitSign text
  (readMagnitude unsigned).map (Single.ofMagnitude negative)

/-- The digits of a hexadecimal literal may be worth less than this. -/
def hexLimit : Nat := 0x10000000000000000

/-- The magnitude of a hexadecimal literal after its `0x`. Zeros at the end of the fraction do
not count among its digits. -/
def readHexMagnitude (text : List Char) : Option Nat :=
  let (whole, fraction, rest) := splitPoint isHexDigit text
  let kept := dropEndWhile (· == '0') fraction
  let value := ofDigits 16 (whole ++ kept)
  match rest with
  | c :: rest =>
    if (c = 'p' ∨ c = 'P') ∧ whole ++ fraction ≠ [] ∧ value < hexLimit then
      (readExponent rest).bind fun e => BinaryFormat.single.ofDyadic? value (e - 4 * kept.length)
    else none
  | [] => none

/-- A hexadecimal literal with its sign. -/
def readHex (text : List Char) : Option Single :=
  let (negative, unsigned) := splitSign text
  (readHexMagnitude (unsigned.drop 2)).map (Single.ofMagnitude negative)

def isHex : List Char → Bool
  | '0' :: 'x' :: _ => true
  | '-' :: '0' :: 'x' :: _ => true
  | _ => false

def isTypeLetter (c : Char) : Bool :=
  c == 'f' || c == 'F' || c == 'd' || c == 'D'

def dropTypeLetter (text : List Char) : List Char :=
  if !isHex text || text.contains 'p' then
    if (text.getLast?.map isTypeLetter).getD false then text.dropLast else text
  else text

/-- Reads a literal, with `hex` for hexadecimal ones. -/
def readWith (hex : List Char → Option Single) (text : List Char) : Option Single :=
  let text := text.dropWhile (· == '+')
  if isHex text then hex (dropTypeLetter text) else readPlain (dropTypeLetter text)

def read (text : List Char) : Option Single :=
  readWith readHex text

end ClassText.FloatLiteral
