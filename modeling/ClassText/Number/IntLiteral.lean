import ClassText.Number.Digits

/-!
# Integer literals

An integer is written in decimal, or in hexadecimal after `0x`. Any number of plus
signs may stand in front. The value has to lie in the range of the place that the
literal is written in; a range without negative numbers admits no sign on decimal
digits, save for a plain `-0`.
-/

namespace ClassText

structure IntRange where
  low : Int
  high : Int

namespace IntRange

def slot : IntRange := ⟨0, 0xFFFF⟩

def int : IntRange := ⟨-0x80000000, 0x7FFFFFFF⟩

def long : IntRange := ⟨-0x8000000000000000, 0x7FFFFFFFFFFFFFFF⟩

def fit (range : IntRange) (value : Int) : Option Int :=
  if range.low ≤ value ∧ value ≤ range.high then some value else none

/-- Hexadecimal digits, which may follow one plus sign. -/
def readMagnitude (text : List Char) : Option Nat :=
  let ds := match text with
    | '+' :: ds => ds
    | ds => ds
  if allDigits isHexDigit ds then some (ofDigits 16 ds) else none

def readHex (text : List Char) : Option Int :=
  match text with
  | '-' :: ds => if allDigits isHexDigit ds then some (-ofDigits 16 ds) else none
  | _ => (readMagnitude text).map fun n => (n : Int)

/-- Decimal digits, after a minus sign if the range has negative numbers. -/
def readDecimal (range : IntRange) (text : List Char) : Option Int :=
  match text with
  | '-' :: ds =>
    if range.low < 0 ∧ allDigits Char.isDigit ds then range.fit (-ofDigits 10 ds) else none
  | ds => if allDigits Char.isDigit ds then range.fit (ofDigits 10 ds) else none

/-- Reads what follows the leading plus signs. -/
def readUnsigned (range : IntRange) (text : List Char) : Option Int :=
  match text with
  | ['-', '0'] => range.readDecimal ['0']
  | '-' :: '0' :: 'x' :: ds => (readMagnitude ds).bind fun n => range.fit (-n)
  | '0' :: 'x' :: ds => (readHex ds).bind range.fit
  | _ => range.readDecimal text

/-- The value of an integer literal, if it is one and fits. -/
def read (range : IntRange) (text : List Char) : Option Int :=
  range.readUnsigned (text.dropWhile (· == '+'))

/-- The value of an operand that is part of a mnemonic, where an `m` stands for a minus sign
and only decimal digits may follow it. -/
def readFused (range : IntRange) (text : List Char) : Option Int :=
  match text with
  | 'm' :: ds => if ds.all Char.isDigit then range.read ('-' :: ds) else none
  | _ => range.read text

end IntRange

end ClassText
