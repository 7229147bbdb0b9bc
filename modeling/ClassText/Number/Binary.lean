/-!
# Binary floating point

A finite number of a binary format is a natural number of *units*, the format's least
positive value, with a sign. Its *magnitude* is the pattern of its bits without the
sign; magnitudes are ordered as the numbers are, and the one after the largest finite
number stands for infinity.
-/

namespace ClassText

-- the powers of core, also where others are in scope
instance (priority := high) powNat : Pow Nat Nat := instPowNat

structure BinaryFormat where
  fractionBits : Nat
  exponentBits : Nat

namespace BinaryFormat

def single : BinaryFormat := ⟨23, 8⟩
def double : BinaryFormat := ⟨52, 11⟩

/-- The unit is two to the minus this number. -/
def unitPlaces (f : BinaryFormat) : Nat :=
  2 ^ (f.exponentBits - 1) - 2 + f.fractionBits

/-- The magnitude of infinity; those above it belong to no number. -/
def infinity (f : BinaryFormat) : Nat :=
  (2 ^ f.exponentBits - 1) * 2 ^ f.fractionBits

def signBit (f : BinaryFormat) : Nat :=
  2 ^ (f.fractionBits + f.exponentBits)

/-- The digits of a finite magnitude, with the leading one that a normal number leaves out. -/
def significand (f : BinaryFormat) (magnitude : Nat) : Nat :=
  if magnitude < 2 ^ f.fractionBits then magnitude
  else 2 ^ f.fractionBits + magnitude % 2 ^ f.fractionBits

/-- How often the significand of a finite magnitude is doubled. -/
def scale (f : BinaryFormat) (magnitude : Nat) : Nat :=
  magnitude / 2 ^ f.fractionBits - 1

/-- The value of a finite magnitude in units. -/
def units (f : BinaryFormat) (magnitude : Nat) : Nat :=
  f.significand magnitude * 2 ^ f.scale magnitude

/-- The quotient rounded to the nearest integer, a tie to the even one. -/
def divNearest (a b : Nat) : Nat :=
  if 2 * (a % b) < b ∨ 2 * (a % b) = b ∧ a / b % 2 = 0 then a / b else a / b + 1

/-- The magnitude nearest to a fraction, a tie going to the one with an even pattern. -/
def nearest (f : BinaryFormat) (numerator denominator : Nat) : Nat :=
  let scaled := numerator * 2 ^ f.unitPlaces
  let shift := (scaled / denominator).log2 - f.fractionBits
  min (shift * 2 ^ f.fractionBits + divNearest scaled (denominator * 2 ^ shift)) f.infinity

/-- The magnitude of `significand * 2 ^ exponent`, if that value is a finite number of the
format. -/
def ofDyadic? (f : BinaryFormat) (significand : Nat) (exponent : Int) : Option Nat :=
  if significand = 0 then some 0
  else if exponent > (2 ^ f.exponentBits : Nat) then none
  else if exponent + f.unitPlaces + significand.log2 < 0 then none
  else
    let (numerator, denominator) := match exponent with
      | .ofNat e => (significand * 2 ^ e, 1)
      | .negSucc e => (significand, 2 ^ (e + 1))
    let magnitude := f.nearest numerator denominator
    if magnitude < f.infinity ∧ f.units magnitude * denominator = numerator * 2 ^ f.unitPlaces then
      some magnitude
    else none

end BinaryFormat

/-- A single-precision number, by its bits. -/
structure Single where
  bits : UInt32
deriving DecidableEq

namespace Single

def isNegative (x : Single) : Bool :=
  BinaryFormat.single.signBit ≤ x.bits.toNat

def magnitude (x : Single) : Nat :=
  x.bits.toNat % BinaryFormat.single.signBit

def isFinite (x : Single) : Bool :=
  x.magnitude < BinaryFormat.single.infinity

def isNaN (x : Single) : Bool :=
  BinaryFormat.single.infinity < x.magnitude

def ofMagnitude (negative : Bool) (magnitude : Nat) : Single :=
  ⟨UInt32.ofNat (if negative then BinaryFormat.single.signBit + magnitude else magnitude)⟩

/-- Equality of values: the two zeros are equal, and what is no number equals nothing. -/
def sameValue (x y : Single) : Bool :=
  !x.isNaN && !y.isNaN && (x == y || (x.magnitude == 0 && y.magnitude == 0))

end Single

structure Double where
  bits : UInt64
deriving DecidableEq

namespace Double

def isNegative (x : Double) : Bool :=
  BinaryFormat.double.signBit ≤ x.bits.toNat

def magnitude (x : Double) : Nat :=
  x.bits.toNat % BinaryFormat.double.signBit

def isFinite (x : Double) : Bool :=
  x.magnitude < BinaryFormat.double.infinity

def isNaN (x : Double) : Bool :=
  BinaryFormat.double.infinity < x.magnitude

end Double

end ClassText
