import ClassText.Number.Binary
import ClassText.Number.Digits

/-!
# Decimals and the numbers nearest to them

A decimal is read as the number of a binary format that is nearest to it. A number is
written as the shortest decimal that is read as that number.
-/

namespace ClassText

structure Decimal where
  coefficient : Nat
  exponent : Int
deriving DecidableEq

namespace BinaryFormat

/-- The magnitude nearest to a decimal. Decimals far outside the format's range are settled
without their powers of ten. -/
def ofDecimal (f : BinaryFormat) (d : Decimal) : Nat :=
  if d.coefficient = 0 then 0
  else if d.exponent > (2 ^ f.exponentBits : Nat) then f.infinity
  else if d.exponent + d.coefficient.log2 + f.unitPlaces + 2 < 0 then 0
  else match d.exponent with
    | .ofNat e => f.nearest (d.coefficient * 10 ^ e) 1
    | .negSucc e => f.nearest d.coefficient (10 ^ (e + 1))

/-- The value of a finite magnitude, which always is a decimal. -/
def toDecimal (f : BinaryFormat) (magnitude : Nat) : Decimal :=
  ⟨f.units magnitude * 5 ^ f.unitPlaces, -f.unitPlaces⟩

/-- The decimal without its last `places` digits, or the next one, if it is read as the given
magnitude. Of the two the closer one is preferred, and of two equally close ones the larger. -/
def shorten? (f : BinaryFormat) (magnitude : Nat) (d : Decimal) (places : Nat) : Option Decimal :=
  let step := 10 ^ places
  let below : Decimal := ⟨d.coefficient / step, d.exponent + places⟩
  let above : Decimal := ⟨d.coefficient / step + 1, d.exponent + places⟩
  if 2 * (d.coefficient % step) < step then
    [below, above].find? (f.ofDecimal · == magnitude)
  else
    [above, below].find? (f.ofDecimal · == magnitude)

/-- Drops as many digits of `d` as the magnitude allows, at most `places`. -/
def shortestFrom (f : BinaryFormat) (magnitude : Nat) (d : Decimal) : (places : Nat) → Decimal
  | 0 => d
  | places + 1 =>
    (f.shorten? magnitude d (places + 1)).getD (f.shortestFrom magnitude d places)

def shortest (f : BinaryFormat) (magnitude : Nat) : Decimal :=
  let d := f.toDecimal magnitude
  f.shortestFrom magnitude d ((natText d.coefficient).length - 1)

end BinaryFormat

end ClassText
