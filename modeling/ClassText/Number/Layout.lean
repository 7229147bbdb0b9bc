import ClassText.Number.Decimal
import ClassText.Text.Basic

/-!
# The layout of decimals

Which digits a number is written with is settled by `BinaryFormat.shortest`. A layout
says how they are set: where the point goes, and when an exponent is used.
-/

namespace ClassText

/-- The decisions of a format for floating-point text. -/
structure FloatLayout where
  /-- The least power of ten whose multiples are written without an exponent. -/
  positionalFrom : Int
  positionalTo : Int
  /-- Whether a single digit before an exponent is followed by `.0`. -/
  alwaysPointed : Bool

namespace FloatLayout

/-- Sets digits whose first one counts units of `10 ^ power` in positional notation, with at
least one digit on either side of the point. -/
def positional (ds : List Char) (power : Int) : List Char :=
  if power < 0 then
    '0' :: '.' :: List.replicate (power.natAbs - 1) '0' ++ ds
  else
    let whole := power.natAbs + 1
    ds.take whole ++ List.replicate (whole - ds.length) '0' ++
      '.' :: (if ds.length ≤ whole then ['0'] else ds.drop whole)

/-- Sets the same digits with one digit before the point and an exponent. -/
def exponential (alwaysPointed : Bool) (ds : List Char) (power : Int) : List Char :=
  let fraction := match ds.drop 1 with
    | [] => if alwaysPointed then ['.', '0'] else []
    | more => '.' :: more
  ds.take 1 ++ fraction ++ 'e' :: intText power

def decimalText (layout : FloatLayout) (d : Decimal) : List Char :=
  let all := natText d.coefficient
  let (ds, power) :=
    if d.coefficient = 0 then (['0'], 0)
    else (dropEndWhile (· == '0') all, d.exponent + (all.length - 1 : Nat))
  if layout.positionalFrom ≤ power ∧ power ≤ layout.positionalTo then positional ds power
  else exponential layout.alwaysPointed ds power

def text (layout : FloatLayout) (f : BinaryFormat) (negative : Bool) (magnitude : Nat) :
    List Char :=
  let unsigned := layout.decimalText (f.shortest magnitude)
  if negative then '-' :: unsigned else unsigned

end FloatLayout

end ClassText
