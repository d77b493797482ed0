import ForecastJob.Decimal.Binary

/-!
# Reading decimals

* `nearest` : the double nearest to a decimal;
* `approximate?` : the double that one rounding of the digits and one multiplication or division
  by a power of ten give, which may be a neighbour of the nearest one.
-/

namespace ForecastJob.Decimal

/-- `digits * 10 ^ exponent` rounded to a double. Decimals far beyond the range of doubles are not
computed. -/
def nearestMagnitude (digits : Nat) (exponent : Int) : Float :=
  let size : Int := (Nat.toDigits 10 digits).length
  if digits = 0 then 0
  else if exponent + size > 400 then 1 / 0
  else if exponent + size < -400 then 0
  else if exponent < 0 then Float.ofScientific digits true (-exponent).toNat
  else Float.ofScientific digits false exponent.toNat

def nearest (negative : Bool) (digits : Nat) (exponent : Int) : Float :=
  let x := nearestMagnitude digits exponent
  if negative then -x else x

def powerOfTen (k : Nat) : Float :=
  Float.ofScientific 1 false k

/-- `x * 10 ^ exponent`, step by step: powers of ten above `10 ^ 308` are no doubles. An infinite
result counts as none. At most `fuel` steps are made. -/
def scale? : Nat → Float → Int → Option Float
  | 0, x, _ => some x
  | fuel + 1, x, exponent =>
    if exponent.natAbs ≤ 308 then
      let y := if exponent < 0 then x / powerOfTen exponent.natAbs else
        x * powerOfTen exponent.natAbs
      if isFinite y then some y else none
    else if x == 0 then some x
    else if 0 ≤ exponent then none
    else scale? fuel (x / powerOfTen 308) (exponent + 308)

/-- The double that one rounding of the digits and one multiplication or division by a power of
ten give; none beyond the range of doubles. -/
def approximate? (negative : Bool) (digits : UInt64) (exponent : Int) : Option Float :=
  (scale? 10 digits.toFloat exponent).map fun x => if negative then -x else x

end ForecastJob.Decimal
