/-!
# Binary floating point numbers as exact fractions

* `Binary` : a sign and a magnitude `mantissa * 2 ^ exponent`;
* `Binary.ofFloat?` : what a finite double stands for, read off its bits;
* `isFinite`, `isNaN`, `isNegative` : the classes of doubles.
-/

namespace ForecastJob.Decimal

/-- A finite double: a sign and the magnitude `mantissa * 2 ^ exponent`. -/
structure Binary where
  negative : Bool
  /-- The significand, with the hidden bit where there is one. -/
  mantissa : Nat
  /-- The power of two of the significand's last bit. -/
  exponent : Int
  /-- The next smaller double is half as far away as the next greater one. -/
  narrowBelow : Bool
  deriving Repr, DecidableEq

def exponentBits (x : Float) : Nat :=
  x.toBits.toNat / Nat.pow 2 52 % Nat.pow 2 11

def fractionBits (x : Float) : Nat :=
  x.toBits.toNat % Nat.pow 2 52

def isNegative (x : Float) : Bool :=
  x.toBits.toNat / Nat.pow 2 63 == 1

def isFinite (x : Float) : Bool :=
  exponentBits x != 2047

def isNaN (x : Float) : Bool :=
  exponentBits x == 2047 && fractionBits x != 0

/-- What a finite double stands for. -/
def Binary.ofFloat? (x : Float) : Option Binary :=
  let e := exponentBits x
  let f := fractionBits x
  if e = 2047 then none
  else if e = 0 then some ⟨isNegative x, f, -1074, false⟩
  else some ⟨isNegative x, f + Nat.pow 2 52, e - 1075, f == 0 && e > 1⟩

end ForecastJob.Decimal
