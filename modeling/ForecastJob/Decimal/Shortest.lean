import ForecastJob.Decimal.Binary

/-!
# Shortest decimals

Many decimals lie nearer to a double than to any other one. `shortest` picks one with the fewest
digits, and of those the nearest to the double, by exact arithmetic: for 1, 2, … 17 digits it looks
at the two neighbours of the double on that decimal grid.

* `Scientific` : a decimal `digits * 10 ^ exponent`;
* `shortest` : the decimal of a positive fraction `mantissa * 2 ^ exponent`.
-/

namespace ForecastJob.Decimal

/-- The decimal `digits * 10 ^ exponent`. -/
structure Scientific where
  digits : Nat
  exponent : Int
  deriving Repr, DecidableEq, Inhabited

/-- A positive fraction with the interval of the numbers that round to it, over one denominator. -/
structure Window where
  low : Nat
  mid : Nat
  high : Nat
  den : Nat
  /-- The ends belong to the interval. -/
  closed : Bool
  deriving Repr, DecidableEq

def Window.ofBinary (b : Binary) : Window :=
  let below := if b.narrowBelow then 1 else 2
  let scale := Nat.pow 2 (b.exponent - 2).toNat
  ⟨(4 * b.mantissa - below) * scale, 4 * b.mantissa * scale, (4 * b.mantissa + 2) * scale,
    Nat.pow 2 (2 - b.exponent).toNat, b.mantissa % 2 == 0⟩

/-- The interval in units of `10 ^ k`. -/
def Window.rescale (w : Window) (k : Int) : Window :=
  let up := Nat.pow 10 (-k).toNat
  ⟨w.low * up, w.mid * up, w.high * up, w.den * Nat.pow 10 k.toNat, w.closed⟩

def Window.holds (w : Window) (n : Nat) : Bool :=
  if w.closed then w.low ≤ n * w.den && n * w.den ≤ w.high
  else w.low < n * w.den && n * w.den < w.high

/-- The number of decimal digits, at least one. -/
def digitCount (n : Nat) : Nat :=
  (Nat.toDigits 10 n).length

/-- The power of ten of the first digit of the fraction `num / den`. -/
def magnitude (num den : Nat) : Int :=
  if den ≤ num then (digitCount (num / den) : Int) - 1
  else
    match (List.range 400).find? fun j => den ≤ num * Nat.pow 10 j with
    | some j => -(j : Int)
    | none => -400

/-- The neighbour of the number on the grid of whole numbers that lies in the interval, the nearer
one if both do; a tie goes to the even one. -/
def Window.nearest? (w : Window) : Option Nat :=
  let n := w.mid / w.den
  let rest := w.mid % w.den
  match w.holds n, w.holds (n + 1) with
  | true, true =>
    if 2 * rest < w.den then some n
    else if 2 * rest > w.den then some (n + 1)
    else if n % 2 = 0 then some n
    else some (n + 1)
  | true, false => some n
  | false, true => some (n + 1)
  | false, false => none

/-- Drops zeros at the end of the digits, at most `fuel` of them. -/
def Scientific.reduce : Nat → Scientific → Scientific
  | 0, s => s
  | fuel + 1, s =>
    if s.digits % 10 = 0 && s.digits != 0 then reduce fuel ⟨s.digits / 10, s.exponent + 1⟩ else s

/-- The first grid, from one digit on, with a decimal that rounds to the number. -/
def shortestFrom (w : Window) (top : Int) : List Nat → Scientific
  | [] => ⟨(w.rescale (top - 16)).mid / (w.rescale (top - 16)).den, top - 16⟩
  | count :: counts =>
    let k := top - count
    match (w.rescale k).nearest? with
    | some n => ⟨n, k⟩
    | none => shortestFrom w top counts

/-- The shortest decimal that rounds to a finite double, without its sign. -/
def shortest (b : Binary) : Scientific :=
  if b.mantissa = 0 then ⟨0, 0⟩ else
  let w := Window.ofBinary b
  (shortestFrom w (magnitude w.mid w.den) (List.range 17)).reduce 20

end ForecastJob.Decimal
