import ForecastJob.Decimal.Shortest

/-!
# How floating point numbers are laid out

* `Layout` : which decimals are written positionally;
* `Layout.write` : the text of a finite double; a point always stands in it, or an exponent;
* `plain` : every decimal is written positionally;
* `compact` : the point may move sixteen places to the right or five to the left.
-/

namespace ForecastJob.Decimal

/-- The positions of the point, counted from before the first digit, that are written out. -/
structure Layout where
  /-- The point stands here at the least. -/
  lowest? : Option Int
  /-- The point stands here at the most. -/
  highest? : Option Int
  deriving Repr, DecidableEq

/-- Every decimal is written positionally. -/
def plain : Layout := ⟨none, none⟩

/-- Decimals from `0.00001` up to below `10 ^ 16` are written positionally. -/
def compact : Layout := ⟨some (-4), some 16⟩

def Layout.allows (l : Layout) (p : Int) : Bool :=
  l.lowest?.all (· ≤ p) && l.highest?.all (p ≤ ·)

def zeros (n : Nat) : List Char :=
  List.replicate n '0'

/-- The digits with a point at position `p`, counted from before the first one. -/
def positional (ds : List Char) (p : Int) : List Char :=
  if p ≤ 0 then '0' :: '.' :: zeros (-p).toNat ++ ds
  else
    let n := p.toNat
    if ds.length ≤ n then ds ++ zeros (n - ds.length) ++ ['.', '0']
    else ds.take n ++ '.' :: ds.drop n

/-- The digits with a point behind the first one, and the exponent. -/
def scientific (ds : List Char) (p : Int) : List Char :=
  let tail := 'e' :: (toString (p - 1)).toList
  match ds with
  | [] => tail
  | [d] => d :: tail
  | d :: e :: es => d :: '.' :: e :: es ++ tail

def Layout.digits (l : Layout) (s : Scientific) : List Char :=
  if s.digits = 0 then ['0', '.', '0'] else
  let ds := (toString s.digits).toList
  let p := s.exponent + ds.length
  if l.allows p then positional ds p else scientific ds p

def Layout.finite (l : Layout) (b : Binary) : String :=
  let digits := String.ofList (l.digits (shortest b))
  if b.negative then "-" ++ digits else digits

/-- The text of a double, given the texts of NaN and of infinity. -/
def Layout.write (l : Layout) (nan inf : String) (x : Float) : String :=
  match Binary.ofFloat? x with
  | some b => l.finite b
  | none => if isNaN x then nan else if isNegative x then "-" ++ inf else inf

end ForecastJob.Decimal
