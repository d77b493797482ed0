import ForecastJob.Decimal.Reading
import ForecastJob.Document
import ForecastJob.Json.Reader

/-!
# Numbers, truth values and dates in TOML

* `Toml.integer?`, `Toml.float?` : the number that a word is;
* `Toml.scalar?` : a value that is neither quoted nor a collection, and what follows it.
-/

namespace ForecastJob.Toml

/-- The digits of a number in groups: a single underscore may stand between two digits. -/
def ungrouped? (isDigit : Char → Bool) : List Char → Option (List Char)
  | [] => none
  | [c] => if isDigit c then some [c] else none
  | c :: '_' :: cs => if isDigit c then (ungrouped? isDigit cs).map (c :: ·) else none
  | c :: cs => if isDigit c then (ungrouped? isDigit cs).map (c :: ·) else none

def ofDigits (base : Nat) (ds : List Char) : Nat :=
  ds.foldl (fun n d => n * base + (Json.Text.hexDigit? d).getD 0) 0

/-- The whole number that decimal digits give; there is no zero in front of others. -/
def whole? (cs : List Char) : Option (List Char) := do
  let ds ← ungrouped? Char.isDigit cs
  if ds.length > 1 && ds.head? == some '0' then none else some ds

/-- The digits of a word in some base below ten, or sixteen. -/
def inBase? (base : Nat) (cs : List Char) : Option Nat :=
  (ungrouped? (fun c => (Json.Text.hexDigit? c).any (· < base)) cs).map (ofDigits base)

/-- A sign, if there is one, says whether what follows is negative. -/
def signed : List Char → Bool × List Char
  | '+' :: cs => (false, cs)
  | '-' :: cs => (true, cs)
  | cs => (false, cs)

def integer? : List Char → Option Int
  | '0' :: 'x' :: cs => (inBase? 16 cs).map Int.ofNat
  | '0' :: 'o' :: cs => (inBase? 8 cs).map Int.ofNat
  | '0' :: 'b' :: cs => (inBase? 2 cs).map Int.ofNat
  | word =>
    let (negative, cs) := signed word
    (whole? cs).map fun ds =>
      if negative then -(ofDigits 10 ds : Int) else ofDigits 10 ds

def exponent? (cs : List Char) : Option Int :=
  let (negative, cs) := signed cs
  (ungrouped? Char.isDigit cs).map fun ds =>
    if negative then -(ofDigits 10 ds : Int) else ofDigits 10 ds

/-- The digits behind a point and the exponent; there is at least one of them. -/
def fractionAndExponent? : List Char → Option (List Char × Int)
  | '.' :: cs => do
    let ds ← ungrouped? Char.isDigit (cs.takeWhile fun c => c != 'e' && c != 'E')
    match cs.dropWhile fun c => c != 'e' && c != 'E' with
    | [] => some (ds, 0)
    | _ :: cs => (exponent? cs).map (ds, ·)
  | 'e' :: cs => (exponent? cs).map ([], ·)
  | 'E' :: cs => (exponent? cs).map ([], ·)
  | _ => none

/-- The number with a point or an exponent that a word is. One too large is none, but one too
small is negative infinity. -/
def finite? (negative : Bool) (cs : List Char) : Option Float := do
  let isWhole := fun c : Char => c.isDigit || c == '_'
  let whole ← whole? (cs.takeWhile isWhole)
  let (fraction, exponent) ← fractionAndExponent? (cs.dropWhile isWhole)
  let x := Decimal.nearest negative (ofDigits 10 (whole ++ fraction)) (exponent - fraction.length)
  if x == 1 / 0 then none else some x

def float? (word : List Char) : Option Float :=
  let (negative, cs) := signed word
  let apply := fun x : Float => if negative then -x else x
  if cs = ['i', 'n', 'f'] then some (apply (1 / 0))
  else if cs = ['n', 'a', 'n'] then some (apply (Float.abs (0 / 0)))
  else finite? negative cs

def isWord (c : Char) : Bool :=
  c.isAlphanum || c == '_' || c == '+' || c == '-' || c == '.'

def word? (word : List Char) : Option Node :=
  if word = ['t', 'r', 'u', 'e'] then some (.bool true)
  else if word = ['f', 'a', 'l', 's', 'e'] then some (.bool false)
  else match integer? word with
    | some i => Node.int? i
    | none => (float? word).map .float

/-- A value that is neither quoted nor a collection, and what follows it. -/
def scalar? (cs : List Char) : Option (Node × List Char) :=
  match Datetime.read? Datetime.written cs with
  | some (d, rest) => some (.datetime d, rest)
  | none => (word? (cs.takeWhile isWord)).map fun n => (n, cs.dropWhile isWord)

end ForecastJob.Toml
