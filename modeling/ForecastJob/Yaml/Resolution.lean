import ForecastJob.Decimal.Reading
import ForecastJob.Json.Reader

/-!
# What scalars without quotes stand for

* `Yaml.isNullWord`, `Yaml.bool?`, `Yaml.integer?`, `Yaml.float?` : the words of the core schema;
* `Yaml.Plain`, `Yaml.resolve` : the value that a word without quotes stands for.
-/

namespace ForecastJob.Yaml

def isNullWord (s : String) : Bool :=
  ["null", "Null", "NULL", "~"].contains s

def bool? (s : String) : Option Bool :=
  if ["true", "True", "TRUE"].contains s then some true
  else if ["false", "False", "FALSE"].contains s then some false
  else none

/-! ## Integers -/

def natural? (base : Nat) (cs : List Char) : Option Nat := do
  let ds ← cs.mapM Json.Text.hexDigit?
  if ds.isEmpty || !ds.all (· < base) then none
  else some (ds.foldl (fun n d => n * base + d) 0)

/-- The number that digits give, to the base that the marks before them name. -/
def magnitude? : List Char → Option Nat
  | '0' :: 'x' :: cs => natural? 16 cs
  | '0' :: 'o' :: cs => natural? 8 cs
  | '0' :: 'b' :: cs => natural? 2 cs
  | cs => natural? 10 cs

def unsigned : List Char → List Char
  | '+' :: cs => cs
  | '-' :: cs => cs
  | cs => cs

/-- Decimal digits with a zero in front of others are no number. -/
def isPaddedDigits (cs : List Char) : Bool :=
  let ds := unsigned cs
  ds.length > 1 && ds.head? == some '0' && ds.all Char.isDigit

def integer? (cs : List Char) : Option Int :=
  if isPaddedDigits cs then none
  else match cs with
    | '-' :: ds => (magnitude? ds).map fun n => -(n : Int)
    | _ => (magnitude? (unsigned cs)).map Int.ofNat

/-- The integer is no more than a word of 64 bits holds. -/
def isShort (i : Int) : Bool :=
  Int64.minValue.toInt ≤ i && i < UInt64.size

/-- The integer is no more than a word of 128 bits holds. -/
def isLong (i : Int) : Bool :=
  -(Nat.pow 2 127) ≤ i && i < Nat.pow 2 128

/-! ## Floating point numbers -/

def exponent? (cs : List Char) : Option Int :=
  (natural? 10 (unsigned cs)).map fun n => if cs.head? == some '-' then -(n : Int) else n

/-- The decimal number, without a sign, that a word stands for: there is a digit before the point or
behind it. -/
def decimal? (negative : Bool) (cs : List Char) : Option Float := do
  let whole := cs.takeWhile Char.isDigit
  let rest := cs.dropWhile Char.isDigit
  let (fraction, rest) := match rest with
    | '.' :: rest => (rest.takeWhile Char.isDigit, rest.dropWhile Char.isDigit)
    | rest => ([], rest)
  if whole.isEmpty && fraction.isEmpty then none
  else
    let exponent ← match rest with
      | [] => some 0
      | e :: rest => if e == 'e' || e == 'E' then exponent? rest else none
    let digits := (whole ++ fraction).foldl (fun n d => n * 10 + (d.toNat - '0'.toNat)) 0
    some (Decimal.nearest negative digits (exponent - fraction.length))

/-- The floating point number that a word stands for. A decimal beyond the doubles is none. -/
def float? (cs : List Char) : Option Float :=
  let word := String.ofList (unsigned cs)
  let negative := cs.head? == some '-'
  if [".inf", ".Inf", ".INF"].contains word then some (if negative then -(1 / 0) else 1 / 0)
  else if [".nan", ".NaN", ".NAN"].contains (String.ofList cs) then some (0 / 0)
  else (decimal? negative (unsigned cs)).filter Decimal.isFinite

/-! ## Words -/

/-- What a word without quotes stands for. -/
inductive Plain where
  | null
  | bool (b : Bool)
  | int (i : Int)
  | float (x : Float)
  | text (s : String)
  /-- The word is an integer that no value holds. -/
  | tooLong
  deriving Inhabited

def Plain.ofInt (i : Int) : Plain :=
  if isShort i then .int i else .tooLong

/-- What a word without quotes stands for. An integer of more than 128 bits is a decimal. -/
def resolve (s : String) : Plain :=
  let cs := s.toList
  if s.isEmpty || isNullWord s then .null
  else match bool? s with
    | some b => .bool b
    | none =>
      match (integer? cs).filter isLong with
      | some i => .ofInt i
      | none =>
        match if isPaddedDigits cs then none else float? cs with
        | some x => .float x
        | none => .text s

end ForecastJob.Yaml
