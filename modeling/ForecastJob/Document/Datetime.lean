/-!
# Dates and times

The dates and times of RFC 3339, whole or in part: a date, a time of day, or both with or without
an offset from UTC.

* `Datetime` : such a date or time, and its parts;
* `Datetime.toText` : its text, with the shortest fraction of a second;
* `Datetime.read?` : the longest one at the front of a list of characters;
* `Datetime.parse?` : one that makes up a whole text.
-/

namespace ForecastJob

structure Date where
  year : Nat
  month : Nat
  day : Nat
  deriving Repr, DecidableEq

structure TimeOfDay where
  hour : Nat
  minute : Nat
  second : Nat
  nanosecond : Nat
  deriving Repr, DecidableEq

/-- How local time differs from UTC. -/
inductive Offset where
  | utc
  | minutes (m : Int)
  deriving Repr, DecidableEq

/-- A date, a time, or both. -/
inductive Datetime where
  | date (d : Date)
  | time (t : TimeOfDay)
  | both (d : Date) (t : TimeOfDay) (offset : Option Offset)
  deriving Repr, DecidableEq

/-- The decimal digits of a number, with zeros in front up to some width. -/
def padded (width n : Nat) : List Char :=
  let digits := Nat.toDigits 10 n
  List.replicate (width - digits.length) '0' ++ digits

/-! ## Writing -/

def Date.toChars (d : Date) : List Char :=
  padded 4 d.year ++ '-' :: padded 2 d.month ++ '-' :: padded 2 d.day

/-- The digits of a fraction of a second, without zeros at the end. -/
def TimeOfDay.fraction (nanosecond : Nat) : List Char :=
  ((padded 9 nanosecond).reverse.dropWhile (· == '0')).reverse

def TimeOfDay.toChars (t : TimeOfDay) : List Char :=
  let clock := padded 2 t.hour ++ ':' :: padded 2 t.minute ++ ':' :: padded 2 t.second
  if t.nanosecond = 0 then clock else clock ++ '.' :: TimeOfDay.fraction t.nanosecond

def Offset.toChars : Offset → List Char
  | utc => ['Z']
  | minutes m =>
    (if m < 0 then '-' else '+') ::
      padded 2 (m.natAbs / 60) ++ ':' :: padded 2 (m.natAbs % 60)

namespace Datetime

def toText : Datetime → String
  | date d => String.ofList d.toChars
  | time t => String.ofList t.toChars
  | both d t offset =>
    String.ofList (d.toChars ++ 'T' :: t.toChars ++ (offset.map Offset.toChars).getD [])

/-! ## Reading -/

/-- How late an hour and how far an offset may be. -/
structure Bounds where
  /-- The last hour of a time. -/
  hour : Nat
  /-- The last hour of an offset. -/
  offsetHour : Nat
  /-- The last minute of an offset. -/
  offsetMinute : Nat
  /-- The greatest offset in minutes. -/
  offset : Nat
  deriving Repr, DecidableEq

/-- The bounds of dates and times that are written in a document. -/
def written : Bounds := ⟨23, 23, 59, 1439⟩

/-- The bounds of dates and times that are passed on as texts: midnight may end a day. -/
def passedOn : Bounds := ⟨24, 99, 99, 1440⟩

def digit? (c : Char) : Option Nat :=
  if c.isDigit then some (c.toNat - '0'.toNat) else none

/-- A number of exactly `n` digits at the front. -/
def number? : Nat → Nat → List Char → Option (Nat × List Char)
  | 0, acc, cs => some (acc, cs)
  | _ + 1, _, [] => none
  | n + 1, acc, c :: cs => do
    let d ← digit? c
    number? n (10 * acc + d) cs

/-- A number of two digits after a separator. -/
def after? (separator : Char) : List Char → Option (Nat × List Char)
  | c :: cs => if c = separator then number? 2 0 cs else none
  | [] => none

def daysInMonth (year month : Nat) : Nat :=
  if month = 2 then
    if year % 4 = 0 ∧ (year % 100 ≠ 0 ∨ year % 400 = 0) then 29 else 28
  else if [4, 6, 9, 11].contains month then 30 else 31

def readDate? (cs : List Char) : Option (Date × List Char) := do
  let (year, cs) ← number? 4 0 cs
  let (month, cs) ← after? '-' cs
  let (day, cs) ← after? '-' cs
  if 1 ≤ month ∧ month ≤ 12 ∧ 1 ≤ day ∧ day ≤ daysInMonth year month then
    some (⟨year, month, day⟩, cs)
  else none

/-- The nanoseconds of the digits of a fraction; digits past the ninth do not count. -/
def nanoseconds (digits : List Char) : Nat :=
  ((digits ++ List.replicate 9 '0').take 9).foldl (fun n c => 10 * n + (c.toNat - '0'.toNat)) 0

def readFraction? : List Char → Option (Nat × List Char)
  | '.' :: cs =>
    let digits := cs.takeWhile Char.isDigit
    if digits.isEmpty then none else some (nanoseconds digits, cs.dropWhile Char.isDigit)
  | cs => some (0, cs)

def readTime? (b : Bounds) (cs : List Char) : Option (TimeOfDay × List Char) := do
  let (hour, cs) ← number? 2 0 cs
  let (minute, cs) ← after? ':' cs
  let (second, cs) ← after? ':' cs
  let (nanosecond, cs) ← readFraction? cs
  if hour ≤ b.hour ∧ minute ≤ 59 ∧ second ≤ 60 then some (⟨hour, minute, second, nanosecond⟩, cs)
  else none

/-- An offset in hours and minutes at the front, after its sign. -/
def readOffset? (b : Bounds) (sign : Int) (cs : List Char) : Option (Offset × List Char) := do
  let (hours, cs) ← number? 2 0 cs
  let (minutes, cs) ← after? ':' cs
  let total := hours * 60 + minutes
  if hours ≤ b.offsetHour ∧ minutes ≤ b.offsetMinute ∧ total ≤ b.offset then
    some (.minutes (sign * total), cs)
  else none

def readOptionalOffset? (b : Bounds) : List Char → Option (Option Offset × List Char)
  | 'Z' :: cs => some (some .utc, cs)
  | 'z' :: cs => some (some .utc, cs)
  | '+' :: cs => (readOffset? b 1 cs).map fun (o, cs) => (some o, cs)
  | '-' :: cs => (readOffset? b (-1) cs).map fun (o, cs) => (some o, cs)
  | cs => some (none, cs)

/-- What follows the sign between a date and a time, if there is a time. A blank is such a sign
only before a digit. -/
def timeAfterDate? : List Char → Option (List Char)
  | 'T' :: cs => some cs
  | 't' :: cs => some cs
  | ' ' :: c :: cs => if c.isDigit then some (c :: cs) else none
  | _ => none

/-- The longest date or time at the front. -/
def read? (b : Bounds) (cs : List Char) : Option (Datetime × List Char) :=
  if cs[2]? = some ':' then do
    let (t, cs) ← readTime? b cs
    some (.time t, cs)
  else do
    let (d, cs) ← readDate? cs
    match timeAfterDate? cs with
    | none => some (.date d, cs)
    | some cs =>
      let (t, cs) ← readTime? b cs
      let (offset, cs) ← readOptionalOffset? b cs
      some (.both d t offset, cs)

def parse? (b : Bounds) (s : String) : Option Datetime :=
  match read? b s.toList with
  | some (d, []) => some d
  | _ => none

end Datetime

end ForecastJob
