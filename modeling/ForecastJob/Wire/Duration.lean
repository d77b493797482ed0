import ForecastJob.Text.Blank

/-!
# ISO-8601 durations

Spans of time are exchanged as texts such as `P1DT2M`. Only units of fixed length are understood.

* `Duration.format` : the text of a number of seconds, without zero parts;
* `Duration.parseSeconds`, `Duration.parseMinutes` : the whole seconds, or minutes, of a text.
-/

namespace ForecastJob.Duration

/-- Why a text is no duration. -/
inductive Invalid where
  /-- The text does not start with `P`. -/
  | missingDesignator (value : String)
  | unexpected (value : String) (found : Char)
  /-- Years and months have no fixed length. -/
  | calendarUnit (value : String)
  | empty (value : String)
  | overflow (value : String)
  deriving Repr, DecidableEq

def Invalid.message : Invalid → String
  | .missingDesignator v => s!"invalid ISO-8601 duration '{v}': must start with 'P'"
  | .unexpected v c => s!"invalid ISO-8601 duration '{v}': unexpected '{c}'"
  | .calendarUnit v => s!"invalid ISO-8601 duration '{v}': years and months are not supported"
  | .empty v => s!"invalid ISO-8601 duration '{v}': no components"
  | .overflow v => s!"ISO-8601 duration '{v}' overflows"

/-! ## Writing -/

/-- A component, unless its amount is zero. -/
def component (amount : Nat) (unit : Char) : String :=
  if amount = 0 then "" else toString amount ++ unit.toString

/-- The text of a number of seconds. -/
def format (total : Nat) : String :=
  if total = 0 then "PT0S" else
  let clock := component (total % 86400 / 3600) 'H' ++ component (total % 3600 / 60) 'M' ++
    component (total % 60) 'S'
  "P" ++ component (total / 86400) 'D' ++ (if clock.isEmpty then "" else "T" ++ clock)

def formatSeconds (seconds : UInt64) : String :=
  format seconds.toNat

def formatMinutes (minutes : UInt32) : String :=
  format (minutes.toNat * 60)

/-! ## Reading -/

/-- The seconds in a unit, before the `T` or after it. -/
def scale? : Char → Bool → Option Nat
  | 'W', false => some 604800
  | 'D', false => some 86400
  | 'H', true => some 3600
  | 'M', true => some 60
  | 'S', true => some 1
  | _, _ => none

/-- The unit has no fixed length: years anywhere, months before the `T`. -/
def isCalendar : Char → Bool → Bool
  | 'Y', _ => true
  | 'M', false => true
  | _, _ => false

def isUnit (c : Char) : Bool :=
  ['W', 'D', 'H', 'M', 'S', 'Y'].contains c

def isNumeral (c : Char) : Bool :=
  c.isDigit || c == '.' || c == ','

def digitsValue (ds : List Char) : Nat :=
  ds.foldl (fun n d => n * 10 + (d.toNat - '0'.toNat)) 0

/-- The whole part of an amount; the fraction after a point or a comma does not count. -/
def wholePart (numeral : List Char) : Nat :=
  digitsValue (numeral.takeWhile Char.isDigit)

/-- One past the greatest number of seconds. -/
def limit : Nat := UInt64.size

/-- Where a reader of a duration stands. -/
structure State where
  /-- The seconds so far. -/
  total : Nat
  /-- The `T` has been read. -/
  inTime : Bool
  /-- The amount whose unit is still to come. -/
  numeral : List Char
  /-- There has been a component. -/
  started : Bool
  deriving Repr, DecidableEq

def State.init : State := ⟨0, false, [], false⟩

/-- Ends a component at its unit. -/
def State.close (value : String) (c : Char) (st : State) : Except Invalid State :=
  let unit := c.toUpper
  if st.numeral.isEmpty then .error (.unexpected value c)
  else if isCalendar unit st.inTime then .error (.calendarUnit value)
  else match scale? unit st.inTime with
    | none => .error (.unexpected value c)
    | some scale =>
      let amount := wholePart st.numeral
      let total := st.total + amount * scale
      if amount < limit && amount * scale < limit && total < limit then
        .ok ⟨total, st.inTime, [], true⟩
      else .error (.overflow value)

def State.step (value : String) (st : State) (c : Char) : Except Invalid State :=
  if c.toUpper == 'T' && !st.inTime && st.numeral.isEmpty then .ok { st with inTime := true }
  else if isNumeral c then .ok { st with numeral := st.numeral ++ [c] }
  else if isUnit c.toUpper then st.close value c
  else .error (.unexpected value c)

/-- What follows the `P` of a duration. -/
def body? (s : String) : Option (List Char) :=
  match Text.trimChars s.toList with
  | 'P' :: cs => some cs
  | 'p' :: cs => some cs
  | _ => none

/-- The whole seconds of a duration. -/
def parseNat (s : String) : Except Invalid Nat := do
  let some cs := body? s | throw (.missingDesignator s)
  let st ← cs.foldlM (State.step s) State.init
  match st.numeral.getLast? with
  | some c => throw (.unexpected s c)
  | none => if st.started then pure st.total else throw (.empty s)

def parseSeconds (s : String) : Except Invalid UInt64 :=
  (parseNat s).map UInt64.ofNat

def parseMinutes (s : String) : Except Invalid UInt32 := do
  let seconds ← parseNat s
  if seconds / 60 < UInt32.size then pure (UInt32.ofNat (seconds / 60)) else throw (.overflow s)

end ForecastJob.Duration
