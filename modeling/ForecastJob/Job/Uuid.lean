import ForecastJob.Codec
import ForecastJob.Json.Printer
import ForecastJob.Json.Reader
import ForecastJob.Text.Blank

/-!
# UUIDs

* `Uuid` : thirty-two hexadecimal digits;
* `Uuid.parse?` : with hyphens, without, in braces, or as a URN;
* `Uuid.toText` : with hyphens, in lower case.
-/

namespace ForecastJob

/-- A universally unique identifier. -/
structure Uuid where
  digits : List (Fin 16)
  length_digits : digits.length = 32
  deriving DecidableEq

namespace Uuid

/-- The sizes of the groups between the hyphens. -/
def groups : List Nat := [8, 4, 4, 4, 12]

def digit? (c : Char) : Option (Fin 16) :=
  (Json.Text.hexDigit? c).map (Fin.ofNat 16)

def ofDigits? (cs : List Char) : Option Uuid := do
  let ds ← cs.mapM digit?
  if h : ds.length = 32 then some ⟨ds, h⟩ else none

/-- The characters of the groups, without the hyphens between them. -/
def ungroup? : List Nat → List Char → Option (List Char)
  | [], [] => some []
  | [], _ :: _ => none
  | [n], cs => if cs.length = n then some cs else none
  | n :: ns, cs =>
    match cs.drop n with
    | '-' :: rest => (ungroup? ns rest).map (cs.take n ++ ·)
    | _ => none

def ofGroups? (cs : List Char) : Option Uuid :=
  (ungroup? groups cs).bind ofDigits?

/-- Reads an identifier: thirty-two digits, or groups of digits, alone, in braces or as a URN. -/
def parse? (s : String) : Option Uuid :=
  let cs := s.toList
  match cs with
  | '{' :: rest => (Text.dropBack? ['}'] rest).bind ofGroups?
  | _ =>
    match Text.dropFront? "urn:uuid:".toList cs with
    | some rest => ofGroups? rest
    | none => if cs.length = 32 then ofDigits? cs else ofGroups? cs

def group : List Nat → List Char → List Char
  | [], cs => cs
  | [_], cs => cs
  | n :: ns, cs => cs.take n ++ '-' :: group ns (cs.drop n)

def toText (u : Uuid) : String :=
  String.ofList (group groups (u.digits.map fun d => Json.hexChar d.val))

def codec : Codec Uuid where
  read t := do
    match parse? (← Codec.text.read t) with
    | some u => .ok u
    | none => .error .malformed
  write u := .text u.toText

end Uuid

end ForecastJob
