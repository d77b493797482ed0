import ForecastJob.Codec

/-!
# Records described by their fields

A record type is described once, by the table of its fields; reading and writing follow from it.

* `Field` : a name, whether the field must be there, and how it is read into a record and written
  from it;
* `Record` : the fields in order, the record that a reader starts from, and whether other fields
  are faults;
* `Record.read` : from a table, in the order of its entries, or from a list of the fields' values;
* `Union` : records told apart by a tag.
-/

namespace ForecastJob

structure Field (ρ : Type) where
  name : String
  required : Bool
  /-- Reads the field into a record. -/
  read : Tree → ρ → Except Fault ρ
  /-- The field's value, unless it is left out. -/
  write : ρ → Option Json

namespace Field

variable {ρ α : Type}

def mandatory (name : String) (c : Codec α) (get : ρ → α) (set : α → ρ → ρ) : Field ρ :=
  ⟨name, true, fun t r => (c.read t).map (set · r), fun r => some (c.write (get r))⟩

/-- A field that is always written but keeps its value when it is not there. -/
def defaulted (name : String) (c : Codec α) (get : ρ → α) (set : α → ρ → ρ) : Field ρ :=
  ⟨name, false, fun t r => (c.read t).map (set · r), fun r => some (c.write (get r))⟩

/-- A field that may have no value; null stands for none. -/
def optional (name : String) (c : Codec α) (get : ρ → Option α) (set : Option α → ρ → ρ) :
    Field ρ :=
  ⟨name, false, fun t r => (c.nullable.read t).map (set · r), fun r => (get r).map c.write⟩

/-- A field that may have no value; null does not stand for none. -/
def given (name : String) (c : Codec α) (get : ρ → Option α) (set : Option α → ρ → ρ) :
    Field ρ :=
  ⟨name, false, fun t r => (c.read t).map fun x => set (some x) r, fun r => (get r).map c.write⟩

/-- A dictionary that is left out when it has no keys. -/
def dict (name : String) (c : Codec α) (get : ρ → Dict α) (set : Dict α → ρ → ρ) : Field ρ :=
  ⟨name, false, fun t r => (c.dictOf.read t).map (set · r), fun r =>
    if (get r).isEmpty then none else some (c.dictOf.write (get r))⟩

end Field

/-- A record type, by its fields. -/
structure Record (ρ : Type) where
  /-- The fields, in the order in which they are written. -/
  fields : List (Field ρ)
  /-- The record with no field read. -/
  blank : ρ
  /-- A field that is not in the table is a fault. -/
  closed : Bool

namespace Record

variable {ρ : Type}

/-- Reads entries in order into a record, given the names read before. -/
def readEntries (r : Record ρ) : List (Option String × Tree) → List String → ρ →
    Except Fault (List String × ρ)
  | [], seen, x => .ok (seen, x)
  | (none, _) :: _, _, _ => .error .malformed
  | (some k, t) :: es, seen, x =>
    match r.fields.find? (·.name == k) with
    | some f =>
      if seen.contains k then .error (.duplicateField k) else do
      let x ← f.read t x
      r.readEntries es (k :: seen) x
    | none =>
      if r.closed then .error (.unknownField k)
      else if t.isIntact then r.readEntries es seen x
      else .error .malformed

/-- Reads a table: the first required field that is not there is missed at its end. -/
def readTable (r : Record ρ) (entries : List (Option String × Tree)) : Except Fault ρ := do
  let (seen, x) ← r.readEntries entries [] r.blank
  match r.fields.find? fun f => f.required && !seen.contains f.name with
  | some f => .error (.missingField f.name)
  | none => .ok x

/-- Reads a list of values, one for each field in order; fields at the end may be left out. -/
def readItems : List (Field ρ) → List Tree → ρ → Except Fault ρ
  | [], [], x => .ok x
  | [], _ :: _, _ => .error .malformed
  | f :: fs, [], x => if f.required then .error .malformed else readItems fs [] x
  | f :: fs, t :: ts, x => do
    let x ← f.read t x
    readItems fs ts x

/-- Reads a record from a table or from a list of its values. -/
def read (r : Record ρ) : Tree → Except Fault ρ
  | .table entries => r.readTable entries
  | .list items => readItems r.fields items r.blank
  | _ => .error .malformed

/-- Writes the fields that are not left out, in order. -/
def members (r : Record ρ) (x : ρ) : List (String × Json) :=
  r.fields.filterMap fun f => (f.write x).map (f.name, ·)

def write (r : Record ρ) (x : ρ) : Json :=
  .object (r.members x)

def codec (r : Record ρ) : Codec ρ :=
  ⟨r.read, r.write⟩

end Record

/-! ## Unions -/

mutual

/-- The tree stands for a value, at every depth. -/
def Tree.isReadable : Tree → Bool
  | .list items => areReadable items
  | .table entries => entriesAreReadable entries
  | .unreadable => false
  | .broken => false
  | _ => true

def areReadable : List Tree → Bool
  | [] => true
  | t :: ts => t.isReadable && areReadable ts

def entriesAreReadable : List (Option String × Tree) → Bool
  | [] => true
  | (k, t) :: es => k.isSome && t.isReadable && entriesAreReadable es

end

/-- Records told apart by the value of a tag. -/
structure Union (ρ : Type) where
  tag : String
  /-- For each value of the tag, how the rest of the record is read. -/
  variants : List (String × (Tree → Except Fault ρ))

namespace Union

variable {ρ : Type}

/-- A variant without fields: other entries do not matter, but a list must hold nothing more. -/
def unit (x : ρ) : Tree → Except Fault ρ
  | .list (_ :: _) => .error .malformed
  | _ => .ok x

def fields {σ : Type} (r : Record σ) (make : σ → ρ) (t : Tree) : Except Fault ρ :=
  (r.read t).map make

def variant? (u : Union ρ) : Tree → Option (Tree → Except Fault ρ)
  | .text s => (u.variants.find? (·.1 == s)).map (·.2)
  | _ => none

/-- Parts the tag from the other entries. -/
def split (u : Union ρ) : List (Option String × Tree) → Option (Tree → Except Fault ρ) →
    List (Option String × Tree) →
    Except Fault (Option (Tree → Except Fault ρ) × List (Option String × Tree))
  | [], found, rest => .ok (found, rest.reverse)
  | (none, _) :: _, _, _ => .error .malformed
  | (some k, t) :: es, found, rest =>
    if k == u.tag then
      if found.isSome then .error (.duplicateField u.tag)
      else match u.variant? t with
        | some read => u.split es (some read) rest
        | none => .error .malformed
    else if t.isReadable then u.split es found ((some k, t) :: rest)
    else .error .malformed

/-- Reads a record from a table, or from a list of the tag and the values of the fields. -/
def read (u : Union ρ) : Tree → Except Fault ρ
  | .table entries => do
    match ← u.split entries none [] with
    | (none, _) => .error (.missingField u.tag)
    | (some read, rest) => read (.table rest)
  | .list [] => .error (.missingField u.tag)
  | .list (t :: ts) =>
    match u.variant? t with
    | some read => if areReadable ts then read (.list ts) else .error .malformed
    | none => .error .malformed
  | _ => .error .malformed

def write (tag value : String) (members : List (String × Json)) : Json :=
  .object ((tag, .text value) :: members)

end Union

end ForecastJob
