import ForecastJob.Document

/-!
# Tables while a TOML text is read

A table can be spread over a text: its header, headers of tables within it, and keys with dots all
speak of it. How it came about decides what may still be added to it.

* `Entry` : what stands under a key so far;
* `Entries.define?` : gives a value to a key, which may have dots;
* `Section`, `Entries.extend?` : a header with the keys below it, and adding it to a document;
* `Entries.toNodes?` : the finished entries.
-/

namespace ForecastJob.Toml

/-- How a table came about. -/
inductive Origin where
  /-- It has a header of its own. -/
  | header
  /-- Only tables within it have headers. -/
  | path
  /-- Keys with dots speak of it. -/
  | dotted
  deriving Repr, DecidableEq

/-- What stands under a key so far. -/
inductive Entry where
  | value (n : Node)
  | table (origin : Origin) (entries : List (String × Entry))
  /-- An array of tables; there is at least one. -/
  | tables (all : List (List (String × Entry)))
  deriving Inhabited

/-- What stands under the keys of a table so far, in the order of the text. -/
abbrev Entries : Type := List (String × Entry)

namespace Entries

def set (k : String) (e : Entry) (es : Entries) : Entries :=
  es.map fun (k', e') => if k' = k then (k', e) else (k', e')

def drop (k : String) (es : Entries) : Entries :=
  es.filter fun e => e.1 != k

/-- Gives a value to a key within the tables that the path names. A path leads only through tables
that other keys with dots have opened, and its last table must be such a one. -/
def define? (v : Node) : (path : List String) → (key : String) → Entries → Option Entries
  | [], key, es => if (es.lookup key).isSome then none else some (es ++ [(key, .value v)])
  | k :: path, key, es =>
    match es.lookup k with
    | none => (define? v path key []).map fun sub => es ++ [(k, .table .dotted sub)]
    | some (.table .dotted sub) =>
      (define? v path key sub).map fun sub => set k (.table .dotted sub) es
    | some (.table .path sub) =>
      if path.isEmpty then none
      else (define? v path key sub).map fun sub => set k (.table .path sub) es
    | some (.tables all) =>
      if path.isEmpty then none
      else (define? v path key (all.getLastD [])).map fun sub =>
        set k (.tables (all.dropLast ++ [sub])) es
    | some (.table .header _) => none
    | some (.value _) => none

/-- Changes the table that a header's path leads to; through an array of tables it leads to the
last one. -/
def within? (change : Entries → Option Entries) : (path : List String) → Entries → Option Entries
  | [], es => change es
  | k :: path, es =>
    match es.lookup k with
    | none => (within? change path []).map fun sub => es ++ [(k, .table .path sub)]
    | some (.table origin sub) =>
      (within? change path sub).map fun sub => set k (.table origin sub) es
    | some (.tables all) =>
      (within? change path (all.getLastD [])).map fun sub =>
        set k (.tables (all.dropLast ++ [sub])) es
    | some (.value _) => none

end Entries

/-- A value with its key: the path of the tables before the last dot, and what is behind it. -/
structure Pair where
  path : List String
  key : String
  value : Node

def Entries.defineAll? (pairs : List Pair) (es : Entries) : Option Entries :=
  pairs.foldlM (fun es p => Entries.define? p.value p.path p.key es) es

structure Header where
  /-- The header is of one more table of an array. -/
  inArray : Bool
  path : List String
  key : String
  deriving Repr, DecidableEq

structure Section where
  header : Header
  pairs : List Pair

namespace Entries

/-- Adds a table under a key: one that only tables within it have named may get its own header
once. -/
def addTable? (pairs : List Pair) (key : String) (es : Entries) : Option Entries :=
  match es.lookup key with
  | none => (defineAll? pairs []).map fun sub => es ++ [(key, .table .header sub)]
  | some (.table .path sub) =>
    (defineAll? pairs sub).map fun sub => drop key es ++ [(key, .table .header sub)]
  | _ => none

def addToArray? (pairs : List Pair) (key : String) (es : Entries) : Option Entries :=
  match es.lookup key with
  | none => (defineAll? pairs []).map fun sub => es ++ [(key, .tables [sub])]
  | some (.tables all) =>
    (defineAll? pairs []).map fun sub => set key (.tables (all ++ [sub])) es
  | _ => none

def extend? (es : Entries) (s : Section) : Option Entries :=
  within? (if s.header.inArray then addToArray? s.pairs s.header.key
    else addTable? s.pairs s.header.key) s.header.path es

end Entries

mutual

def Entry.toNode? : Entry → Option Node
  | .value n => some n
  | .table _ es => (Entries.toNodes? es).bind Node.ofEntries?
  | .tables all => (tableNodes? all).map .list

def Entries.toNodes? : List (String × Entry) → Option (List (String × Node))
  | [] => some []
  | (k, e) :: es => do
    let n ← e.toNode?
    let ns ← Entries.toNodes? es
    some ((k, n) :: ns)

def tableNodes? : List (List (String × Entry)) → Option (List Node)
  | [] => some []
  | es :: rest => do
    let n ← (Entries.toNodes? es).bind Node.ofEntries?
    let ns ← tableNodes? rest
    some (n :: ns)

end

end ForecastJob.Toml
