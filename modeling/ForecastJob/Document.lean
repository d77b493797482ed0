import ForecastJob.Dict
import ForecastJob.Document.Datetime
import ForecastJob.Tree

/-!
# Job documents as trees

A job document is read from a text into a tree before its fields are looked at, so that they
mean the same in every text format.

* `Node` : a value in a document; there are no nulls;
* `Document` : the entries of the outermost table;
* `Document.toTree` : the document as a reader of records meets it;
* `Node.ofEntries?` : the table of entries in any order, or the date that they stand for;
* `Json.toNode?` : the value in a document that a JSON value stands for, if there is one.
-/

namespace ForecastJob

/-- A value in a document. The keys of a table ascend. -/
inductive Node where
  | bool (b : Bool)
  | int (i : Int64)
  | float (x : Float)
  | text (s : String)
  | datetime (d : Datetime)
  | list (items : List Node)
  | table (entries : List (String × Node))
  deriving Inhabited

/-- A job document: the entries of the outermost table, the keys ascending. -/
abbrev Document : Type := List (String × Node)

def Node.text? : Node → Option String
  | .text s => some s
  | _ => none

/-! ## Tables -/

/-- The key under which a format without dates writes a date or time, as the only entry of a
table. -/
def Datetime.key : String := "$__toml_private_datetime"

def Document.ofEntries (entries : List (String × Node)) : Document :=
  entries.foldl (fun d e => insertEntry e.1 e.2 d) []

/-- The table of the entries, or the date or time that the first one stands for. -/
def Node.ofEntries? : List (String × Node) → Option Node
  | [] => some (.table [])
  | (k, n) :: es =>
    if k = Datetime.key then
      (n.text?.bind (Datetime.parse? Datetime.passedOn)).map .datetime
    else some (.table (Document.ofEntries ((k, n) :: es)))

/-! ## Reading records from a document -/

mutual

/-- The value as a reader of records meets it; a date or time reads as its text. -/
def Node.toTree : Node → Tree
  | .bool b => .bool b
  | .int i => .int i.toInt
  | .float x => .float x
  | .text s => .text s
  | .datetime d => .text d.toText
  | .list items => .list (nodeTrees items)
  | .table entries => .table (entryTrees entries)

def nodeTrees : List Node → List Tree
  | [] => []
  | n :: ns => n.toTree :: nodeTrees ns

def entryTrees : List (String × Node) → List (Option String × Tree)
  | [] => []
  | (k, n) :: es => (some k, n.toTree) :: entryTrees es

end

def Document.toTree (d : Document) : Tree :=
  .table (entryTrees d)

/-! ## Documents from JSON -/

/-- The integers of a document have 64 bits and a sign. -/
def Node.int? (i : Int) : Option Node :=
  if Int64.minValue.toInt ≤ i && i ≤ Int64.maxValue.toInt then some (.int (Int64.ofInt i))
  else none

mutual

/-- The value in a document that a JSON value stands for. Null and the integers past 64 bits have
none. -/
def Json.toNode? : Json → Option Node
  | .null => none
  | .bool b => some (.bool b)
  | .int i => Node.int? i
  | .float x => some (.float x)
  | .text s => some (.text s)
  | .list items => (jsonItemNodes? items).map .list
  | .object members => (jsonMemberNodes? members).map .table

def jsonItemNodes? : List Json → Option (List Node)
  | [] => some []
  | v :: vs => do
    let n ← v.toNode?
    let ns ← jsonItemNodes? vs
    some (n :: ns)

def jsonMemberNodes? : List (String × Json) → Option (List (String × Node))
  | [] => some []
  | (k, v) :: ms => do
    let n ← v.toNode?
    let es ← jsonMemberNodes? ms
    some ((k, n) :: es)

end

end ForecastJob
