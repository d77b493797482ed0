import ForecastJob.Json

/-!
# Trees: data as a reader meets it

A record is read from a tree. A tree can come from a value, or from a text that is still being
read: then keys may repeat and the text may turn out to be malformed further on.

* `Tree` : data, with the places where a text fails;
* `Tree.isIntact` : the text did not fail within the tree, so that it can be skipped;
* `Json.toTree` : the tree of a value.
-/

namespace ForecastJob

/-- Data as a reader meets it. -/
inductive Tree where
  | null
  | bool (b : Bool)
  | int (i : Int)
  | float (x : Float)
  | text (s : String)
  | list (items : List Tree)
  /-- Keys may repeat; a key that cannot be read is none. -/
  | table (entries : List (Option String × Tree))
  /-- Well-formed text that stands for no value: it can be skipped but not read. -/
  | unreadable
  /-- The text fails here and nothing follows. -/
  | broken
  deriving Inhabited

mutual

/-- The text did not fail within the tree. -/
def Tree.isIntact : Tree → Bool
  | .list items => areIntact items
  | .table entries => entriesAreIntact entries
  | .broken => false
  | _ => true

def areIntact : List Tree → Bool
  | [] => true
  | t :: ts => t.isIntact && areIntact ts

def entriesAreIntact : List (Option String × Tree) → Bool
  | [] => true
  | (_, t) :: es => t.isIntact && entriesAreIntact es

end

namespace Json

mutual

def toTree : Json → Tree
  | null => .null
  | bool b => .bool b
  | int i => .int i
  | float x => .float x
  | text s => .text s
  | list items => .list (itemTrees items)
  | object members => .table (memberTrees members)

def itemTrees : List Json → List Tree
  | [] => []
  | v :: vs => toTree v :: itemTrees vs

def memberTrees : List (String × Json) → List (Option String × Tree)
  | [] => []
  | (k, v) :: ms => (some k, toTree v) :: memberTrees ms

end

end Json

end ForecastJob
