import ForecastJob.Decimal.Binary
import ForecastJob.Dict

/-!
# JSON values

* `Json` : a value; the members of an object stand in the order in which they are written;
* `Json.same` : equality, in which NaN differs from itself;
* `Json.normal` : the value as free-form data holds it: keys in order, no number that is not
  finite;
* `Json.withoutNulls` : the value without the null members and items;
* `FreeForm` : data whose shape the job does not know.
-/

namespace ForecastJob

inductive Json where
  | null
  | bool (b : Bool)
  | int (i : Int)
  | float (x : Float)
  | text (s : String)
  | list (items : List Json)
  | object (members : List (String × Json))
  deriving Inhabited

namespace Json

/-! ## Equality -/

mutual

/-- Two values are equal; numbers compare as numbers of one kind do, so NaN differs from itself. -/
def same : Json → Json → Bool
  | null, null => true
  | bool a, bool b => a == b
  | int a, int b => a == b
  | float a, float b => a == b
  | text a, text b => a == b
  | list a, list b => sameItems a b
  | object a, object b => sameMembers a b
  | _, _ => false

def sameItems : List Json → List Json → Bool
  | [], [] => true
  | a :: as, b :: bs => same a b && sameItems as bs
  | _, _ => false

def sameMembers : List (String × Json) → List (String × Json) → Bool
  | [], [] => true
  | (k, a) :: as, (l, b) :: bs => k == l && same a b && sameMembers as bs
  | _, _ => false

end

instance : BEq Json := ⟨same⟩

/-! ## Nulls -/

def isNull : Json → Bool
  | null => true
  | _ => false

mutual

/-- The value without the null members and items at any depth. -/
def withoutNulls : Json → Json
  | list items => list (itemsWithoutNulls items)
  | object members => object (membersWithoutNulls members)
  | v => v

def itemsWithoutNulls : List Json → List Json
  | [] => []
  | v :: vs => if v.isNull then itemsWithoutNulls vs else withoutNulls v :: itemsWithoutNulls vs

def membersWithoutNulls : List (String × Json) → List (String × Json)
  | [] => []
  | (k, v) :: ms =>
    if v.isNull then membersWithoutNulls ms else (k, withoutNulls v) :: membersWithoutNulls ms

end

/-! ## Normal form -/

/-- The integers that a JSON number can hold. -/
def inRange (i : Int) : Bool :=
  Int64.minValue.toInt ≤ i && i < UInt64.size

mutual

/-- The value is as free-form data is held. -/
def isNormal : Json → Bool
  | int i => inRange i
  | float x => Decimal.isFinite x
  | list items => areNormal items
  | object members => decide (Ascending members) && membersAreNormal members
  | _ => true

def areNormal : List Json → Bool
  | [] => true
  | v :: vs => isNormal v && areNormal vs

def membersAreNormal : List (String × Json) → Bool
  | [] => true
  | (_, v) :: ms => isNormal v && membersAreNormal ms

end

/-- The number, or null if it is not finite. -/
def ofFloat (x : Float) : Json :=
  if Decimal.isFinite x then float x else null

mutual

/-- The value with the members of every object in key order and null for every number that is not
finite. -/
def normal : Json → Json
  | float x => ofFloat x
  | list items => list (normalItems items)
  | object members => object (normalMembers members)
  | v => v

def normalItems : List Json → List Json
  | [] => []
  | v :: vs => normal v :: normalItems vs

def normalMembers : List (String × Json) → List (String × Json)
  | [] => []
  | (k, v) :: ms => insertEntry k (normal v) (normalMembers ms)

end

end Json

/-- Data whose shape the job does not know. -/
structure FreeForm where
  json : Json
  /-- Keys are in order and numbers finite. -/
  normal : json.isNormal = true

namespace FreeForm

instance : BEq FreeForm := ⟨fun a b => a.json == b.json⟩

instance : Inhabited FreeForm := ⟨⟨.null, rfl⟩⟩

def ofJson? (v : Json) : Option FreeForm :=
  if h : v.isNormal = true then some ⟨v, h⟩ else none

end FreeForm

end ForecastJob
