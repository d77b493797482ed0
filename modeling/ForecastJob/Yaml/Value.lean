import ForecastJob.Document
import ForecastJob.Yaml.Element
import ForecastJob.Yaml.Resolution

/-!
# YAML values

* `Yaml.Value` : a value; keys can be any values;
* `Yaml.Value.ofElement?` : the value of a document, aliases followed;
* `Yaml.Value.withoutNulls` : the value without the null entries and items and without tags;
* `Yaml.Value.toDocument?` : the job document that a value is.
-/

namespace ForecastJob.Yaml

inductive Value where
  | null
  | bool (b : Bool)
  | int (i : Int)
  | float (x : Float)
  | text (s : String)
  | sequence (items : List Value)
  | mapping (entries : List (Value × Value))
  /-- A value with a tag of an application. -/
  | tagged (tag : String) (v : Value)
  deriving Inhabited

namespace Value

/-! ## Equality -/

/-- Equality of floating point numbers as keys: NaN equals itself. -/
def sameFloat (x y : Float) : Bool :=
  x == y || (Decimal.isNaN x && Decimal.isNaN y)

mutual

/-- Two values are equal; the order of entries does not matter. -/
def same : Value → Value → Bool
  | null, null => true
  | bool a, bool b => a == b
  | int a, int b => a == b
  | float a, float b => sameFloat a b
  | text a, text b => a == b
  | sequence a, sequence b => sameItems a b
  | mapping a, mapping b => a.length == b.length && allIn a b
  | tagged s a, tagged t b => s == t && same a b
  | _, _ => false

def sameItems : List Value → List Value → Bool
  | [], [] => true
  | a :: as, b :: bs => same a b && sameItems as bs
  | _, _ => false

/-- Every entry of the first list is in the second. -/
def allIn : List (Value × Value) → List (Value × Value) → Bool
  | [], _ => true
  | (k, v) :: es, others => others.any (fun e => same k e.1 && same v e.2) && allIn es others

end

/-! ## Values of elements -/

/-- The value of a scalar with a tag of YAML itself, if the text is one of its words. -/
def ofStandardTag? (tag text : String) : Option Value :=
  if tag == "tag:yaml.org,2002:bool" then (bool? text).map .bool
  else if tag == "tag:yaml.org,2002:int" then
    ((integer? text.toList).filter isShort).map .int
  else if tag == "tag:yaml.org,2002:float" then (float? text.toList).map .float
  else if tag == "tag:yaml.org,2002:null" then if isNullWord text then some .null else none
  else some (.text text)

/-- The value of a scalar without a tag; quotes make it a text. -/
def ofUntagged? (text : String) (plain : Bool) : Option Value :=
  if plain then
    match resolve text with
    | .null => some .null
    | .bool b => some (.bool b)
    | .int i => some (.int i)
    | .float x => some (.float x)
    | .text s => some (.text s)
    | .tooLong => none
  else some (.text text)

/-- The name in a tag of an application. -/
def localTag? (tag : String) : Option String :=
  match tag.toList with
  | '!' :: name => some (if name.isEmpty then "!" else String.ofList name)
  | _ => none

/-- The value with its tag, if that is one of an application. -/
def withTag (tag : Option String) (v : Value) : Value :=
  match tag.bind localTag? with
  | some name => tagged name v
  | none => v

def ofScalar? (tag : Option String) (text : String) (plain : Bool) : Option Value :=
  match tag with
  | none => ofUntagged? text plain
  | some t =>
    match localTag? t with
    | some _ => (ofUntagged? text plain).map (withTag tag)
    | none => ofStandardTag? t text

/-- How many more aliases may be followed, threaded through a reading. -/
abbrev Reading (α : Type) : Type := StateT Nat Option α

/-- Follows an alias, if that is still allowed. -/
def follow (anchors : List (Nat × Element)) : Element → Reading Element
  | .alias n => do
    let left ← get
    if left = 0 then failure
    else
      set (left - 1)
      StateT.lift (anchors.lookup n)
  | e => pure e

/-- Adds an entry to a mapping, unless the key is there already. -/
def withKey? (entries : List (Value × Value)) (k v : Value) : Option (List (Value × Value)) :=
  if entries.any fun e => same e.1 k then none else some (entries ++ [(k, v)])

/-- The value of an element, given the elements that anchors mark; it nests at most `depth` deep. -/
def ofElement (anchors : List (Nat × Element)) : (depth : Nat) → Element → Reading Value
  | depth, e => do
    match ← follow anchors e with
    | .alias _ => failure
    | .scalar marks s plain => StateT.lift (ofScalar? marks.tag s plain)
    | .sequence marks items =>
      match depth with
      | 0 => failure
      | depth + 1 => do
        let vs ← items.mapM (ofElement anchors depth)
        pure (withTag marks.tag (.sequence vs))
    | .mapping marks entries =>
      match depth with
      | 0 => failure
      | depth + 1 => do
        let es ← entries.foldlM (fun es (k, v) => do
          let k ← ofElement anchors depth k
          let v ← ofElement anchors depth v
          StateT.lift (withKey? es k v)) []
        pure (withTag marks.tag (.mapping es))

end Value

mutual

/-- The elements with anchors within an element, in the order of the text. -/
def Element.anchored : Element → List (Nat × Element)
  | .alias _ => []
  | .scalar marks s plain =>
    (marks.anchor.map fun n => (n, Element.scalar marks s plain)).toList
  | .sequence marks items =>
    (marks.anchor.map fun n => (n, Element.sequence marks items)).toList ++ anchoredItems items
  | .mapping marks entries =>
    (marks.anchor.map fun n => (n, Element.mapping marks entries)).toList ++
      anchoredEntries entries

def anchoredItems : List Element → List (Nat × Element)
  | [] => []
  | e :: es => e.anchored ++ anchoredItems es

def anchoredEntries : List (Element × Element) → List (Nat × Element)
  | [] => []
  | (k, v) :: es => k.anchored ++ v.anchored ++ anchoredEntries es

end

mutual

/-- The size of an element: a collection counts twice, for its start and for its end. -/
def Element.size : Element → Nat
  | .alias _ => 1
  | .scalar _ _ _ => 1
  | .sequence _ items => 2 + itemsSize items
  | .mapping _ entries => 2 + entriesSize entries

def itemsSize : List Element → Nat
  | [] => 0
  | e :: es => e.size + itemsSize es

def entriesSize : List (Element × Element) → Nat
  | [] => 0
  | (k, v) :: es => k.size + v.size + entriesSize es

end

namespace Value

/-- How deep values may nest. -/
def depthLimit : Nat := 128

/-- The value of a document. Of two anchors with one number the later one counts, and aliases are
followed at most a hundred times as often as the document is large. -/
def ofElement? (e : Element) : Option Value :=
  ((ofElement e.anchored.reverse depthLimit e).run (100 * e.size)).map (·.1)

/-! ## Nulls and tags -/

/-- The value is null, with or without a tag. -/
def isNull : Value → Bool
  | null => true
  | tagged _ v => v.isNull
  | _ => false

mutual

/-- The value without null entries and items at any depth and without tags; keys stay as they
are. -/
def withoutNulls : Value → Value
  | sequence items => sequence (itemsWithoutNulls items)
  | mapping entries => mapping (entriesWithoutNulls entries)
  | tagged _ v => v.withoutNulls
  | v => v

def itemsWithoutNulls : List Value → List Value
  | [] => []
  | v :: vs => if v.isNull then itemsWithoutNulls vs else v.withoutNulls :: itemsWithoutNulls vs

def entriesWithoutNulls : List (Value × Value) → List (Value × Value)
  | [] => []
  | (k, v) :: es =>
    if v.isNull then entriesWithoutNulls es else (k, v.withoutNulls) :: entriesWithoutNulls es

end

/-! ## Documents -/

/-- The text that a key is, tag or not. -/
def keyText? : Value → Option String
  | text s => some s
  | tagged _ v => v.keyText?
  | _ => none

/-- The keys are texts that all differ, the first one without a tag. -/
def areKeys (keys : List Value) (entries : List (String × Node)) : Bool :=
  (match keys.head? with
    | some (tagged _ _) => false
    | _ => true) && decide (entries.map (·.1)).Nodup

/-- The table of entries; nothing may stand beside the key that makes a table a date or time. -/
def tableOf? (entries : List (String × Node)) : Option Node :=
  match entries with
  | (k, _) :: _ :: _ => if k = Datetime.key then none else Node.ofEntries? entries
  | _ => Node.ofEntries? entries

mutual

/-- The value in a job document that the value stands for, if there is one. -/
def toNode? : Value → Option Node
  | null => none
  | bool b => some (.bool b)
  | int i => Node.int? i
  | float x => some (.float x)
  | text s => some (.text s)
  | sequence items => (itemNodes? items).map .list
  | mapping entries => do
    let es ← entryNodes? entries
    if areKeys (entries.map (·.1)) es then tableOf? es else none
  | tagged _ v => v.toNode?

def itemNodes? : List Value → Option (List Node)
  | [] => some []
  | v :: vs => do
    let n ← v.toNode?
    let ns ← itemNodes? vs
    some (n :: ns)

def entryNodes? : List (Value × Value) → Option (List (String × Node))
  | [] => some []
  | (k, v) :: es => do
    let key ← k.keyText?
    let n ← v.toNode?
    let ns ← entryNodes? es
    some ((key, n) :: ns)

end

/-- The job document that a value is: a mapping, or null for the empty one. -/
def toDocument? (v : Value) : Option Document :=
  match v.withoutNulls with
  | null => some []
  | mapping entries => (entryNodes? entries).map Document.ofEntries
  | _ => none

end Value

end ForecastJob.Yaml
