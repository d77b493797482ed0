import ForecastJob.Yaml.Token

/-!
# The structure of a YAML document

* `Yaml.Element` : a scalar or a collection with its anchor and its tag, or an alias;
* `Yaml.Element.ofTokens?` : the one document that tokens make up, if they do.

An anchor is numbered by how many names are known where it stands; to give a name away again adds
none. An alias refers to the number that its name has at that place.
-/

namespace ForecastJob.Yaml

/-- The anchor and the tag of an element. -/
structure Marks where
  anchor : Option Nat
  tag : Option String
  deriving Repr, DecidableEq

def Marks.none : Marks := ⟨.none, .none⟩

/-- A scalar or a collection with its anchor and its tag, or an alias. -/
inductive Element where
  | alias (anchor : Nat)
  | scalar (marks : Marks) (text : String) (plain : Bool)
  | sequence (marks : Marks) (items : List Element)
  | mapping (marks : Marks) (entries : List (Element × Element))
  deriving Inhabited

/-- The element where none is written. -/
def Element.empty : Element := .scalar .none "" true

/-! ## Names -/

/-- The numbers of the names known so far, and what the handles of tags stand for. -/
structure Names where
  anchors : List (String × Nat)
  handles : List (String × String)

namespace Names

/-- The handles that every document knows. -/
def defaultHandles : List (String × String) :=
  [("!", "!"), ("!!", "tag:yaml.org,2002:")]

def define (name : String) (n : Names) : Nat × Names :=
  let number := n.anchors.length
  let others := n.anchors.filter (·.1 != name)
  (number, { n with anchors := (name, number) :: others })

/-- The full text of a tag. -/
def tag? (handle suffix : String) (n : Names) : Option String :=
  if handle.isEmpty then some suffix else (n.handles.lookup handle).map (· ++ suffix)

end Names

/-- What is left of the tokens, and the names known there. -/
structure Parse where
  tokens : List Token
  names : Names

namespace Parse

def peek (p : Parse) : Option Token := p.tokens.head?

def drop (p : Parse) : Parse := { p with tokens := p.tokens.tail }

def sees (ts : List Token) (p : Parse) : Bool := p.peek.any ts.contains

def anchor? (p : Parse) : Option Nat × Parse :=
  match p.tokens with
  | .anchor name :: ts =>
    let (number, names) := p.names.define name
    (some number, ⟨ts, names⟩)
  | _ => (none, p)

/-- The tag at the front, if there is one; that its handle stands for nothing is a fault. -/
def tag? (p : Parse) : Option (Option String × Parse) :=
  match p.tokens with
  | .tag handle suffix :: ts =>
    (p.names.tag? handle suffix).map fun t => (some t, { p with tokens := ts })
  | _ => some (none, p)

/-- The anchor and the tag at the front, in any order. -/
def marks? (p : Parse) : Option (Marks × Parse) := do
  match p.anchor? with
  | (some anchor, p) =>
    let (tag, p) ← p.tag?
    some (⟨some anchor, tag⟩, p)
  | (none, p) =>
    let (tag, p) ← p.tag?
    if tag.isSome then
      let (anchor, p) := p.anchor?
      some (⟨anchor, tag⟩, p)
    else some (.none, p)

end Parse

/-- A scalar with its marks, without the tag that says nothing. -/
def Element.ofScalar (marks : Marks) (text : String) (plain : Bool) : Element :=
  if marks.tag == some "!" then .scalar { marks with tag := none } text plain
  else .scalar marks text plain

/-! ## Collections -/

mutual

/-- An element; within a block collection it can be one itself, and in the value of a mapping a
sequence needs no indentation. -/
def element? (block unindented : Bool) : (fuel : Nat) → Parse → Option (Element × Parse)
  | 0, _ => none
  | fuel + 1, p =>
    match p.tokens with
    | .alias name :: _ => (p.names.anchors.lookup name).map fun n => (.alias n, p.drop)
    | _ => do
      let (marks, p) ← p.marks?
      match p.peek with
      | some (.scalar text plain) => some (.ofScalar marks text plain, p.drop)
      | some .flowSequenceStart =>
        (flowItems? true fuel p.drop).map fun (es, p) => (.sequence marks es, p)
      | some .flowMappingStart =>
        (flowPairs? true fuel p.drop).map fun (es, p) => (.mapping marks es, p)
      | some .blockSequenceStart =>
        if block then (blockItems? fuel p.drop).map fun (es, p) => (.sequence marks es, p)
        else empty? marks p
      | some .blockMappingStart =>
        if block then (blockPairs? fuel p.drop).map fun (es, p) => (.mapping marks es, p)
        else empty? marks p
      | some .blockEntry =>
        if unindented then (unindentedItems? fuel p).map fun (es, p) => (.sequence marks es, p)
        else empty? marks p
      | _ => empty? marks p

/-- An element of which only the marks are written. -/
def empty? (marks : Marks) (p : Parse) : Option (Element × Parse) :=
  if marks.anchor.isSome || marks.tag.isSome then some (.ofScalar marks "" true, p) else none

/-- An element, or the empty one before one of the tokens. -/
def elementBefore? (block unindented : Bool) (ends : List Token) :
    (fuel : Nat) → Parse → Option (Element × Parse)
  | 0, _ => none
  | fuel + 1, p => if p.sees ends then some (.empty, p) else element? block unindented fuel p

def blockItems? : (fuel : Nat) → Parse → Option (List Element × Parse)
  | 0, _ => none
  | fuel + 1, p =>
    match p.peek with
    | some .blockEntry => do
      let (e, p) ← elementBefore? true false [.blockEntry, .blockEnd] fuel p.drop
      let (es, p) ← blockItems? fuel p
      some (e :: es, p)
    | some .blockEnd => some ([], p.drop)
    | _ => none

/-- The items of a block sequence that is not indented within its mapping. -/
def unindentedItems? : (fuel : Nat) → Parse → Option (List Element × Parse)
  | 0, _ => none
  | fuel + 1, p =>
    match p.peek with
    | some .blockEntry => do
      let (e, p) ← elementBefore? true false [.blockEntry, .key, .value, .blockEnd] fuel p.drop
      let (es, p) ← unindentedItems? fuel p
      some (e :: es, p)
    | _ => some ([], p)

def blockPairs? : (fuel : Nat) → Parse → Option (List (Element × Element) × Parse)
  | 0, _ => none
  | fuel + 1, p =>
    match p.peek with
    | some .key => do
      let (k, p) ← elementBefore? true true [.key, .value, .blockEnd] fuel p.drop
      let (v, p) ← if p.sees [.value] then
          elementBefore? true true [.key, .value, .blockEnd] fuel p.drop
        else some (.empty, p)
      let (es, p) ← blockPairs? fuel p
      some ((k, v) :: es, p)
    | some .blockEnd => some ([], p.drop)
    | _ => none

/-- The value of an entry of a flow collection, which may be missing. -/
def flowValue? (close : Token) : (fuel : Nat) → Parse → Option (Element × Parse)
  | 0, _ => none
  | fuel + 1, p =>
    if p.sees [.value] then elementBefore? false false [.flowEntry, close] fuel p.drop
    else some (.empty, p)

def flowPairs? (first : Bool) : (fuel : Nat) → Parse → Option (List (Element × Element) × Parse)
  | 0, _ => none
  | fuel + 1, p =>
    if p.sees [.flowMappingEnd] then some ([], p.drop)
    else if !first && !p.sees [.flowEntry] then none
    else
      let p := if first then p else p.drop
      match p.peek with
      | some .flowMappingEnd => some ([], p.drop)
      | some .key => do
        let (k, p) ← elementBefore? false false [.value, .flowEntry, .flowMappingEnd] fuel p.drop
        let (v, p) ← flowValue? .flowMappingEnd fuel p
        let (es, p) ← flowPairs? false fuel p
        some ((k, v) :: es, p)
      | _ => do
        let (k, p) ← element? false false fuel p
        let (es, p) ← flowPairs? false fuel p
        some ((k, .empty) :: es, p)

/-- The items of a flow sequence. A key makes an item a mapping with one entry; where the key is
empty, the token behind its mark does not count. -/
def flowItems? (first : Bool) : (fuel : Nat) → Parse → Option (List Element × Parse)
  | 0, _ => none
  | fuel + 1, p =>
    if p.sees [.flowSequenceEnd] then some ([], p.drop)
    else if !first && !p.sees [.flowEntry] then none
    else
      let p := if first then p else p.drop
      match p.peek with
      | some .flowSequenceEnd => some ([], p.drop)
      | some .key => do
        let p := p.drop
        let (k, p) ← if p.sees [.value, .flowEntry, .flowSequenceEnd] then some (.empty, p.drop)
          else element? false false fuel p
        let (v, p) ← flowValue? .flowSequenceEnd fuel p
        let (es, p) ← flowItems? false fuel p
        some (.mapping .none [(k, v)] :: es, p)
      | _ => do
        let (e, p) ← element? false false fuel p
        let (es, p) ← flowItems? false fuel p
        some (e :: es, p)

end

/-! ## Documents -/

/-- What the directives at the front say about versions and handles. A document has one version,
1.1 or 1.2, and a handle stands for one thing. -/
def directives? : (versioned : Bool) → (handles : List (String × String)) → List Token →
    Option (List (String × String) × List Token)
  | versioned, handles, .version major minor :: ts =>
    if versioned || major != 1 || (minor != 1 && minor != 2) then none
    else directives? true handles ts
  | versioned, handles, .tagHandle handle uri :: ts =>
    if (handles.lookup handle).isSome then none
    else directives? versioned (handles ++ [(handle, uri)]) ts
  | _, handles, ts => some (handles ++ Names.defaultHandles, ts)

def isBetweenDocuments : Token → Bool
  | .version _ _ => true
  | .tagHandle _ _ => true
  | .documentStart => true
  | .documentEnd => true
  | _ => false

/-- The content of a document and what follows it. -/
def content? (explicit : Bool) (handles : List (String × String)) (ts : List Token) :
    Option (Element × List Token) :=
  if explicit && ts.head?.all isBetweenDocuments then some (.empty, ts)
  else
    (element? true false (3 * ts.length + 3) ⟨ts, ⟨[], handles⟩⟩).map fun (e, p) => (e, p.tokens)

/-- The one document that tokens make up; no tokens make up the empty one. -/
def Element.ofTokens? (ts : List Token) : Option Element := do
  match ts with
  | [] => some .empty
  | t :: _ =>
    let explicit := isBetweenDocuments t && t != .documentEnd
    let (handles, ts) ← directives? false [] ts
    let ts ← if explicit then
        if ts.head? == some .documentStart then some ts.tail else none
      else some ts
    let (e, ts) ← content? explicit handles ts
    if ts.all (· == .documentEnd) then some e else none

end ForecastJob.Yaml
