import ForecastJob.Yaml.Scalar

/-!
# Tokens of YAML

* `Yaml.Token` : what a YAML text is made of; the starts and ends of collections in a block, which
  only indentation shows, are tokens of their own;
* `Yaml.name?`, `Yaml.tag?`, `Yaml.directive?` : the names of anchors, tags and directives.
-/

namespace ForecastJob.Yaml

/-- What a YAML text is made of. -/
inductive Token where
  /-- The version of YAML that a document is written in. -/
  | version (major minor : Nat)
  /-- What a handle stands for at the front of a tag. -/
  | tagHandle (handle uri : String)
  | documentStart
  | documentEnd
  | blockSequenceStart
  | blockMappingStart
  | blockEnd
  | flowSequenceStart
  | flowSequenceEnd
  | flowMappingStart
  | flowMappingEnd
  | blockEntry
  | flowEntry
  | key
  | value
  | alias (name : String)
  | anchor (name : String)
  | tag (handle suffix : String)
  | scalar (text : String) (plain : Bool)
  deriving Repr, DecidableEq

/-! ## Names -/

def endsName : List Char → Bool
  | [] => true
  | c :: cs => endsWord (c :: cs) || ['?', ':', ',', ']', '}', '%', '@', '\x60'].contains c

def name? (c : Cursor) : Option (String × Cursor) :=
  let name := c.span isNameChar
  let c := c.skip name.length
  if name.isEmpty || !endsName c.rest then none else some (String.ofList name, c)

/-! ## Tags -/

/-- The characters of a tag; some may only stand in a tag that is written out in full. -/
def isTagChar (inFull : Bool) (c : Char) : Bool :=
  isNameChar c || ";/?:@&=+$.!~*'()".toList.contains c || (inFull && [',', '[', ']'].contains c)

def octet? : List Char → Option Nat
  | '%' :: a :: b :: _ => do
    let a ← Json.Text.hexDigit? a
    let b ← Json.Text.hexDigit? b
    some (16 * a + b)
  | _ => none

/-- How many octets follow the first one of a character, and the bits that the first one gives. -/
def leadingOctet? (n : Nat) : Option (Nat × Nat) :=
  if n < 0x80 then some (0, n)
  else if 0xC0 ≤ n && n < 0xE0 then some (1, n - 0xC0)
  else if 0xE0 ≤ n && n < 0xF0 then some (2, n - 0xE0)
  else if 0xF0 ≤ n && n < 0xF8 then some (3, n - 0xF0)
  else none

/-- The code that further octets give with the bits of those before them. -/
def furtherOctets? : Nat → Nat → List Char → Option Nat
  | 0, acc, _ => some acc
  | n + 1, acc, cs => do
    let o ← octet? cs
    if 0x80 ≤ o && o < 0xC0 then furtherOctets? n (64 * acc + (o - 0x80)) (cs.drop 3) else none

/-- The character that escapes in a tag stand for, and how many characters they have. -/
def escapedChar? (cs : List Char) : Option (Char × Nat) := do
  let o ← octet? cs
  let (more, bits) ← leadingOctet? o
  let code ← furtherOctets? more bits (cs.drop 3)
  some (if code.isValidChar then Char.ofNat code else '\ufffd', 3 * (more + 1))

def tagChars? (inFull : Bool) : (fuel : Nat) → Cursor → Option (List Char × Cursor)
  | 0, _ => none
  | fuel + 1, c =>
    match c.next? with
    | none => some ([], c)
    | some (x, c') =>
      if x == '%' then do
        let (y, n) ← escapedChar? c.rest
        prepend [y] (tagChars? inFull fuel (c.skip n))
      else if isTagChar inFull x then prepend [x] (tagChars? inFull fuel c')
      else some ([], c)

/-- The rest of a tag, which is not empty unless something of the tag is in front. -/
def tagRest? (inFull : Bool) (front : List Char) (c : Cursor) : Option (String × Cursor) := do
  let (cs, c) ← tagChars? inFull (c.rest.length + 1) c
  if front.isEmpty && cs.isEmpty then none else some (String.ofList (front.drop 1 ++ cs), c)

/-- The handle of a tag at a place, which may lack its second mark, and the place behind it. -/
def handle? (c : Cursor) : Option (List Char × Cursor) :=
  if c.sees '!' then
    let name := (c.skip 1).span isNameChar
    let c := c.skip (1 + name.length)
    if c.sees '!' then some ('!' :: name ++ ['!'], c.skip 1) else some ('!' :: name, c)
  else none

def isHandle (cs : List Char) : Bool :=
  cs.length > 1 && cs.getLast? == some '!'

def tag? (inFlow : Bool) (c : Cursor) : Option (Token × Cursor) := do
  let (t, c) ← if (c.skip 1).sees '<' then do
      let (suffix, c) ← tagRest? true [] (c.skip 2)
      if c.sees '>' then some (Token.tag "" suffix, c.skip 1) else none
    else do
      let (handle, c) ← handle? c
      if isHandle handle then
        let (suffix, c) ← tagRest? false [] c
        some (Token.tag (String.ofList handle) suffix, c)
      else
        let (suffix, c) ← tagRest? false handle c
        if suffix.isEmpty then some (Token.tag "" "!", c) else some (Token.tag "!" suffix, c)
  if c.atWordEnd || (inFlow && c.sees ',') then some (t, c) else none

/-! ## Directives -/

def versionNumber? (c : Cursor) : Option (Nat × Cursor) :=
  let ds := c.span Char.isDigit
  if ds.isEmpty || ds.length > 9 then none
  else some (ds.foldl (fun n d => 10 * n + (d.toNat - '0'.toNat)) 0, c.skip ds.length)

def version? (c : Cursor) : Option (Token × Cursor) := do
  let (major, c) ← versionNumber? (c.skipWhile isBlank)
  if c.sees '.' then
    let (minor, c) ← versionNumber? (c.skip 1)
    some (.version major minor, c)
  else none

def tagHandle? (c : Cursor) : Option (Token × Cursor) := do
  let (handle, c) ← handle? (c.skipWhile isBlank)
  if (isHandle handle || handle == ['!']) && c.rest.head?.any isBlank then
    let (uri, c) ← tagRest? true [] (c.skipWhile isBlank)
    if c.atWordEnd then some (.tagHandle (String.ofList handle) uri, c) else none
  else none

def directive? (c : Cursor) : Option (Token × Cursor) := do
  let c := c.skip 1
  let name := c.span isNameChar
  let c := c.skip name.length
  if !c.atWordEnd then none
  else
    let (t, c) ← if name == ['Y', 'A', 'M', 'L'] then version? c
      else if name == ['T', 'A', 'G'] then tagHandle? c
      else none
    (c.endLine?).map (t, ·)

end ForecastJob.Yaml
