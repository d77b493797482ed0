import ForecastJob.Yaml.Token

/-!
# From a YAML text to its tokens

A key of a mapping is only known as one by the colon behind it. So the place where a key may have
started is remembered, and at the colon the tokens that open the key are put there afterwards. Such
a key stands on one line and has at most 1024 characters.

* `Yaml.Lexer` : the place in the text, the tokens so far, and the open collections;
* `Yaml.Lexer.token?` : the next token or tokens;
* `Yaml.tokens?` : the tokens of a text.
-/

namespace ForecastJob.Yaml

/-- Where a key may have started. -/
structure KeyStart where
  /-- Only a key may stand there. -/
  required : Bool
  /-- The tokens in front. -/
  position : Nat
  place : Cursor
  deriving Repr, DecidableEq

/-- The place in a text, the tokens so far, and the open collections. -/
structure Lexer where
  cursor : Cursor
  /-- The tokens so far, the last one first. -/
  tokens : List Token
  count : Nat
  /-- The column of the innermost block collection. -/
  indent : Int
  /-- The columns of the block collections around it. -/
  outerIndents : List Int
  /-- Where a key may have started within the innermost flow collection. -/
  key : Option KeyStart
  /-- Where keys may have started around it, one for each open flow collection. -/
  outerKeys : List (Option KeyStart)
  /-- A key may start at the next token. -/
  keyAllowed : Bool

namespace Lexer

def start (cs : List Char) : Lexer :=
  ⟨.start cs, [], 0, -1, [], none, [], true⟩

def inFlow (l : Lexer) : Bool := !l.outerKeys.isEmpty

def push (t : Token) (l : Lexer) : Lexer :=
  { l with tokens := t :: l.tokens, count := l.count + 1 }

/-- Puts a token behind the first `position` tokens. -/
def insert (position : Nat) (t : Token) (l : Lexer) : Lexer :=
  let later := l.count - position
  { l with tokens := l.tokens.take later ++ t :: l.tokens.drop later, count := l.count + 1 }

def move (c : Cursor) (l : Lexer) : Lexer := { l with cursor := c }

def skip (n : Nat) (l : Lexer) : Lexer := l.move (l.cursor.skip n)

def allowKey (allowed : Bool) (l : Lexer) : Lexer := { l with keyAllowed := allowed }

/-! ## Block collections -/

/-- Opens a block collection at a column, unless one is open there already. -/
def openBlock (column position : Nat) (t : Token) (l : Lexer) : Lexer :=
  if !l.inFlow && l.indent < column then
    { l.insert position t with
      indent := column
      outerIndents := l.indent :: l.outerIndents }
  else l

/-- Closes the block collections whose columns are right of a column. -/
def closeBlocks (column : Int) (l : Lexer) : Lexer :=
  if l.inFlow then l else go l l.indent l.outerIndents
where
  go (l : Lexer) (indent : Int) : List Int → Lexer
    | [] => l
    | outer :: rest =>
      if column < indent then
        go { l.push .blockEnd with indent := outer, outerIndents := rest } outer rest
      else l

/-! ## Keys -/

/-- Forgets where a key may have started; that a key had to be there is a fault. -/
def forgetKey? (l : Lexer) : Option Lexer :=
  if l.key.any (·.required) then none else some { l with key := none }

/-- Remembers that a key may start here, if one may. -/
def rememberKey? (l : Lexer) : Option Lexer :=
  if l.keyAllowed then
    l.forgetKey?.map fun l =>
      { l with
        key := some {
          required := !l.inFlow && l.indent == l.cursor.column
          position := l.count
          place := l.cursor } }
  else some l

def reaches (k : KeyStart) (c : Cursor) : Bool :=
  k.place.line == c.line && c.index ≤ k.place.index + 1024

/-- Where the key that ends here started, if there is one; that a key had to be there but does not
reach here is a fault. -/
def endedKey? (l : Lexer) : Option (Option KeyStart) :=
  match l.key with
  | none => some none
  | some k =>
    if reaches k l.cursor then some (some k) else if k.required then none else some none

/-! ## Tokens -/

/-- Moves past blanks, lines and comments. In a block, tabs may not stand for indentation, and a
key may start on a new line. -/
def skipGap : (fuel : Nat) → Lexer → Lexer
  | 0, l => l
  | fuel + 1, l =>
    let c := if l.cursor.index == 0 && l.cursor.sees '\ufeff' then l.cursor.skip 1 else l.cursor
    let c := c.skipWhile fun x => x == ' ' || ((l.inFlow || !l.keyAllowed) && x == '\t')
    let c := if c.sees '#' then c.skipWhile fun x => !isBreak x else c
    match c.lineBreak? with
    | some (_, c) => skipGap fuel ((l.move c).allowKey (!l.inFlow || l.keyAllowed))
    | none => l.move c

def directive? (l : Lexer) : Option Lexer := do
  let l ← (l.closeBlocks (-1)).forgetKey?
  let (t, c) ← Yaml.directive? l.cursor
  some (((l.allowKey false).move c).push t)

def documentMark? (t : Token) (l : Lexer) : Option Lexer := do
  let l ← (l.closeBlocks (-1)).forgetKey?
  some (((l.allowKey false).skip 3).push t)

def flowStart? (t : Token) (l : Lexer) : Option Lexer := do
  let l ← l.rememberKey?
  let l := { l with key := none, outerKeys := l.key :: l.outerKeys }
  some (((l.allowKey true).skip 1).push t)

def flowEnd? (t : Token) (l : Lexer) : Option Lexer := do
  let l ← l.forgetKey?
  let l := match l.outerKeys with
    | [] => l
    | k :: ks => { l with key := k, outerKeys := ks }
  some (((l.allowKey false).skip 1).push t)

def flowComma? (l : Lexer) : Option Lexer := do
  let l ← l.forgetKey?
  some (((l.allowKey true).skip 1).push .flowEntry)

def blockDash? (l : Lexer) : Option Lexer := do
  if !l.inFlow && !l.keyAllowed then none
  else
    let l ← (l.openBlock l.cursor.column l.count .blockSequenceStart).forgetKey?
    some (((l.allowKey true).skip 1).push .blockEntry)

/-- The question mark before a key. -/
def keyMark? (l : Lexer) : Option Lexer := do
  if !l.inFlow && !l.keyAllowed then none
  else
    let l ← (l.openBlock l.cursor.column l.count .blockMappingStart).forgetKey?
    some (((l.allowKey (!l.inFlow)).skip 1).push .key)

/-- The colon before a value. -/
def valueMark? (l : Lexer) : Option Lexer := do
  match ← l.endedKey? with
  | some k =>
    let l := (l.insert k.position .key).openBlock k.place.column k.position .blockMappingStart
    some ((({ l with key := none }.allowKey false).skip 1).push .value)
  | none =>
    let l := { l with key := none }
    if !l.inFlow && !l.keyAllowed then none
    else
      let l := l.openBlock l.cursor.column l.count .blockMappingStart
      some (((l.allowKey (!l.inFlow)).skip 1).push .value)

/-- An alias or an anchor. -/
def named? (make : String → Token) (l : Lexer) : Option Lexer := do
  let l ← l.rememberKey?
  let (name, c) ← name? (l.cursor.skip 1)
  some (((l.allowKey false).move c).push (make name))

def tag? (l : Lexer) : Option Lexer := do
  let l ← l.rememberKey?
  let (t, c) ← Yaml.tag? l.inFlow l.cursor
  some (((l.allowKey false).move c).push t)

/-- A scalar in a block of lines. -/
def block? (folds : Bool) (l : Lexer) : Option Lexer := do
  let l ← l.forgetKey?
  let (s, c) ← Yaml.block? folds l.indent (l.cursor.skip 1)
  some (((l.allowKey true).move c).push (.scalar (String.ofList s) false))

def quoted? (l : Lexer) : Option Lexer := do
  let l ← l.rememberKey?
  let (s, c) ← Yaml.quoted? l.cursor
  some (((l.allowKey false).move c).push (.scalar (String.ofList s) false))

/-- A scalar without quotes; a key may start on a new line behind it. -/
def plain? (l : Lexer) : Option Lexer := do
  let l ← l.rememberKey?
  let (s, lines, c) ← Yaml.plain? l.inFlow (l.indent + 1).toNat l.cursor
  some (((l.allowKey lines).move c).push (.scalar (String.ofList s) true))

/-- The marks that no scalar without quotes starts with. -/
def isIndicator (x : Char) : Bool :=
  "-?:,[]{}#&*!|>'\"%@\x60".toList.contains x

/-- A scalar without quotes starts with `x`, given what follows it. -/
def startsPlain (inFlow : Bool) (x : Char) (rest : List Char) : Bool :=
  !(isIndicator x || isBlank x) || (x == '-' && !rest.head?.any isBlank) ||
    (!inFlow && (x == '?' || x == ':') && !endsWord rest)

def token? (x : Char) (rest : List Char) (l : Lexer) : Option Lexer :=
  if l.cursor.column == 0 && x == '%' then l.directive?
  else if l.cursor.atDocumentMark then
    l.documentMark? (if x == '-' then .documentStart else .documentEnd)
  else if x == '[' then l.flowStart? .flowSequenceStart
  else if x == '{' then l.flowStart? .flowMappingStart
  else if x == ']' then l.flowEnd? .flowSequenceEnd
  else if x == '}' then l.flowEnd? .flowMappingEnd
  else if x == ',' then l.flowComma?
  else if x == '-' && endsWord rest then l.blockDash?
  else if x == '?' && (l.inFlow || endsWord rest) then l.keyMark?
  else if x == ':' && (l.inFlow || endsWord rest) then l.valueMark?
  else if x == '*' then l.named? .alias
  else if x == '&' then l.named? .anchor
  else if x == '!' then l.tag?
  else if x == '|' && !l.inFlow then l.block? false
  else if x == '>' && !l.inFlow then l.block? true
  else if x == '\'' || x == '"' then l.quoted?
  else if startsPlain l.inFlow x rest then l.plain?
  else none

def run? : (fuel : Nat) → Lexer → Option (List Token)
  | 0, _ => none
  | fuel + 1, l =>
    let l := l.skipGap (l.cursor.rest.length + 1)
    match l.cursor.rest with
    | [] => do
      let l ← (l.closeBlocks (-1)).forgetKey?
      some l.tokens.reverse
    | x :: rest => do
      let l ← (l.closeBlocks l.cursor.column).token? x rest
      run? fuel l

end Lexer

def tokens? (cs : List Char) : Option (List Token) :=
  if cs.all isAllowed then (Lexer.start cs).run? (cs.length + 1) else none

end ForecastJob.Yaml
