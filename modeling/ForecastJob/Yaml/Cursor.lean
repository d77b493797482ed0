/-!
# A place in a YAML text

* character classes: `isBreak`, `isBlank`, `isNameChar`, `isAllowed`;
* `Cursor` : what follows, and how many characters, lines and columns are in front;
* `Cursor.next?`, `Cursor.skipWhile`, `Cursor.lineBreak?` : the moves.

A line ends in a line feed, a carriage return, both, or one of the Unicode line ends; a text that
holds a line end holds a line feed for it, but for the line and paragraph separators.
-/

namespace ForecastJob.Yaml

/-! ## Characters -/

def isBreak (c : Char) : Bool :=
  c == '\n' || c == '\r' || c == '\u0085' || c == '\u2028' || c == '\u2029'

def isBlank (c : Char) : Bool :=
  c == ' ' || c == '\t'

/-- A blank, a line end, or nothing at all is at the front. -/
def endsWord : List Char → Bool
  | [] => true
  | c :: _ => isBlank c || isBreak c

/-- The characters of the names of anchors and directives. -/
def isNameChar (c : Char) : Bool :=
  c.isAlphanum || c == '_' || c == '-'

/-- The characters that may stand in a text. -/
def isAllowed (c : Char) : Bool :=
  let n := c.toNat
  n == 0x09 || n == 0x0A || n == 0x0D || (0x20 ≤ n && n ≤ 0x7E) || n == 0x85 ||
    (0xA0 ≤ n && n ≤ 0xD7FF) || (0xE000 ≤ n && n ≤ 0xFFFD) || 0x10000 ≤ n

/-- The line end that a text holds for one that it is read from. -/
def breakChar (c : Char) : Char :=
  if c == '\u2028' || c == '\u2029' then c else '\n'

/-! ## Cursors -/

/-- A place in a text. -/
structure Cursor where
  rest : List Char
  /-- The characters in front. -/
  index : Nat
  /-- The lines in front. -/
  line : Nat
  /-- The characters in front on the same line. -/
  column : Nat
  deriving Repr, DecidableEq

namespace Cursor

def start (cs : List Char) : Cursor := ⟨cs, 0, 0, 0⟩

/-- The first character that follows, and the place behind it on the same line. -/
def next? (c : Cursor) : Option (Char × Cursor) :=
  match c.rest with
  | [] => none
  | x :: rest => some (x, ⟨rest, c.index + 1, c.line, c.column + 1⟩)

def skip (n : Nat) (c : Cursor) : Cursor :=
  ⟨c.rest.drop n, c.index + n, c.line, c.column + n⟩

def span (p : Char → Bool) (c : Cursor) : List Char :=
  c.rest.takeWhile p

/-- The place behind the characters at the front that satisfy `p`; none of them ends a line. -/
def skipWhile (p : Char → Bool) (c : Cursor) : Cursor :=
  c.skip (c.span p).length

/-- The line end at the front, as a text holds it, and the place behind it. -/
def lineBreak? (c : Cursor) : Option (Char × Cursor) :=
  match c.rest with
  | '\r' :: '\n' :: rest => some ('\n', ⟨rest, c.index + 2, c.line + 1, 0⟩)
  | x :: rest => if isBreak x then some (breakChar x, ⟨rest, c.index + 1, c.line + 1, 0⟩) else none
  | [] => none

def sees (x : Char) (c : Cursor) : Bool :=
  c.rest.head? == some x

def atWordEnd (c : Cursor) : Bool :=
  endsWord c.rest

/-- Three dashes or three points, and nothing else, make up the first word of the line. -/
def atDocumentMark (c : Cursor) : Bool :=
  c.column == 0 &&
    match c.rest with
    | '-' :: '-' :: '-' :: rest => endsWord rest
    | '.' :: '.' :: '.' :: rest => endsWord rest
    | _ => false

/-- The place behind blanks and a comment. -/
def skipComment (c : Cursor) : Cursor :=
  let c := c.skipWhile isBlank
  if c.sees '#' then c.skipWhile fun x => !isBreak x else c

/-- The place behind the line, which has nothing more than blanks and a comment. -/
def endLine? (c : Cursor) : Option Cursor :=
  let c := c.skipComment
  if c.rest.isEmpty then some c else c.lineBreak?.map (·.2)

end Cursor

end ForecastJob.Yaml
