import ForecastJob.Decimal.Layout
import ForecastJob.Document
import ForecastJob.Json.Printer
import ForecastJob.Yaml.Cursor
import ForecastJob.Yaml.Resolution

/-!
# Writing YAML

* `Yaml.Style`, `Yaml.style` : the plainest style that keeps a text a text;
* `Yaml.scalar` : a text in its style;
* `Yaml.write` : the text of a document, two columns deeper for each level; a sequence stands in the
  column of the key it belongs to.
-/

namespace ForecastJob.Yaml

/-! ## Styles -/

inductive Style where
  | plain
  | singleQuoted
  | doubleQuoted
  /-- A block that keeps its line ends. -/
  | block
  deriving Repr, DecidableEq

/-- The characters that stand for themselves. -/
def isPrintable (c : Char) : Bool :=
  let n := c.toNat
  n == 0x0A || (0x20 ≤ n && n ≤ 0x7E) || (0xA0 ≤ n && n != 0xFEFF && n != 0xFFFE && n != 0xFFFF)

/-- Two neighbours of which the first satisfies `p` and the second `q`. -/
def hasNeighbours (p q : Char → Bool) : List Char → Bool
  | c :: d :: cs => (p c && q d) || hasNeighbours p q (d :: cs)
  | _ => false

def startsWithMark (c : Char) (rest : List Char) : Bool :=
  "#,[]{}&*!|>'\"%@\x60".toList.contains c || (['?', ':', '-'].contains c && endsWord rest)

/-- A mark stands behind the first character: a colon at the end of a word or a number sign at the
start of one. -/
def hasInnerMark : List Char → Bool
  | c :: d :: rest =>
    (d == ':' && endsWord rest) || (d == '#' && (isBlank c || isBreak c)) ||
      hasInnerMark (d :: rest)
  | _ => false

def startsWithDocumentMark : List Char → Bool
  | '-' :: '-' :: '-' :: _ => true
  | '.' :: '.' :: '.' :: _ => true
  | _ => false

/-- The text can be taken for a mark. -/
def hasMark : List Char → Bool
  | [] => false
  | c :: rest =>
    startsWithDocumentMark (c :: rest) || startsWithMark c rest || hasInnerMark (c :: rest)

def isSpace (c : Char) : Bool := c == ' '

def hasBlankEnds (cs : List Char) : Bool :=
  let blank := fun c => isSpace c || isBreak c
  cs.head?.any blank || cs.getLast?.any blank

/-- Only escapes can write the text. -/
def needsEscapes (cs : List Char) : Bool :=
  !cs.all isPrintable || hasNeighbours isSpace isBreak cs

def allowsPlain (cs : List Char) : Bool :=
  !needsEscapes cs && !cs.any isBreak && !hasBlankEnds cs && !hasMark cs

def allowsSingleQuotes (cs : List Char) : Bool :=
  !needsEscapes cs && !hasNeighbours isBreak isSpace cs

def allowsBlock (cs : List Char) : Bool :=
  !needsEscapes cs && !cs.getLast?.any isSpace

/-- A word without quotes would not be read as this text, or might not be. -/
def isOtherWord (s : String) : Bool :=
  isPaddedDigits s.toList ||
    match resolve s with
    | .text _ => false
    | _ => true

/-- The plainest style that keeps a text a text. -/
def style (s : String) : Style :=
  let cs := s.toList
  if cs.contains '\n' then if allowsBlock cs then .block else .doubleQuoted
  else if allowsPlain cs && !isOtherWord s then .plain
  else if allowsSingleQuotes cs then .singleQuoted
  else .doubleQuoted

/-! ## Texts -/

/-- Upper-case hexadecimal digits of a number, as many as the width says. -/
def hexDigits : (width : Nat) → Nat → List Char
  | 0, _ => []
  | width + 1, n => hexDigits width (n / 16) ++ [(Json.hexChar (n % 16)).toUpper]

def escapeOf (c : Char) : List Char :=
  match c with
  | '\x00' => ['0']
  | '\x07' => ['a']
  | '\x08' => ['b']
  | '\t' => ['t']
  | '\n' => ['n']
  | '\x0b' => ['v']
  | '\x0c' => ['f']
  | '\r' => ['r']
  | '\x1b' => ['e']
  | '"' => ['"']
  | '\\' => ['\\']
  | '\u0085' => ['N']
  | '\u2028' => ['L']
  | '\u2029' => ['P']
  | c =>
    if c.toNat ≤ 0xFF then 'x' :: hexDigits 2 c.toNat
    else if c.toNat ≤ 0xFFFF then 'u' :: hexDigits 4 c.toNat
    else 'U' :: hexDigits 8 c.toNat

def escape (c : Char) : List Char :=
  if isPrintable c && !isBreak c && c != '"' && c != '\\' then [c] else '\\' :: escapeOf c

def pad (column : Nat) : List Char :=
  List.replicate column ' '

/-- The characters with spaces in front of each line but the first and empty ones; `fresh` says
whether a line starts here. -/
def indented (column : Nat) (fresh : Bool) : List Char → List Char
  | [] => []
  | c :: cs =>
    if isBreak c then c :: indented column true cs
    else if fresh then pad column ++ c :: indented column false cs
    else c :: indented column false cs

/-- A text in single quotes; what follows a line end is indented, be it the quote. -/
def singleQuoted (column : Nat) (cs : List Char) : List Char :=
  let body := indented column false (cs.flatMap fun c => if c == '\'' then [c, c] else [c])
  '\'' :: body ++ (if cs.getLast?.any isBreak then pad column else []) ++ ['\'']

/-- What the header of a block says: how it is indented, if its first line does not show that, and
which of the line ends at its end are kept. -/
def blockHeader (cs : List Char) : List Char :=
  let width := if cs.head?.any fun c => isSpace c || isBreak c then ['2'] else []
  let chomping := match cs.reverse with
    | [] => ['-']
    | [c] => if isBreak c then ['+'] else ['-']
    | c :: d :: _ => if !isBreak c then ['-'] else if isBreak d then ['+'] else []
  '|' :: width ++ chomping

/-- A text in its style; its lines but the first start in a column. -/
def scalar (column : Nat) (s : String) : List Char :=
  let cs := s.toList
  match style s with
  | .plain => cs
  | .singleQuoted => singleQuoted column cs
  | .doubleQuoted => '"' :: cs.flatMap escape ++ ['"']
  | .block => blockHeader cs ++ '\n' :: indented column true cs

/-! ## Documents -/

def float (x : Float) : String :=
  if Decimal.isNaN x then ".nan" else Decimal.compact.write ".nan" ".inf" x

/-- The characters with a line end, unless there is one. -/
def ended (cs : List Char) : List Char :=
  if cs.getLast?.any isBreak then cs else cs ++ ['\n']

/-- A key that stands on the line of its value: it has one line and at most 128 bytes. -/
def isSimpleKey (s : String) : Bool :=
  !s.toList.any isBreak && s.utf8ByteSize ≤ 128

/-- The lines of some texts, each starting in a column, but for the first. -/
def stacked (column : Nat) (texts : List (List Char)) : List Char :=
  (pad column).intercalate (texts.map ended)

mutual

/-- A value behind a dash or a mark of its own in some column. -/
def behindMark (column : Nat) : Node → List Char
  | .list [] => " []".toList
  | .list items => ' ' :: stacked (column + 2) (itemTexts (column + 2) items)
  | .table [] => " \x7b\x7d".toList
  | .table entries =>
    ' ' :: stacked (column + 2) (entryTexts (column + 2) entries)
  | .datetime d =>
    ' ' :: (Datetime.key.toList ++ ": ".toList ++ scalar (column + 4) d.toText)
  | .bool b => (if b then " true" else " false").toList
  | .int i => ' ' :: (toString i.toInt).toList
  | .float x => ' ' :: (float x).toList
  | .text s => ' ' :: scalar (column + 2) s

def behindKey (column : Nat) : Node → List Char
  | .list [] => " []".toList
  | .list items => '\n' :: pad column ++ stacked column (itemTexts column items)
  | .table [] => " \x7b\x7d".toList
  | .table entries =>
    '\n' :: pad (column + 2) ++ stacked (column + 2) (entryTexts (column + 2) entries)
  | .datetime d =>
    '\n' :: pad (column + 2) ++ Datetime.key.toList ++ ": ".toList ++ scalar (column + 4) d.toText
  | .bool b => (if b then " true" else " false").toList
  | .int i => ' ' :: (toString i.toInt).toList
  | .float x => ' ' :: (float x).toList
  | .text s => ' ' :: scalar (column + 2) s

def itemTexts (column : Nat) : List Node → List (List Char)
  | [] => []
  | n :: ns => ('-' :: behindMark column n) :: itemTexts column ns

def entryTexts (column : Nat) : List (String × Node) → List (List Char)
  | [] => []
  | (k, n) :: es =>
    (if isSimpleKey k then scalar (column + 2) k ++ ':' :: behindKey column n
      else ended ('?' :: ' ' :: scalar (column + 2) k) ++ pad column ++ ':' :: behindMark column n)
      :: entryTexts column es

end

def write (d : Document) : String :=
  if d.isEmpty then "\x7b\x7d\n" else String.ofList (stacked 0 (entryTexts 0 d))

end ForecastJob.Yaml
