import ForecastJob.Decimal.Layout
import ForecastJob.Document
import ForecastJob.Json.Printer

/-!
# Writing TOML

* `Toml.text` : a text in the plainest quotes that can hold it;
* `Toml.inline` : a value on the line of its key;
* `Toml.write` : the text of a document: in every table the values come first, then the tables
  under headers, a list that holds nothing but tables as an array of tables.
-/

namespace ForecastJob.Toml

/-! ## Texts -/

/-- A control character that only an escape can write. -/
def needsEscape (c : Char) : Bool :=
  (c.toNat < 0x20 && c != '\t' && c != '\n') || c.toNat == 0x7F

/-- The greatest number of times that a character stands in a row, `run` of them in front. -/
def longestRun (c : Char) : (run : Nat) → List Char → Nat
  | run, [] => run
  | run, d :: ds => if d = c then longestRun c (run + 1) ds else max run (longestRun c 0 ds)

def upperHex (n : Nat) : Char :=
  (Json.hexChar n).toUpper

def escape (c : Char) : List Char :=
  match c with
  | '\x08' => ['\\', 'b']
  | '\t' => ['\\', 't']
  | '\n' => ['\\', 'n']
  | '\x0c' => ['\\', 'f']
  | '\r' => ['\\', 'r']
  | '"' => ['\\', '"']
  | '\\' => ['\\', '\\']
  | c =>
    if c.toNat < 0x20 || c.toNat == 0x7F then
      ['\\', 'u', '0', '0', upperHex (c.toNat / 16), upperHex (c.toNat % 16)]
    else [c]

/-- The characters of a text on several lines, `run` double quotes in front: line ends stand for
themselves, and so do two double quotes in a row but not a third. -/
def escapeLines : (run : Nat) → List Char → List Char
  | _, [] => []
  | run, c :: cs =>
    if c = '\n' then c :: escapeLines 0 cs
    else if c = '"' && run < 2 then c :: escapeLines (run + 1) cs
    else escape c ++ escapeLines 0 cs

/-- Quotes for several lines; a text with line ends starts on a line of its own. -/
def multiLine (quotes : String) (cs body : List Char) : String :=
  quotes ++ (if cs.contains '\n' then "\n" else "") ++ String.ofList body ++ quotes

def basic (cs : List Char) : String :=
  "\"" ++ String.ofList (cs.flatMap escape) ++ "\""

def literal (cs : List Char) : String :=
  "'" ++ String.ofList cs ++ "'"

/-- A text in the plainest quotes that can hold it. -/
def text (s : String) : String :=
  let cs := s.toList
  let escapes := cs.any needsEscape
  let lines := cs.contains '\n'
  if !escapes && !lines && !cs.contains '\\' && !cs.contains '"' then basic cs
  else if !escapes && !lines && !cs.contains '\'' then literal cs
  else if !escapes && !cs.contains '\\' && longestRun '"' 0 cs ≤ 2 then
    multiLine "\"\"\"" cs (escapeLines 0 cs)
  else if !escapes && longestRun '\'' 0 cs ≤ 2 then multiLine "'''" cs cs
  else if lines then multiLine "\"\"\"" cs (escapeLines 0 cs)
  else basic cs

/-- A key, without quotes if it can do without. -/
def key (s : String) : String :=
  let cs := s.toList
  let plain := !cs.any needsEscape && !cs.contains '\n'
  if !cs.isEmpty && cs.all fun c => c.isAlphanum || c == '_' || c == '-' then s
  else if plain && !cs.contains '\\' && !cs.contains '"' then basic cs
  else if plain && !cs.contains '\'' then literal cs
  else basic cs

/-! ## Values -/

def float (x : Float) : String :=
  Decimal.plain.write "nan" "inf" x

mutual

/-- A value on the line of its key. -/
def inline : Node → String
  | .bool b => if b then "true" else "false"
  | .int i => toString i.toInt
  | .float x => float x
  | .text s => text s
  | .datetime d => d.toText
  | .list items => "[" ++ ", ".intercalate (inlineItems items) ++ "]"
  | .table [] => "\x7b\x7d"
  | .table entries => "\x7b " ++ ", ".intercalate (inlinePairs entries) ++ " \x7d"

def inlineItems : List Node → List String
  | [] => []
  | n :: ns => inline n :: inlineItems ns

def inlinePairs : List (String × Node) → List String
  | [] => []
  | (k, n) :: es => (key k ++ " = " ++ inline n) :: inlinePairs es

end

/-! ## Documents -/

def isTable : Node → Bool
  | .table _ => true
  | _ => false

/-- The value is written under headers: a table, or a list of nothing but tables. -/
def hasHeader : Node → Bool
  | .table _ => true
  | .list items => !items.isEmpty && items.all isTable
  | _ => false

def valueLines (entries : List (String × Node)) : List String :=
  (entries.filter fun e => !hasHeader e.2).map fun e => key e.1 ++ " = " ++ inline e.2

def path (keys : List String) : String :=
  ".".intercalate (keys.map key)

/-- A table needs a header of its own if it has values, or nothing at all. -/
def showsHeader (entries : List (String × Node)) : Bool :=
  entries.isEmpty || entries.any fun e => !hasHeader e.2

mutual

/-- The blocks of a value that is written under headers: a header and the lines below it. -/
def blocks (keys : List String) : Node → List (List String)
  | .table entries =>
    let rest := entryBlocks keys entries
    if showsHeader entries then (("[" ++ path keys ++ "]") :: valueLines entries) :: rest else rest
  | .list items => itemBlocks keys items
  | _ => []

def itemBlocks (keys : List String) : List Node → List (List String)
  | [] => []
  | .table entries :: ns =>
    (("[[" ++ path keys ++ "]]") :: valueLines entries) :: entryBlocks keys entries ++
      itemBlocks keys ns
  | _ :: ns => itemBlocks keys ns

def entryBlocks (keys : List String) : List (String × Node) → List (List String)
  | [] => []
  | (k, n) :: es =>
    (if hasHeader n then blocks (keys ++ [k]) n else []) ++ entryBlocks keys es

end

def lines (ls : List String) : String :=
  String.join (ls.map (· ++ "\n"))

def write (d : Document) : String :=
  let values := valueLines d
  let all := (if values.isEmpty then [] else [values]) ++ entryBlocks [] d
  "\n".intercalate (all.map lines)

end ForecastJob.Toml
