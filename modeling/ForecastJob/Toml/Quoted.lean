import ForecastJob.Json.Reader

/-!
# Blanks, comments and quoted texts in TOML

* `Toml.lineEnd?` : what may follow on a line that is complete;
* `Toml.gap?` : the blanks, lines and comments between the items of a list;
* `Toml.quoted?` : a text in quotes of any kind.
-/

namespace ForecastJob.Toml

/-! ## Blanks and comments -/

def isSpace (c : Char) : Bool :=
  c == ' ' || c == '\t'

/-- The characters that may stand in a comment or in quotes: all but the control characters,
though the tab may. -/
def isText (c : Char) : Bool :=
  c == '\t' || (0x20 ≤ c.toNat && c.toNat != 0x7F)

def skipSpaces (cs : List Char) : List Char :=
  cs.dropWhile isSpace

def skipComment : List Char → List Char
  | '#' :: cs => cs.dropWhile isText
  | cs => cs

/-- What follows the end of a line that has nothing more than blanks and a comment. -/
def lineEnd? (cs : List Char) : Option (List Char) :=
  match skipComment (skipSpaces cs) with
  | [] => some []
  | '\n' :: cs => some cs
  | '\r' :: '\n' :: cs => some cs
  | _ => none

/-- What follows the blanks, lines and comments at the front; a comment must end in a line end. -/
def gap? (inComment : Bool) : List Char → Option (List Char)
  | [] => if inComment then none else some []
  | '\n' :: cs => gap? false cs
  | '\r' :: '\n' :: cs => gap? false cs
  | '\r' :: _ => none
  | '#' :: cs => gap? true cs
  | c :: cs =>
    if inComment then if isText c then gap? true cs else none
    else if isSpace c then gap? false cs
    else some (c :: cs)

/-! ## Escapes -/

/-- The number that `n` hexadecimal digits at the front give with those before them. -/
def hexNumber? : Nat → Nat → List Char → Option (Nat × List Char)
  | 0, acc, cs => some (acc, cs)
  | _ + 1, _, [] => none
  | n + 1, acc, c :: cs => do
    let d ← Json.Text.hexDigit? c
    hexNumber? n (16 * acc + d) cs

def codePoint? (n : Nat) (cs : List Char) : Option (Char × List Char) := do
  let (code, cs) ← hexNumber? n 0 cs
  if code.isValidChar then some (Char.ofNat code, cs) else none

def escape? : List Char → Option (Char × List Char)
  | '"' :: cs => some ('"', cs)
  | '\\' :: cs => some ('\\', cs)
  | 'b' :: cs => some ('\x08', cs)
  | 'f' :: cs => some ('\x0c', cs)
  | 'n' :: cs => some ('\n', cs)
  | 'r' :: cs => some ('\r', cs)
  | 't' :: cs => some ('\t', cs)
  | 'u' :: cs => codePoint? 4 cs
  | 'U' :: cs => codePoint? 8 cs
  | _ => none

/-- What follows an escaped line end: the blanks and line ends behind it do not count. -/
def continuation? (cs : List Char) : Option (List Char) :=
  match skipSpaces cs with
  | '\n' :: cs => some (blankLines cs)
  | '\r' :: '\n' :: cs => some (blankLines cs)
  | _ => none
where
  blankLines : List Char → List Char
    | ' ' :: cs => blankLines cs
    | '\t' :: cs => blankLines cs
    | '\n' :: cs => blankLines cs
    | '\r' :: '\n' :: cs => blankLines cs
    | cs => cs

/-! ## Quoted texts -/

def pushed (c : Char) (r : Option (List Char × List Char)) : Option (List Char × List Char) :=
  r.map fun (s, cs) => (c :: s, cs)

/-- The rest of a text in double quotes. -/
def basic? : (fuel : Nat) → List Char → Option (List Char × List Char)
  | 0, _ => none
  | _ + 1, [] => none
  | fuel + 1, c :: cs =>
    if c = '"' then some ([], cs)
    else if c = '\\' then do
      let (e, cs) ← escape? cs
      pushed e (basic? fuel cs)
    else if isText c then pushed c (basic? fuel cs)
    else none

def literal? : List Char → Option (List Char × List Char)
  | [] => none
  | c :: cs =>
    if c = '\'' then some ([], cs)
    else if isText c then pushed c (literal? cs)
    else none

/-- The end of a text in triple quotes, at a quote: up to two quotes in front of the last three
belong to the text. -/
def closing? (quote : Char) (cs : List Char) : Option (List Char × List Char) :=
  let run := (cs.takeWhile (· == quote)).length
  if run < 3 then none
  else
    let kept := min run 5 - 3
    some (List.replicate kept quote, cs.drop (kept + 3))

/-- The rest of a text in three double quotes. -/
def multiBasic? : (fuel : Nat) → List Char → Option (List Char × List Char)
  | 0, _ => none
  | _ + 1, [] => none
  | fuel + 1, c :: cs =>
    if c = '"' then
      match closing? '"' (c :: cs) with
      | some r => some r
      | none => pushed c (multiBasic? fuel cs)
    else if c = '\\' then
      match continuation? cs with
      | some cs => multiBasic? fuel cs
      | none => do
        let (e, cs) ← escape? cs
        pushed e (multiBasic? fuel cs)
    else if c = '\r' then
      match cs with
      | '\n' :: cs => pushed '\n' (multiBasic? fuel cs)
      | _ => none
    else if c = '\n' || isText c then pushed c (multiBasic? fuel cs)
    else none

def multiLiteral? : List Char → Option (List Char × List Char)
  | [] => none
  | '\r' :: '\n' :: cs => pushed '\n' (multiLiteral? cs)
  | c :: cs =>
    if c = '\'' then
      match closing? '\'' (c :: cs) with
      | some r => some r
      | none => pushed c (multiLiteral? cs)
    else if c = '\n' || isText c then pushed c (multiLiteral? cs)
    else none

def skipNewline : List Char → List Char
  | '\n' :: cs => cs
  | '\r' :: '\n' :: cs => cs
  | cs => cs

def lineQuoted? : List Char → Option (String × List Char)
  | '"' :: cs => (basic? (cs.length + 1) cs).map fun (s, cs) => (String.ofList s, cs)
  | '\'' :: cs => (literal? cs).map fun (s, cs) => (String.ofList s, cs)
  | _ => none

/-- A text in quotes of any kind; in triple quotes a line end right at the start does not count. -/
def quoted? : List Char → Option (String × List Char)
  | '"' :: '"' :: '"' :: cs =>
    (multiBasic? (cs.length + 1) (skipNewline cs)).map fun (s, cs) => (String.ofList s, cs)
  | '\'' :: '\'' :: '\'' :: cs =>
    (multiLiteral? (skipNewline cs)).map fun (s, cs) => (String.ofList s, cs)
  | cs => lineQuoted? cs

end ForecastJob.Toml
