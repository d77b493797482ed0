import ForecastJob.Decimal.Reading
import ForecastJob.Tree

/-!
# Reading JSON text

A text is read into a tree that keeps what a record needs to see in the order of the text: repeated
keys, places where the text fails, and text that is well-formed but stands for no value (a lone
surrogate, a number beyond the doubles, nesting beyond `depthLimit`).

* `Json.Text.quoted?` : a text in quotes;
* `Json.Text.number?` : a number;
* `Json.Text.value` : a value and what follows it;
* `Json.Text.read` : the tree of a whole text.
-/

namespace ForecastJob.Json.Text

def isSpace (c : Char) : Bool :=
  c == ' ' || c == '\n' || c == '\t' || c == '\r'

/-! ## Texts in quotes -/

def hexDigit? (c : Char) : Option Nat :=
  if c.isDigit then some (c.toNat - '0'.toNat)
  else if 'a' ≤ c && c ≤ 'f' then some (c.toNat - 'a'.toNat + 10)
  else if 'A' ≤ c && c ≤ 'F' then some (c.toNat - 'A'.toNat + 10)
  else none

def hexUnit? (a b c d : Char) : Option Nat := do
  let a ← hexDigit? a
  let b ← hexDigit? b
  let c ← hexDigit? c
  let d ← hexDigit? d
  some (((a * 16 + b) * 16 + c) * 16 + d)

/-- What a character stands for behind a backslash. -/
def escaped? : Char → Option Char
  | '"' => some '"'
  | '\\' => some '\\'
  | '/' => some '/'
  | 'b' => some '\x08'
  | 'f' => some '\x0c'
  | 'n' => some '\n'
  | 'r' => some '\r'
  | 't' => some '\t'
  | _ => none

/-- A piece of a text in quotes: a character, or a UTF-16 unit given by its number. -/
inductive Piece where
  | char (c : Char)
  | unit (n : Nat)
  deriving Repr, DecidableEq

/-- The pieces up to the closing quote, and what follows it. -/
def pieces? : List Char → Option (List Piece × List Char)
  | [] => none
  | '"' :: rest => some ([], rest)
  | '\\' :: 'u' :: a :: b :: c :: d :: rest => do
    let n ← hexUnit? a b c d
    let (ps, rest) ← pieces? rest
    some (.unit n :: ps, rest)
  | '\\' :: e :: rest => do
    let c ← escaped? e
    let (ps, rest) ← pieces? rest
    some (.char c :: ps, rest)
  | c :: rest =>
    if c.toNat < 0x20 then none else do
    let (ps, rest) ← pieces? rest
    some (.char c :: ps, rest)

/-- The characters of the pieces; none if a surrogate has no partner. -/
def chars? : List Piece → Option (List Char)
  | [] => some []
  | .char c :: ps => (chars? ps).map (c :: ·)
  | [.unit n] => if 0xD800 ≤ n && n < 0xE000 then none else some [Char.ofNat n]
  | .unit n :: p :: ps =>
    if 0xD800 ≤ n && n < 0xDC00 then
      match p with
      | .unit m =>
        if 0xDC00 ≤ m && m < 0xE000 then
          (chars? ps).map (Char.ofNat (0x10000 + (n - 0xD800) * 0x400 + (m - 0xDC00)) :: ·)
        else none
      | .char _ => none
    else if 0xDC00 ≤ n && n < 0xE000 then none
    else (chars? (p :: ps)).map (Char.ofNat n :: ·)

/-- The text up to the closing quote, which is none if it stands for no text, and what follows. -/
def quoted? (cs : List Char) : Option (Option String × List Char) :=
  (pieces? cs).map fun (ps, rest) => ((chars? ps).map String.ofList, rest)

/-! ## Numbers -/

/-- The digits of a significand that are kept: no more than a 64-bit word holds. -/
structure Significand where
  value : Nat
  dropped : Nat
  deriving Repr, DecidableEq

/-- Appends a digit, unless the word is full or a digit has been dropped already. -/
def Significand.push (s : Significand) (c : Char) : Significand :=
  let n := s.value * 10 + (c.toNat - '0'.toNat)
  if s.dropped = 0 && n < UInt64.size then ⟨n, 0⟩ else ⟨s.value, s.dropped + 1⟩

def digits (cs : List Char) : List Char × List Char :=
  (cs.takeWhile Char.isDigit, cs.dropWhile Char.isDigit)

/-- The exponent of a number, if it has one, and what follows; the text may fail in it. -/
def exponent? : List Char → Option (Option Int × List Char)
  | [] => some (none, [])
  | e :: cs =>
    if e != 'e' && e != 'E' then some (none, e :: cs) else
    let (negative, cs) := match cs with
      | '+' :: cs => (false, cs)
      | '-' :: cs => (true, cs)
      | cs => (false, cs)
    let (ds, rest) := digits cs
    if ds.isEmpty then none else
    let n : Int := ds.foldl (fun n d => n * 10 + (d.toNat - '0'.toNat)) 0
    some (some (if negative then -n else n), rest)

def fraction? : List Char → Option (Option (List Char) × List Char)
  | '.' :: cs =>
    let (ds, rest) := digits cs
    if ds.isEmpty then none else some (some ds, rest)
  | cs => some (none, cs)

/-- The tree of a number with a fraction or an exponent. Digits after the point that are not kept do
not move the point. -/
def floatTree (negative : Bool) (whole fraction : List Char) (exponent : Int) : Tree :=
  let w := whole.foldl Significand.push ⟨0, 0⟩
  let f := fraction.foldl Significand.push ⟨w.value, 0⟩
  let kept : Int := (fraction.length : Int) - f.dropped
  match Decimal.approximate? negative (UInt64.ofNat f.value) (w.dropped - kept + exponent) with
  | some x => .float x
  | none => .unreadable

def wholeTree (negative : Bool) (whole : List Char) : Tree :=
  let w := whole.foldl Significand.push ⟨0, 0⟩
  if w.dropped = 0 && !negative then .int w.value
  else if w.dropped = 0 && 0 < w.value && Int64.minValue.toInt ≤ -w.value then .int (-w.value)
  else floatTree negative whole [] 0

def number? (cs : List Char) : Option (Tree × List Char) := do
  let (negative, cs) := match cs with
    | '-' :: cs => (true, cs)
    | cs => (false, cs)
  let (whole, rest) := digits cs
  if whole.isEmpty || (whole.length > 1 && whole.head? == some '0') then none else
  let (fraction, rest) ← fraction? rest
  let (exponent, rest) ← exponent? rest
  match fraction, exponent with
  | none, none => some (wholeTree negative whole, rest)
  | f, e => some (floatTree negative whole (f.getD []) (e.getD 0), rest)

/-! ## Values -/

/-- How deep values that are read may nest. -/
def depthLimit : Nat := 127

/-- What has been read, and what follows it unless the text failed. -/
abbrev Outcome := Tree × Option (List Char)

def failed : Outcome := (.broken, none)

/-- A collection at some depth: beyond the limit it cannot be read, only skipped. -/
def bounded (depth : Nat) (r : Outcome) : Outcome :=
  if depth ≤ depthLimit then r
  else if r.1.isIntact then (.unreadable, r.2) else failed

/-- The rest of a literal such as `null`. -/
def literal (t : Tree) (word cs : List Char) : Outcome :=
  match word, cs with
  | [], cs => (t, some cs)
  | w :: ws, c :: cs => if w = c then literal t ws cs else failed
  | _ :: _, [] => failed

mutual

/-- A value and what follows it, at some depth, with at most `fuel` tokens. -/
def value : (fuel depth : Nat) → List Char → Outcome
  | 0, _, _ => failed
  | fuel + 1, depth, cs =>
    match cs.dropWhile isSpace with
    | '"' :: cs =>
      match quoted? cs with
      | some (some s, rest) => (.text s, some rest)
      | some (none, rest) => (.unreadable, some rest)
      | none => failed
    | '[' :: cs =>
      match cs.dropWhile isSpace with
      | ']' :: rest => bounded (depth + 1) (.list [], some rest)
      | cs =>
        let (ts, rest) := items fuel (depth + 1) cs
        bounded (depth + 1) (.list ts, rest)
    | '{' :: cs =>
      match cs.dropWhile isSpace with
      | '}' :: rest => bounded (depth + 1) (.table [], some rest)
      | cs =>
        let (es, rest) := members fuel (depth + 1) cs
        bounded (depth + 1) (.table es, rest)
    | 'n' :: cs => literal .null ['u', 'l', 'l'] cs
    | 't' :: cs => literal (.bool true) ['r', 'u', 'e'] cs
    | 'f' :: cs => literal (.bool false) ['a', 'l', 's', 'e'] cs
    | cs =>
      match number? cs with
      | some (t, rest) => (t, some rest)
      | none => failed

def items : (fuel depth : Nat) → List Char → List Tree × Option (List Char)
  | 0, _, _ => ([.broken], none)
  | fuel + 1, depth, cs =>
    match value fuel depth cs with
    | (t, none) => ([t], none)
    | (t, some rest) =>
      match rest.dropWhile isSpace with
      | ']' :: rest => ([t], some rest)
      | ',' :: rest =>
        let (ts, rest) := items fuel depth rest
        (t :: ts, rest)
      | _ => ([t, .broken], none)

def members : (fuel depth : Nat) → List Char → List (Option String × Tree) × Option (List Char)
  | 0, _, _ => ([(none, .broken)], none)
  | fuel + 1, depth, cs =>
    match cs.dropWhile isSpace with
    | '"' :: cs =>
      match quoted? cs with
      | none => ([(none, .broken)], none)
      | some (key, rest) =>
        match rest.dropWhile isSpace with
        | ':' :: rest =>
          match value fuel depth rest with
          | (t, none) => ([(key, t)], none)
          | (t, some rest) =>
            match rest.dropWhile isSpace with
            | '}' :: rest => ([(key, t)], some rest)
            | ',' :: rest =>
              let (es, rest) := members fuel depth rest
              ((key, t) :: es, rest)
            | _ => ([(key, t), (none, .broken)], none)
        | _ => ([(key, .broken)], none)
    | _ => ([(none, .broken)], none)

end

/-- The tree of a text, and whether nothing but blanks follows it. -/
def read (s : String) : Tree × Bool :=
  let (t, rest) := value (s.length + 1) 0 s.toList
  match rest with
  | some rest => (t, rest.all isSpace)
  | none => (t, false)

end ForecastJob.Json.Text
