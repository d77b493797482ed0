import ForecastJob.Toml.Quoted
import ForecastJob.Toml.Scalar
import ForecastJob.Toml.Table

/-!
# Reading TOML

* `Toml.value?` : a value and what follows it;
* `Toml.sections?` : the values before the first header, and the sections;
* `Toml.read?` : the document that a text is, if it is one.
-/

namespace ForecastJob.Toml

/-! ## Keys -/

/-- How deep values may nest, and how many parts a key may have, plus one. -/
def depthLimit : Nat := 80

def isBare (c : Char) : Bool :=
  c.isAlphanum || c == '_' || c == '-'

def keyPart? (cs : List Char) : Option (String × List Char) :=
  match cs with
  | '"' :: _ => lineQuoted? cs
  | '\'' :: _ => lineQuoted? cs
  | _ =>
    let word := cs.takeWhile isBare
    if word.isEmpty then none else some (String.ofList word, cs.dropWhile isBare)

/-- The parts of a key, with blanks around the dots and the key. -/
def keyParts? : (fuel : Nat) → List Char → Option (List String × List Char)
  | 0, _ => none
  | fuel + 1, cs => do
    let (part, cs) ← keyPart? (skipSpaces cs)
    match skipSpaces cs with
    | '.' :: cs =>
      let (parts, cs) ← keyParts? fuel cs
      some (part :: parts, cs)
    | cs => some ([part], cs)

/-- A key: the parts before the last dot, and the last part. -/
def key? (cs : List Char) : Option ((List String × String) × List Char) := do
  let (parts, cs) ← keyParts? (cs.length + 1) cs
  if parts.length < depthLimit then some ((parts.dropLast, parts.getLastD ""), cs) else none

/-! ## Values -/

mutual

def value? : (fuel depth : Nat) → List Char → Option (Node × List Char)
  | 0, _, _ => none
  | fuel + 1, depth, cs =>
    match cs with
    | '"' :: _ => (quoted? cs).map fun (s, cs) => (.text s, cs)
    | '\'' :: _ => (quoted? cs).map fun (s, cs) => (.text s, cs)
    | '[' :: cs =>
      if depth + 1 < depthLimit then
        (items? fuel (depth + 1) cs).map fun (ns, cs) => (.list ns, cs)
      else none
    | '{' :: cs =>
      if depth + 1 < depthLimit then
        match skipSpaces cs with
        | '}' :: cs => some (.table [], cs)
        | cs => do
          let (pairs, cs) ← pairs? fuel (depth + 1) cs
          let es ← Entries.defineAll? pairs []
          let n ← (Entries.toNodes? es).bind Node.ofEntries?
          some (n, cs)
      else none
    | _ => scalar? cs

def items? : (fuel depth : Nat) → List Char → Option (List Node × List Char)
  | 0, _, _ => none
  | fuel + 1, depth, cs => do
    match ← gap? false cs with
    | ']' :: cs => some ([], cs)
    | cs =>
      let (n, cs) ← value? fuel depth cs
      match ← gap? false cs with
      | ',' :: cs =>
        let (ns, cs) ← items? fuel depth cs
        some (n :: ns, cs)
      | ']' :: cs => some ([n], cs)
      | _ => none

/-- The pairs of a table in braces from the first one on, and what follows its brace. -/
def pairs? : (fuel depth : Nat) → List Char → Option (List Pair × List Char)
  | 0, _, _ => none
  | fuel + 1, depth, cs => do
    let (p, cs) ← pair? fuel depth cs
    match skipSpaces cs with
    | ',' :: cs =>
      let (ps, cs) ← pairs? fuel depth cs
      some (p :: ps, cs)
    | '}' :: cs => some ([p], cs)
    | _ => none

def pair? : (fuel depth : Nat) → List Char → Option (Pair × List Char)
  | 0, _, _ => none
  | fuel + 1, depth, cs => do
    let ((path, key), cs) ← key? cs
    match cs with
    | '=' :: cs =>
      let (n, cs) ← value? fuel depth (skipSpaces cs)
      some (⟨path, key, n⟩, cs)
    | _ => none

end

/-! ## Documents -/

/-- The header at the front, which ends its line, and what follows the line. -/
def header? (cs : List Char) : Option (Header × List Char) := do
  match cs with
  | '[' :: '[' :: cs =>
    let ((path, key), cs) ← key? cs
    match cs with
    | ']' :: ']' :: cs => (lineEnd? cs).map (⟨true, path, key⟩, ·)
    | _ => none
  | '[' :: cs =>
    let ((path, key), cs) ← key? cs
    match cs with
    | ']' :: cs => (lineEnd? cs).map (⟨false, path, key⟩, ·)
    | _ => none
  | _ => none

/-- The values up to the next header, and the sections from there on. -/
def sections? : (fuel : Nat) → List Char → Option (List Pair × List Section)
  | 0, _ => none
  | fuel + 1, cs =>
    match skipSpaces cs with
    | [] => some ([], [])
    | '\n' :: cs => sections? fuel cs
    | '\r' :: '\n' :: cs => sections? fuel cs
    | '#' :: cs => do
      let cs ← lineEnd? ('#' :: cs)
      sections? fuel cs
    | '[' :: cs => do
      let (header, cs) ← header? ('[' :: cs)
      let (pairs, sections) ← sections? fuel cs
      some ([], ⟨header, pairs⟩ :: sections)
    | cs => do
      let (p, cs) ← pair? (2 * cs.length + 2) 0 cs
      let cs ← lineEnd? cs
      let (pairs, sections) ← sections? fuel cs
      some (p :: pairs, sections)

/-- The document that a text is; a byte order mark at its front does not count. -/
def read? (text : String) : Option Document := do
  let cs := match text.toList with
    | '\ufeff' :: cs => cs
    | cs => cs
  let (pairs, sections) ← sections? (cs.length + 1) cs
  let es ← Entries.defineAll? pairs []
  let es ← sections.foldlM Entries.extend? es
  let ns ← Entries.toNodes? es
  some (Document.ofEntries ns)

end ForecastJob.Toml
