import ForecastJob.Json.Reader
import ForecastJob.Yaml.Cursor

/-!
# Scalars in YAML

A scalar stands in single quotes, in double quotes, without quotes, or in a block of lines. But for
the blocks that keep them, line ends within it are folded: one is a blank, and of several all but
the first are kept.

* `Yaml.Gap`, `Yaml.gap?` : blanks and line ends between two words, and their folding;
* `Yaml.quoted?`, `Yaml.plain?`, `Yaml.block?` : a scalar and the place behind it.
-/

namespace ForecastJob.Yaml

/-! ## Gaps between words -/

/-- The blanks and line ends between two words. -/
structure Gap where
  /-- The blanks before the first line end. -/
  blanks : List Char
  /-- The line ends. -/
  breaks : List Char
  /-- The line end before the gap is escaped. -/
  escaped : Bool
  deriving Repr, DecidableEq

def Gap.none : Gap := ⟨[], [], false⟩

def Gap.spansLines (g : Gap) : Bool :=
  g.escaped || !g.breaks.isEmpty

/-- What a gap stands for within a scalar. -/
def Gap.folded (g : Gap) : List Char :=
  if g.escaped then g.breaks
  else match g.breaks with
    | [] => g.blanks
    | ['\n'] => [' ']
    | '\n' :: more => more
    | breaks => breaks

/-- The gap at a place that `g` leads up to, and the place behind it. A tab that stands for
indentation, left of the column `indent`, is a fault. -/
def gap? (indent : Nat) : (fuel : Nat) → Gap → Cursor → Option (Gap × Cursor)
  | 0, _, _ => none
  | fuel + 1, g, c =>
    match c.lineBreak? with
    | some (b, c') => gap? indent fuel { g with breaks := g.breaks ++ [b] } c'
    | none =>
      match c.next? with
      | none => some (g, c)
      | some (x, c') =>
        if !isBlank x then some (g, c)
        else if g.spansLines then
          if x == '\t' && c.column < indent then none else gap? indent fuel g c'
        else gap? indent fuel { g with blanks := g.blanks ++ [x] } c'

/-! ## Quoted scalars -/

/-- The number that `n` hexadecimal digits at the front give with those before them. -/
def hexNumber? : Nat → Nat → List Char → Option Nat
  | 0, acc, _ => some acc
  | _ + 1, _, [] => none
  | n + 1, acc, c :: cs => do
    let d ← Json.Text.hexDigit? c
    hexNumber? n (16 * acc + d) cs

/-- The character whose code point `n` hexadecimal digits give, and how many characters the escape
has behind its backslash. -/
def codePoint? (n : Nat) (cs : List Char) : Option (Char × Nat) := do
  let code ← hexNumber? n 0 cs
  if code.isValidChar then some (Char.ofNat code, n + 1) else none

def escape? : List Char → Option (Char × Nat)
  | '0' :: _ => some ('\x00', 1)
  | 'a' :: _ => some ('\x07', 1)
  | 'b' :: _ => some ('\x08', 1)
  | 't' :: _ => some ('\t', 1)
  | '\t' :: _ => some ('\t', 1)
  | 'n' :: _ => some ('\n', 1)
  | 'v' :: _ => some ('\x0b', 1)
  | 'f' :: _ => some ('\x0c', 1)
  | 'r' :: _ => some ('\r', 1)
  | 'e' :: _ => some ('\x1b', 1)
  | ' ' :: _ => some (' ', 1)
  | '"' :: _ => some ('"', 1)
  | '/' :: _ => some ('/', 1)
  | '\\' :: _ => some ('\\', 1)
  | 'N' :: _ => some ('\u0085', 1)
  | '_' :: _ => some ('\u00a0', 1)
  | 'L' :: _ => some ('\u2028', 1)
  | 'P' :: _ => some ('\u2029', 1)
  | 'x' :: cs => codePoint? 2 cs
  | 'u' :: cs => codePoint? 4 cs
  | 'U' :: cs => codePoint? 8 cs
  | _ => none

def prepend (s : List Char) (r : Option (List Char × Cursor)) : Option (List Char × Cursor) :=
  r.map fun (t, c) => (s ++ t, c)

/-- The rest of a scalar in quotes. -/
def quotedRest? (quote : Char) : (fuel : Nat) → Cursor → Option (List Char × Cursor)
  | 0, _ => none
  | fuel + 1, c => do
    let (x, c') ← c.next?
    if isBlank x || isBreak x then do
      let (g, c) ← gap? 0 fuel .none c
      if c.atDocumentMark then none else prepend g.folded (quotedRest? quote fuel c)
    else if x == quote then
      if quote == '\'' && c'.sees '\'' then prepend [quote] (quotedRest? quote fuel (c'.skip 1))
      else some ([], c')
    else if x == '\\' && quote == '"' then
      match c'.lineBreak? with
      | some (_, c') =>
        let (g, c) ← gap? 0 fuel ⟨[], [], true⟩ c'
        if c.atDocumentMark then none else prepend g.folded (quotedRest? quote fuel c)
      | none =>
        let (y, n) ← escape? c'.rest
        prepend [y] (quotedRest? quote fuel (c'.skip n))
    else prepend [x] (quotedRest? quote fuel c')

def quoted? (c : Cursor) : Option (List Char × Cursor) := do
  let (quote, c) ← c.next?
  quotedRest? quote (c.rest.length + 2) c

/-! ## Scalars without quotes -/

def isFlowMark (c : Char) : Bool :=
  c == ',' || c == '[' || c == ']' || c == '{' || c == '}'

/-- The scalar ends before a character: a colon ends it at the end of a word, and within a flow
collection so do its marks. -/
def endsPlain (inFlow : Bool) (c : Char) (rest : List Char) : Bool :=
  (c == ':' && endsWord rest) || (inFlow && isFlowMark c)

/-- Within a flow collection no mark may stand right behind a colon. -/
def isMisplacedColon (inFlow : Bool) (c : Char) (rest : List Char) : Bool :=
  inFlow && c == ':' && rest.head?.any fun d => isFlowMark d || d == '?'

/-- The rest of a scalar without quotes behind a gap. Says also whether there is a line end between
its last word and the place behind it. -/
def plainRest? (inFlow : Bool) (indent : Nat) :
    (fuel : Nat) → Gap → Cursor → Option (List Char × Bool × Cursor)
  | 0, _, _ => none
  | fuel + 1, g, c =>
    match c.next? with
    | none => some ([], g.spansLines, c)
    | some (x, c') =>
      if isBlank x || isBreak x then do
        let (g, c) ← gap? indent fuel .none c
        if !inFlow && c.column < indent then some ([], g.spansLines, c)
        else if c.atDocumentMark || c.sees '#' then some ([], g.spansLines, c)
        else plainRest? inFlow indent fuel g c
      else if isMisplacedColon inFlow x c'.rest then none
      else if endsPlain inFlow x c'.rest then some ([], g.spansLines, c)
      else
        (plainRest? inFlow indent fuel .none c').map fun (s, lines, c) =>
          (g.folded ++ x :: s, lines, c)

/-- The scalar without quotes at a place, whether a line end follows it, and the place behind it.
On later lines it must not stand left of the column `indent`. -/
def plain? (inFlow : Bool) (indent : Nat) (c : Cursor) : Option (List Char × Bool × Cursor) :=
  plainRest? inFlow indent (c.rest.length + 2) .none c

/-! ## Blocks -/

/-- Which of the line ends at the end of a block are kept. -/
inductive Chomping where
  | strip | clip | keep
  deriving Repr, DecidableEq

def chomping? (c : Cursor) : Option Chomping :=
  match c.rest with
  | '+' :: _ => some .keep
  | '-' :: _ => some .strip
  | _ => none

def increment? (c : Cursor) : Option Nat :=
  match c.rest with
  | d :: _ => if d.isDigit then some (d.toNat - '0'.toNat) else none
  | [] => none

/-- The chomping and the indentation that the header of a block asks for, in any order, and the
place behind the header. An indentation of zero is a fault. -/
def blockHeader? (c : Cursor) : Option (Chomping × Option Nat × Cursor) :=
  let (chomping, increment, c) := match chomping? c, increment? c with
    | some ch, _ =>
      let c := c.skip 1
      match increment? c with
      | some n => (ch, some n, c.skip 1)
      | none => (ch, none, c)
    | none, some n =>
      let c := c.skip 1
      match chomping? c with
      | some ch => (ch, some n, c.skip 1)
      | none => (.clip, some n, c)
    | none, none => (.clip, none, c)
  if increment = some 0 then none else c.endLine?.map fun c => (chomping, increment, c)

/-- The line ends and the indentation at a place, the width of the widest indentation, and the
place behind them. The indentation reaches up to the column `indent?`, or as far as it can. A tab
in its place is a fault. -/
def blockBreaks? (indent? : Option Nat) :
    (fuel widest : Nat) → Cursor → Option (List Char × Nat × Cursor)
  | 0, _, _ => none
  | fuel + 1, widest, c =>
    let width := (c.span (· == ' ')).length
    let c := c.skip (match indent? with
      | none => width
      | some n => min width (n - c.column))
    let widest := max widest c.column
    if indent?.all (c.column < ·) && c.sees '\t' then none
    else match c.lineBreak? with
      | none => some ([], widest, c)
      | some (b, c) =>
        (blockBreaks? indent? fuel widest c).map fun (bs, widest, c) => (b :: bs, widest, c)

/-- How a block goes on behind a line: the line end, the empty lines behind it, and whether the
line starts with a blank. -/
structure BlockGap where
  lineBreak : List Char
  breaks : List Char
  indented : Bool
  deriving Repr, DecidableEq

/-- What the line ends before a line stand for: in a folded block, one between two lines that start
without blanks is folded. -/
def BlockGap.joined (g : BlockGap) (folds nextIndented : Bool) : List Char :=
  if folds && g.lineBreak == ['\n'] && !g.indented && !nextIndented then
    if g.breaks.isEmpty then [' '] else g.breaks
  else g.lineBreak ++ g.breaks

def BlockGap.chomped (g : BlockGap) : Chomping → List Char
  | .strip => []
  | .clip => g.lineBreak
  | .keep => g.lineBreak ++ g.breaks

/-- The lines of a block from a place on, and the place behind them. -/
def blockLines? (folds : Bool) (chomping : Chomping) (indent : Nat) :
    (fuel : Nat) → BlockGap → Cursor → Option (List Char × Cursor)
  | 0, _, _ => none
  | fuel + 1, g, c =>
    if c.column != indent || c.rest.isEmpty then some (g.chomped chomping, c)
    else do
      let indented := c.rest.head?.any isBlank
      let line := c.span fun x => !isBreak x
      let c := c.skip line.length
      let (lineBreak, c) := match c.lineBreak? with
        | some (b, c) => ([b], c)
        | none => ([], c)
      let (breaks, _, c) ← blockBreaks? (some indent) fuel 0 c
      prepend (g.joined folds indented ++ line)
        (blockLines? folds chomping indent fuel ⟨lineBreak, breaks, indented⟩ c)

/-- The block at a place within lines that are indented by `parent`, behind its mark, and the place
behind it. Without a width in its header it is indented as its first line is, but more than its
parent. -/
def block? (folds : Bool) (parent : Int) (c : Cursor) : Option (List Char × Cursor) := do
  let fuel := c.rest.length + 2
  let (chomping, increment, c) ← blockHeader? c
  let given := increment.map fun n => if 0 ≤ parent then parent.toNat + n else n
  let (breaks, widest, c) ← blockBreaks? given fuel 0 c
  let indent := given.getD (max widest (max (parent + 1).toNat 1))
  blockLines? folds chomping indent fuel ⟨[], breaks, false⟩ c

end ForecastJob.Yaml
