/-!
# Blanks of a text

* `isBlank` : the characters with the Unicode property `White_Space`;
* `trim`, `trimRight` : a text without the blanks at its ends, or at its right end;
* `isBlankText` : a text that holds nothing but blanks;
* `sameIgnoringCase` : equality up to the case of ASCII letters.
-/

namespace ForecastJob.Text

/-- The characters with the Unicode property `White_Space`. -/
def isBlank (c : Char) : Bool :=
  (0x09 ≤ c.toNat && c.toNat ≤ 0x0D) || (0x2000 ≤ c.toNat && c.toNat ≤ 0x200A) ||
    [0x20, 0x85, 0xA0, 0x1680, 0x2028, 0x2029, 0x202F, 0x205F, 0x3000].contains c.toNat

def dropRightWhile (p : Char → Bool) (cs : List Char) : List Char :=
  (cs.reverse.dropWhile p).reverse

def trimChars (cs : List Char) : List Char :=
  dropRightWhile isBlank (cs.dropWhile isBlank)

def trim (s : String) : String :=
  String.ofList (trimChars s.toList)

def trimRight (s : String) : String :=
  String.ofList (dropRightWhile isBlank s.toList)

def isBlankText (s : String) : Bool :=
  s.toList.all isBlank

/-- Equality up to the case of ASCII letters. -/
def sameIgnoringCase (s t : String) : Bool :=
  s.toList.map Char.toLower == t.toList.map Char.toLower

/-- `cs` without `pre` at its front, if it starts so. -/
def dropFront? : List Char → List Char → Option (List Char)
  | [], cs => some cs
  | _ :: _, [] => none
  | p :: ps, c :: cs => if p = c then dropFront? ps cs else none

def dropBack? (post cs : List Char) : Option (List Char) :=
  (dropFront? post.reverse cs.reverse).map List.reverse

/-- The pieces of a text between the characters that satisfy `p`; there is always at least one. -/
def pieces (p : Char → Bool) : List Char → List (List Char)
  | [] => [[]]
  | c :: cs =>
    if p c then [] :: pieces p cs
    else match pieces p cs with
      | [] => [[c]]
      | w :: ws => (c :: w) :: ws

end ForecastJob.Text
