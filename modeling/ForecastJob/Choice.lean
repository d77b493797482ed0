/-!
# Choices: finite types with two spellings

A choice is written one way in service payloads (`SeasonTrend`) and another way in job documents
(`season_trend`). Reading forgives: only the ASCII letters and digits of a text count, and their
case does not.

* `Choice` : the members of a type and their spellings;
* `Choice.key` : what of a text counts;
* `Choice.parse` : the first member one of whose spellings has the key of the text.
-/

namespace ForecastJob

/-- A finite type whose members have a spelling in payloads and one in documents. -/
class Choice (α : Type) where
  /-- The name of the type, as error messages give it. -/
  name : String
  /-- The members, in order of precedence. -/
  all : List α
  /-- The spelling in payloads. -/
  wire : α → String
  /-- The spelling in documents. -/
  doc : α → String

namespace Choice

/-- What of a text counts: its ASCII letters and digits, in lower case. -/
def key (s : String) : String :=
  String.ofList ((s.toList.filter Char.isAlphanum).map Char.toLower)

/-- A text that spells no member of a choice. -/
structure Unknown where
  kind : String
  value : String
  /-- The spellings that would have done. -/
  valid : List String
  deriving Repr, DecidableEq, Inhabited

def Unknown.expected (e : Unknown) : String :=
  ", ".intercalate e.valid

def Unknown.message (e : Unknown) : String :=
  s!"invalid {e.kind} value '{e.value}': expected one of {e.expected}"

variable {α : Type} [Choice α]

/-- The text has the key of a spelling of the member. -/
def spells (s : String) (a : α) : Bool :=
  key (wire a) == key s || key (doc a) == key s

/-- The first member that a text spells. -/
def parse (s : String) : Except Unknown α :=
  match (all : List α).find? (spells s) with
  | some a => .ok a
  | none => .error ⟨name α, s, (all : List α).map doc⟩

end Choice

end ForecastJob
