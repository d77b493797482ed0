import ForecastJob.Choice

/-!
# Why a record cannot be read

* `Fault` : the causes; only the first one met is reported;
* `Fault.detail?` : the words for a cause, where there are any.
-/

namespace ForecastJob

/-- Why a record cannot be read from a tree. -/
inductive Fault where
  | unknownField (name : String)
  | missingField (name : String)
  | duplicateField (name : String)
  /-- A text spells no member of a choice. -/
  | unknownChoice (e : Choice.Unknown)
  /-- A text stands where `auto` or a number is expected. -/
  | notAuto (text : String)
  /-- The data has the wrong shape, or its text is malformed. -/
  | malformed
  deriving Repr, DecidableEq

def Fault.detail? : Fault → Option String
  | unknownField name => some s!"unknown field `{name}`"
  | missingField name => some s!"missing field `{name}`"
  | duplicateField name => some s!"duplicate field `{name}`"
  | unknownChoice e => some e.message
  | notAuto text => some s!"expected \"auto\" or a number, got \"{text}\""
  | malformed => none

end ForecastJob
