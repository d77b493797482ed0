import ForecastJob.Fault
import ForecastJob.Job.Metric

/-!
# Why a document cannot be loaded or dumped

* `Schema.Cause` : the causes;
* `Schema.Error` : a cause, and a note of the caller on where it was met;
* `Schema.Cause.message`, `Schema.Error.message` : the words.
-/

namespace ForecastJob.Schema

/-- Why a document cannot be loaded or dumped. -/
inductive Cause where
  | parse (fault : Fault)
  | missingField (name : String)
  /-- The field belongs to another layout. -/
  | unsupportedField (name : String)
  | unexpectedValue (field value expected : String)
  /-- The metric is left to a pipeline, but the document is not part of one. -/
  | deferredMetric (expression : String)
  | invalidMetric (e : Metric.Invalid)
  /-- A value has no place in a document. -/
  | serialize
  | missingFile (path : String)
  | unknownFormat (path : String)
  deriving Repr, DecidableEq

def Cause.message : Cause → String
  | parse fault =>
    match fault.detail? with
    | some detail => s!"invalid job document: {detail}"
    | none => "invalid job document"
  | missingField name => s!"missing required field '{name}'"
  | unsupportedField name => s!"field '{name}' is not allowed here"
  | unexpectedValue field value expected =>
    s!"invalid value '{value}' for '{field}': expected {expected}"
  | deferredMetric expression =>
    s!"primary metric '{expression}' binds to a parent pipeline but the job is not a pipeline node"
  | invalidMetric e => e.message
  | serialize => "failed to serialize job document"
  | missingFile path => s!"I/O error accessing {path}: No such file or directory (os error 2)"
  | unknownFormat path => s!"unknown document format for {path}: expected .toml, .yaml or .yml"

/-- A cause, and a note of the caller on where it was met. -/
structure Error where
  cause : Cause
  /-- Empty if the caller has none. -/
  note : String := ""
  deriving Repr, DecidableEq

def Error.message (e : Error) : String :=
  if e.note.isEmpty then e.cause.message else s!"{e.cause.message} ({e.note})"

end ForecastJob.Schema
