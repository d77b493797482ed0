import ForecastJob.Format
import ForecastJob.Wire.Decode
import ForecastJob.Wire.Text

/-!
# The commands

* `Command` : what can be asked for: to render a document as a payload, to import a payload as a
  document, or to check a document;
* `Command.run` : the text that a command prints, given the text that it reads;
* `Command.Failure` : why there is none.
-/

namespace ForecastJob

open Schema (Layout)

/-- What can be asked for. -/
inductive Command where
  /-- The payload of a document's job. -/
  | render (document : String) (layout : Layout) (base? : Option String)
  /-- The document of a payload's job. -/
  | importPayload (payload : String) (format : Format) (layout : Layout)
  /-- A line on a document's job. -/
  | check (document : String) (layout : Layout)
  deriving Repr, DecidableEq

namespace Command

/-- Why a command prints nothing. -/
inductive Failure where
  /-- The document cannot be loaded. -/
  | document (path : String) (e : Schema.Error)
  | missing (path : String)
  /-- The text is no payload. -/
  | notPayload (fault : Fault)
  /-- The payload describes no forecasting job. -/
  | notForecasting (e : ConversionError)
  /-- No document describes the job. -/
  | dump (e : Schema.Error)
  deriving Repr, DecidableEq

/-- What a command was about when it failed, if more is to be said than the cause. -/
def Failure.context? : Failure → Option String
  | document path _ => some s!"failed to load job document {path}"
  | missing path => some s!"failed to read {path}"
  | notPayload _ => some "input is not a REST job payload"
  | notForecasting _ => some "REST payload is not a forecasting job"
  | dump _ => none

def Failure.message : Failure → String
  | dump e => e.message
  | f => f.context?.getD ""

def loadFile (layout : Layout) (base? : Option String) (path : String) (text? : Option String) :
    Except Failure Job :=
  (Job.ofFile layout base? path text?).mapError (.document path)

def renderFile (layout : Layout) (base? : Option String) (path : String) (text? : Option String) :
    Except Failure String := do
  let job ← loadFile layout base? path text?
  return job.toPayload.toText

def checkFile (layout : Layout) (path : String) (text? : Option String) :
    Except Failure String := do
  let job ← loadFile layout none path text?
  return job.summary

def importText (format : Format) (layout : Layout) (json : String) : Except Failure String := do
  let payload ← (Wire.Payload.ofText json).mapError .notPayload
  let job ← (Job.ofPayload payload).mapError .notForecasting
  (job.toText format layout).mapError .dump

/-- The file that a command reads; the name of a payload can be a dash for the standard input. -/
def file : Command → String
  | render document _ _ => document
  | importPayload payload _ _ => payload
  | check document _ => document

def readsInput : Command → Bool
  | importPayload payload _ _ => payload == "-"
  | _ => false

/-- The text that a command prints, given the text that it reads if there is one. -/
def run (text? : Option String) : Command → Except Failure String
  | render document layout base? => renderFile layout base? document text?
  | check document layout => checkFile layout document text?
  | importPayload payload format layout =>
    match text? with
    | some json => importText format layout json
    | none => .error (.missing payload)

/-- What the program prints for the text of a command: the text without the blanks at its end, and
one line end. -/
def printed (text : String) : String :=
  Text.trimRight text ++ "\n"

end Command

end ForecastJob
