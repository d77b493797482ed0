import ForecastJob.Schema.Dump
import ForecastJob.Toml.Printer
import ForecastJob.Toml.Reader
import ForecastJob.Yaml.Printer
import ForecastJob.Yaml.Reader

/-!
# Text formats of job documents

* `Format` : the formats, and `Format.ofPath`, the one that the name of a file asks for;
* `Format.read`, `Format.write` : documents from texts and texts from documents;
* `Job.ofText`, `Job.toText`, `Job.ofFile` : jobs from texts and files, and their texts.
-/

namespace ForecastJob

/-- A text format of job documents. -/
inductive Format where
  | toml
  | yaml
  deriving Repr, DecidableEq

namespace Format

def ofPath (path : String) : Schema.Outcome Format :=
  match (Location.extension? path).map fun e => e.toList.map Char.toLower with
  | some ['t', 'o', 'm', 'l'] => .ok .toml
  | some ['y', 'a', 'm', 'l'] => .ok .yaml
  | some ['y', 'm', 'l'] => .ok .yaml
  | _ => .error (.unknownFormat path)

def read (format : Format) (text : String) : Schema.Outcome Document :=
  let document := match format with
    | .toml => Toml.read? text
    | .yaml => Yaml.read? text
  match document with
  | some d => .ok d
  | none => .error (.parse .malformed)

def write (format : Format) (d : Document) : String :=
  match format with
  | .toml => Toml.write d
  | .yaml => Yaml.write d

end Format

namespace Job

open Schema (Layout)

/-- The job that a text describes. -/
def ofText (format : Format) (layout : Layout) (base text : String) :
    Except Schema.Error Job := do
  let d ← Schema.noted "" (format.read text)
  Schema.load layout base "" d

def toText (format : Format) (layout : Layout) (job : Job) : Except Schema.Error String := do
  let d ← Schema.dump layout job
  return format.write d

/-- The job that a file describes, given its text if there is such a file. Without a base
directory, data inputs are seen from the directory of the file. -/
def ofFile (layout : Layout) (base? : Option String) (path : String) (text? : Option String) :
    Except Schema.Error Job := do
  let format ← Schema.noted path (Format.ofPath path)
  match text? with
  | none => throw { cause := .missingFile path }
  | some text =>
    let d ← Schema.noted path (format.read text)
    Schema.load layout (base?.getD (Location.directory path)) path d

end Job

end ForecastJob
