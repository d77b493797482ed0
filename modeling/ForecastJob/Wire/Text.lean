import ForecastJob.Json.Printer
import ForecastJob.Json.Reader
import ForecastJob.Wire.Payload

/-!
# Payloads as texts

* `Wire.Payload.ofText` : the payload that a JSON text is;
* `Wire.Payload.toJson`, `Wire.Payload.toText` : the JSON value of a payload, and its text.
-/

namespace ForecastJob.Wire.Payload

/-- The payload that a JSON text is. -/
def ofText (s : String) : Except Fault Payload := do
  let (t, complete) := Json.Text.read s
  let p ← record.read t
  if complete then return p else throw .malformed

def toJson (p : Payload) : Json :=
  record.write p

/-- The JSON text of a payload, laid out for people. -/
def toText (p : Payload) : String :=
  p.toJson.pretty

end ForecastJob.Wire.Payload
