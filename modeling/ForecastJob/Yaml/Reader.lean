import ForecastJob.Yaml.Lexer
import ForecastJob.Yaml.Value

/-!
# Reading YAML

* `Yaml.read?` : the job document that a text is, if it is one.
-/

namespace ForecastJob.Yaml

/-- The job document that a text is, if it is one. -/
def read? (s : String) : Option Document := do
  let ts ← tokens? s.toList
  let e ← Element.ofTokens? ts
  let v ← Value.ofElement? e
  v.toDocument?

end ForecastJob.Yaml
