import ForecastJob.Job.Binding
import ForecastJob.Job.Choices

/-!
# The primary metric

A job optimises one metric. Inside a pipeline the metric may be left to the pipeline; then its
binding expression is kept as it was written.

* `Metric` : a known metric or a deferred one;
* `Metric.parse` : no text means the default, a parent binding is kept, all else must spell a
  known metric.
-/

namespace ForecastJob

/-- The primary metric of a job. -/
inductive Metric where
  | concrete (metric : ForecastingMetric)
  /-- A binding to the enclosing pipeline, as it was written. -/
  | deferred (expression : String)
  deriving Repr, DecidableEq

namespace Metric

instance : Inhabited Metric := ⟨.concrete default⟩

/-- A text that is neither a known metric nor bound by the enclosing pipeline. -/
structure Invalid where
  value : String
  valid : String
  deriving Repr, DecidableEq, Inhabited

def Invalid.message (e : Invalid) : String :=
  s!"invalid primary metric '{e.value}': expected one of {e.valid}"

def ofText (s : String) : Except Invalid Metric :=
  if Binding.isParent s then .ok (.deferred s)
  else match (Choice.parse s : Except Choice.Unknown ForecastingMetric) with
    | .ok m => .ok (.concrete m)
    | .error e => .error ⟨e.value, e.expected⟩

/-- Reads a metric from an optional text; no text means the default. -/
def parse : Option String → Except Invalid Metric
  | none => .ok default
  | some s => ofText s

/-- The metric is left to the enclosing pipeline. -/
def isDeferred : Metric → Bool
  | .concrete _ => false
  | .deferred _ => true

def wire : Metric → String
  | .concrete m => Choice.wire m
  | .deferred s => s

def doc : Metric → String
  | .concrete m => Choice.doc m
  | .deferred s => s

end Metric

end ForecastJob
