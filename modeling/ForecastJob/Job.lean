import ForecastJob.Job.Data
import ForecastJob.Job.Featurization
import ForecastJob.Job.Forecasting
import ForecastJob.Job.Limits
import ForecastJob.Job.Metadata
import ForecastJob.Job.Metric
import ForecastJob.Job.Training

/-!
# Forecasting jobs

* `Tabular` : the data, search limits, training and featurization of a job;
* `Job` : a tabular part, a metric, forecasting settings, and metadata;
* `Job.new` : a job, unless its metric is invalid;
* `Job.setData`, `Job.setTraining`, … : partial updates; a record is created by its first update;
* `Job.same` : equality of what affects the model search.
-/

namespace ForecastJob

/-- What a job on tabular data has besides the settings of its task. -/
structure Tabular where
  data : DataSettings := {}
  featurization : Option FeaturizationSettings := none
  limits : Option LimitSettings := none
  training : Option TrainingSettings := none
  logVerbosity : LogVerbosity := default
  deriving BEq

/-- The configuration of a forecasting job. -/
structure Job where
  metadata : Metadata := {}
  tabular : Tabular := {}
  metric : Metric := default
  forecasting : Option ForecastingSettings := none

namespace Job

/-- What a job is built from. -/
structure Args where
  metric : Option String := none
  forecasting : Option ForecastingSettings := none
  metadata : Metadata := {}
  data : DataSettings := {}
  featurization : Option FeaturizationSettings := none
  limits : Option LimitSettings := none
  training : Option TrainingSettings := none
  logVerbosity : Option LogVerbosity := none

/-- Builds a job; its metric must be known or left to the enclosing pipeline. -/
def new (args : Args) : Except Metric.Invalid Job := do
  let metric ← Metric.parse args.metric
  return {
    metadata := args.metadata
    tabular := {
      data := args.data
      featurization := args.featurization
      limits := args.limits
      training := args.training
      logVerbosity := args.logVerbosity.getD default }
    metric := metric
    forecasting := args.forecasting }

/-! ## Views -/

def data (job : Job) : DataSettings := job.tabular.data

/-- The training settings, or the ones that nothing has been set in. -/
def trainingOrDefault (job : Job) : TrainingSettings :=
  job.tabular.training.getD {}

/-- Equality of what affects the model search: all but the metadata. -/
def same (a b : Job) : Bool :=
  a.tabular == b.tabular && a.metric == b.metric && a.forecasting == b.forecasting

instance : BEq Job := ⟨same⟩

/-! ## Updates -/

/-- Sets the metric; no text means the default. -/
def setMetric (value : Option String) : ExceptT Metric.Invalid (StateM Job) Unit := do
  let metric ← Metric.parse value
  modify fun job => { job with metric }

/-- A metric that cannot be set leaves the job as it is. -/
theorem run_setMetric (value : Option String) (job : Job) :
    (setMetric value).run job =
      match Metric.parse value with
      | .ok metric => (.ok (), { job with metric })
      | .error e => (.error e, job) := by
  unfold setMetric
  cases Metric.parse value <;> rfl

def setForecasting (update : ForecastingSettings) (job : Job) : Job :=
  { job with forecasting := some (update.overwrite (job.forecasting.getD {})) }

/-- Updates the training settings. An update that does not say whether to build a stack ensemble
switches it off. -/
def setTraining (update : TrainingSettings) (job : Job) : Job :=
  let settings := TrainingSettings.apply job.tabular.training update
  let settings := if update.stackEnsemble.isSome then settings else
    { settings with stackEnsemble := some false }
  { job with tabular := { job.tabular with training := some settings } }

def setData (update : DataSettings) (job : Job) : Job :=
  { job with tabular := { job.tabular with data := update.overwrite job.tabular.data } }

def setLimits (update : LimitSettings) (job : Job) : Job :=
  let settings := update.overwrite (job.tabular.limits.getD {})
  { job with tabular := { job.tabular with limits := some settings } }

def setFeaturization (update : FeaturizationSettings) (job : Job) : Job :=
  let settings := update.overwrite (job.tabular.featurization.getD {})
  { job with tabular := { job.tabular with featurization := some settings } }

def setLogVerbosity (verbosity : LogVerbosity) (job : Job) : Job :=
  { job with tabular := { job.tabular with logVerbosity := verbosity } }

/-! ## Summary -/

/-- The metric, the horizon and the time column on one line. -/
def summary (job : Job) : String :=
  let metric := job.metric.doc
  let horizon := ((job.forecasting.bind (·.horizon)).map AutoOr.toText).getD "-"
  let column := (job.forecasting.bind (·.timeColumn)).getD "-"
  s!"ok: metric={metric} horizon={horizon} time_column={column}"

end Job

end ForecastJob
