import ForecastJob.Proofs.Schema.Conversion
import ForecastJob.Proofs.Wire.Conversion

/-!
# Jobs that can be built

* `Job.Reachable` : the jobs that creation, loading, importing and updates lead to, with any
  metadata;
* `Job.Reachable.sound` : their metric is known or bound by the enclosing pipeline.
-/

namespace ForecastJob

namespace Job

/-- The jobs that the public operations lead to. -/
inductive Reachable : Job → Prop
  | new {args : Args} {job : Job} (h : Job.new args = .ok job) : Reachable job
  | load {layout : Schema.Layout} {base note : String} {d : Document} {job : Job}
      (h : Schema.load layout base note d = .ok job) : Reachable job
  | ofPayload {p : Wire.Payload} {job : Job} (h : Job.ofPayload p = .ok job) : Reachable job
  | setMetric (value : Option String) {job : Job} (hr : Reachable job) :
      Reachable ((setMetric value).run job).2
  | setForecasting (update : ForecastingSettings) {job : Job} (hr : Reachable job) :
      Reachable (job.setForecasting update)
  | setTraining (update : TrainingSettings) {job : Job} (hr : Reachable job) :
      Reachable (job.setTraining update)
  | setData (update : DataSettings) {job : Job} (hr : Reachable job) :
      Reachable (job.setData update)
  | setLimits (update : LimitSettings) {job : Job} (hr : Reachable job) :
      Reachable (job.setLimits update)
  | setFeaturization (update : FeaturizationSettings) {job : Job} (hr : Reachable job) :
      Reachable (job.setFeaturization update)
  | setLogVerbosity (verbosity : LogVerbosity) {job : Job} (hr : Reachable job) :
      Reachable (job.setLogVerbosity verbosity)
  | withMetadata (metadata : Metadata) {job : Job} (hr : Reachable job) :
      Reachable { job with metadata }

theorem sound_of_new {args : Args} {job : Job} (h : Job.new args = .ok job) : job.metric.Sound := by
  obtain ⟨metric, hm, hj⟩ := Except.bind_eq_ok.1 h
  cases hj
  exact Metric.sound_of_parse hm

theorem sound_of_ofPayload {p : Wire.Payload} {job : Job} (h : Job.ofPayload p = .ok job) :
    job.metric.Sound :=
  Metric.sound_of_parse (ofPayload_eq_ok_iff.1 h).metric

theorem sound_of_load {layout : Schema.Layout} {base note : String} {d : Document} {job : Job}
    (h : Schema.load layout base note d = .ok job) : job.metric.Sound := by
  obtain ⟨fields, -, hfields⟩ := Schema.load_eq_ok_iff.1 h
  exact Metric.sound_of_parse hfields.metric

/-- No operation leaves a deferred metric that is not bound by the enclosing pipeline. -/
theorem Reachable.sound {job : Job} (h : job.Reachable) : job.metric.Sound := by
  induction h with
  | new h => exact sound_of_new h
  | load h => exact sound_of_load h
  | ofPayload h => exact sound_of_ofPayload h
  | setMetric value _ ih =>
    rw [run_setMetric]
    cases hm : Metric.parse value with
    | ok metric => exact Metric.sound_of_parse hm
    | error e => exact ih
  | setForecasting _ _ ih => exact ih
  | setTraining _ _ ih => exact ih
  | setData _ _ ih => exact ih
  | setLimits _ _ ih => exact ih
  | setFeaturization _ _ ih => exact ih
  | setLogVerbosity _ _ ih => exact ih
  | withMetadata _ _ ih => exact ih

end Job

end ForecastJob
