import Mathlib.Logic.Basic
import ForecastJob.Job

/-!
# The last update wins

* `Job.Update`, `Job.Update.apply` : an update of a job, and the job after it, even if the update
  fails;
* `Job.run` : updates one after the other;
* `lastSupplied` : what the last of some updates supplies for a field;
* `ForecastingSettings.latest`, `DataSettings.latest`, … : the settings in which that is every field;
* `Job.AsUpdated` : what a job is after updates, by its parts;
* `Job.asUpdated_run` : that is what a run of them leaves.
-/

namespace ForecastJob

/-! ## Updates -/

namespace Job

/-- An update of a part of a job. -/
inductive Update where
  | forecasting (update : ForecastingSettings)
  | data (update : DataSettings)
  | limits (update : LimitSettings)
  | featurization (update : FeaturizationSettings)
  | training (update : TrainingSettings)
  | logVerbosity (verbosity : LogVerbosity)
  /-- No text means the default metric. -/
  | metric (value : Option String)

namespace Update

/-- The job after an update, whatever comes of the update. -/
def apply : Update → Job → Job
  | forecasting update, job => job.setForecasting update
  | data update, job => job.setData update
  | limits update, job => job.setLimits update
  | featurization update, job => job.setFeaturization update
  | training update, job => job.setTraining update
  | logVerbosity verbosity, job => job.setLogVerbosity verbosity
  | metric value, job => ((setMetric value).run job).2

def forecasting? : Update → Option ForecastingSettings
  | forecasting update => some update
  | _ => none

def data? : Update → Option DataSettings
  | data update => some update
  | _ => none

def limits? : Update → Option LimitSettings
  | limits update => some update
  | _ => none

def featurization? : Update → Option FeaturizationSettings
  | featurization update => some update
  | _ => none

def training? : Update → Option TrainingSettings
  | training update => some update
  | _ => none

def logVerbosity? : Update → Option LogVerbosity
  | logVerbosity verbosity => some verbosity
  | _ => none

/-- The metric that an update supplies, if it is one that can be set. -/
def metric? : Update → Option Metric
  | metric value => (Metric.parse value).toOption
  | _ => none

theorem apply_metric (value : Option String) (job : Job) :
    (metric value).apply job =
      { job with metric := (Metric.parse value).toOption.getD job.metric } := by
  rw [apply, run_setMetric]
  cases Metric.parse value <;> rfl

end Update

/-- The job after some updates. -/
def run (job : Job) (updates : List Update) : Job :=
  updates.foldl (fun job update => update.apply job) job

end Job

/-! ## What is supplied last -/

section Supplied

variable {ρ α : Type}

/-- What the last update that supplies a field supplies for it; without one, what was there. -/
def lastSupplied (get : ρ → Option α) (updates : List ρ) (before : ρ) : Option α :=
  (updates.filterMap get).getLast?.or (get before)

/-- The first update counts as what was there before the other ones. -/
theorem lastSupplied_cons {get : ρ → Option α} {update before next : ρ}
    (h : get next = (get update <|> get before)) (updates : List ρ) :
    lastSupplied get (update :: updates) before = lastSupplied get updates next := by
  unfold lastSupplied
  rw [h, List.filterMap_cons]
  cases get update with
  | none => rfl
  | some a =>
    rw [List.getLast?_cons]
    cases (updates.filterMap get).getLast? <;> rfl

end Supplied

/-- The forecasting settings in which every field is the last one supplied. -/
def ForecastingSettings.latest (updates : List ForecastingSettings)
    (before : ForecastingSettings) : ForecastingSettings where
  timeColumn := lastSupplied (·.timeColumn) updates before
  horizon := lastSupplied (·.horizon) updates before
  seriesColumns := lastSupplied (·.seriesColumns) updates before
  targetLags := lastSupplied (·.targetLags) updates before
  featureLags := lastSupplied (·.featureLags) updates before
  rollingWindow := lastSupplied (·.rollingWindow) updates before
  holidayRegion := lastSupplied (·.holidayRegion) updates before
  useStl := lastSupplied (·.useStl) updates before
  seasonality := lastSupplied (·.seasonality) updates before
  shortSeries := lastSupplied (·.shortSeries) updates before
  frequency := lastSupplied (·.frequency) updates before
  targetAggregate := lastSupplied (·.targetAggregate) updates before
  cvStep := lastSupplied (·.cvStep) updates before
  unknownFeatures := lastSupplied (·.unknownFeatures) updates before

def DataSettings.latest (updates : List DataSettings) (before : DataSettings) : DataSettings where
  targetColumn := lastSupplied (·.targetColumn) updates before
  trainingData := lastSupplied (·.trainingData) updates before
  validationData := lastSupplied (·.validationData) updates before
  validationSize := lastSupplied (·.validationSize) updates before
  weightColumn := lastSupplied (·.weightColumn) updates before
  cvSplitColumns := lastSupplied (·.cvSplitColumns) updates before
  crossValidations := lastSupplied (·.crossValidations) updates before
  testData := lastSupplied (·.testData) updates before
  testSize := lastSupplied (·.testSize) updates before

def LimitSettings.latest (updates : List LimitSettings) (before : LimitSettings) :
    LimitSettings where
  earlyTermination := lastSupplied (·.earlyTermination) updates before
  exitScore := lastSupplied (·.exitScore) updates before
  maxConcurrentTrials := lastSupplied (·.maxConcurrentTrials) updates before
  maxCoresPerTrial := lastSupplied (·.maxCoresPerTrial) updates before
  maxNodes := lastSupplied (·.maxNodes) updates before
  maxTrials := lastSupplied (·.maxTrials) updates before
  timeout := lastSupplied (·.timeout) updates before
  trialTimeout := lastSupplied (·.trialTimeout) updates before

def FeaturizationSettings.latest (updates : List FeaturizationSettings)
    (before : FeaturizationSettings) : FeaturizationSettings where
  mode := lastSupplied (·.mode) updates before
  blockedTransformers := lastSupplied (·.blockedTransformers) updates before
  columnTypes := lastSupplied (·.columnTypes) updates before
  datasetLanguage := lastSupplied (·.datasetLanguage) updates before
  transformerParameters := lastSupplied (·.transformerParameters) updates before
  dnnFeaturization := lastSupplied (·.dnnFeaturization) updates before

/-- The training settings in which every field is the last one supplied. Only the last update says
whether to build a stack ensemble: if it does not, there is none. -/
def TrainingSettings.latest (updates : List TrainingSettings) (before : TrainingSettings) :
    TrainingSettings where
  onnxCompatibleModels := lastSupplied (·.onnxCompatibleModels) updates before
  dnnTraining := lastSupplied (·.dnnTraining) updates before
  modelExplainability := lastSupplied (·.modelExplainability) updates before
  stackEnsemble := updates.getLast?.elim before.stackEnsemble fun update =>
    some (update.stackEnsemble.getD false)
  voteEnsemble := lastSupplied (·.voteEnsemble) updates before
  stackEnsembleSettings := lastSupplied (·.stackEnsembleSettings) updates before
  modelDownloadTimeout := lastSupplied (·.modelDownloadTimeout) updates before
  allowedAlgorithms := lastSupplied (·.allowedAlgorithms) updates before
  blockedAlgorithms := lastSupplied (·.blockedAlgorithms) updates before
  mode := lastSupplied (·.mode) updates before

/-! ## One update after the other -/

/-- What an update of a job makes of its training settings. -/
def TrainingSettings.updated (update settings : TrainingSettings) : TrainingSettings :=
  { update.overwrite settings with stackEnsemble := some (update.stackEnsemble.getD false) }

theorem Job.setTraining_eq (update : TrainingSettings) (job : Job) :
    job.setTraining update = { job with tabular := { job.tabular with
      training := some (update.updated (job.tabular.training.getD {})) } } := by
  unfold setTraining TrainingSettings.apply TrainingSettings.updated
  cases h : update.stackEnsemble <;> simp [TrainingSettings.overwrite, h]

theorem ForecastingSettings.latest_cons (update : ForecastingSettings)
    (updates : List ForecastingSettings) (before : ForecastingSettings) :
    latest (update :: updates) before = latest updates (update.overwrite before) := by
  unfold latest
  congr 1 <;> exact lastSupplied_cons rfl _

theorem DataSettings.latest_cons (update : DataSettings) (updates : List DataSettings)
    (before : DataSettings) :
    latest (update :: updates) before = latest updates (update.overwrite before) := by
  unfold latest
  congr 1 <;> exact lastSupplied_cons rfl _

theorem LimitSettings.latest_cons (update : LimitSettings) (updates : List LimitSettings)
    (before : LimitSettings) :
    latest (update :: updates) before = latest updates (update.overwrite before) := by
  unfold latest
  congr 1 <;> exact lastSupplied_cons rfl _

theorem FeaturizationSettings.latest_cons (update : FeaturizationSettings)
    (updates : List FeaturizationSettings) (before : FeaturizationSettings) :
    latest (update :: updates) before = latest updates (update.overwrite before) := by
  unfold latest
  congr 1 <;> exact lastSupplied_cons rfl _

theorem TrainingSettings.latest_cons (update : TrainingSettings) (updates : List TrainingSettings)
    (before : TrainingSettings) :
    latest (update :: updates) before = latest updates (update.updated before) := by
  have hstack : (update :: updates).getLast?.elim before.stackEnsemble (fun u =>
      some (u.stackEnsemble.getD false)) =
      updates.getLast?.elim (update.updated before).stackEnsemble fun u =>
        some (u.stackEnsemble.getD false) := by
    rw [List.getLast?_cons]
    cases updates.getLast? <;> rfl
  unfold latest
  -- `congr` itself takes `hstack` for the field that is no last supplied one.
  congr 1 <;> exact lastSupplied_cons rfl _

/-! ## Runs -/

/-- What updates make of settings that the first of them creates: they are there if they were or if
there are updates, and every field is the latest. -/
structure Maintained {ρ : Type} (latest : List ρ → ρ → ρ) (blank : ρ) (updates : List ρ)
    (before after : Option ρ) : Prop where
  isSome_iff : after.isSome ↔ before.isSome ∨ updates ≠ []
  getD_eq : after.getD blank = latest updates (before.getD blank)

namespace Maintained

variable {ρ : Type} {latest : List ρ → ρ → ρ} {blank : ρ} {updates : List ρ}
  {before after : Option ρ}

theorem refl (h : latest [] (before.getD blank) = before.getD blank) :
    Maintained latest blank [] before before :=
  ⟨by simp, h.symm⟩

/-- The first update creates the settings or overwrites them. -/
theorem cons {update next : ρ}
    (hl : latest (update :: updates) (before.getD blank) = latest updates next)
    (h : Maintained latest blank updates (some next) after) :
    Maintained latest blank (update :: updates) before after :=
  ⟨by simp [h.isSome_iff], by rw [h.getD_eq, hl, Option.getD_some]⟩

end Maintained

namespace Job

/-- What a job is after updates: every part is the last one supplied by an update of that part, and
the metadata stays. -/
structure AsUpdated (updates : List Update) (before after : Job) : Prop where
  metadata : after.metadata = before.metadata
  data : after.data = DataSettings.latest (updates.filterMap Update.data?) before.data
  forecasting : Maintained ForecastingSettings.latest {} (updates.filterMap Update.forecasting?)
    before.forecasting after.forecasting
  limits : Maintained LimitSettings.latest {} (updates.filterMap Update.limits?)
    before.tabular.limits after.tabular.limits
  featurization : Maintained FeaturizationSettings.latest {}
    (updates.filterMap Update.featurization?) before.tabular.featurization
    after.tabular.featurization
  training : Maintained TrainingSettings.latest {} (updates.filterMap Update.training?)
    before.tabular.training after.tabular.training
  logVerbosity : after.tabular.logVerbosity =
    (updates.filterMap Update.logVerbosity?).getLast?.getD before.tabular.logVerbosity
  metric : after.metric = (updates.filterMap Update.metric?).getLast?.getD before.metric

namespace AsUpdated

variable {updates : List Update} {before after : Job}

theorem refl (job : Job) : AsUpdated [] job job where
  metadata := rfl
  data := rfl
  forecasting := .refl rfl
  limits := .refl rfl
  featurization := .refl rfl
  training := .refl rfl
  logVerbosity := rfl
  metric := rfl

/-- An update changes its own part alone, and what it supplies lasts until the next update of that
part. -/
theorem cons {update : Update} (h : AsUpdated updates (update.apply before) after) :
    AsUpdated (update :: updates) before after := by
  cases update with
  | forecasting update =>
    exact { h with forecasting := .cons (ForecastingSettings.latest_cons ..) h.forecasting }
  | data update =>
    exact { h with data := h.data.trans (DataSettings.latest_cons ..).symm }
  | limits update => exact { h with limits := .cons (LimitSettings.latest_cons ..) h.limits }
  | featurization update =>
    exact { h with featurization := .cons (FeaturizationSettings.latest_cons ..) h.featurization }
  | training update =>
    have h : AsUpdated updates (before.setTraining update) after := h
    rw [setTraining_eq] at h
    exact { h with training := .cons (TrainingSettings.latest_cons ..) h.training }
  | logVerbosity verbosity =>
    have hv : (verbosity :: updates.filterMap Update.logVerbosity?).getLast?.getD
        before.tabular.logVerbosity =
        (updates.filterMap Update.logVerbosity?).getLast?.getD verbosity := by
      rw [List.getLast?_cons, Option.getD_some]
    exact { h with logVerbosity := h.logVerbosity.trans hv.symm }
  | metric value =>
    rw [Update.apply_metric] at h
    refine { h with metric := h.metric.trans ?_ }
    show _ = ((Update.metric value :: updates).filterMap Update.metric?).getLast?.getD before.metric
    cases hm : (Metric.parse value).toOption with
    | none => rw [List.filterMap_cons_none (show Update.metric? (.metric value) = none from hm)]; rfl
    | some m =>
      rw [List.filterMap_cons_some (show Update.metric? (.metric value) = some m from hm),
        List.getLast?_cons, Option.getD_some]
      rfl

end AsUpdated

/-- After any updates in any order every field is what the last update of its part that supplies it
supplies, and what it was before if there is none. -/
theorem asUpdated_run (updates : List Update) (job : Job) :
    AsUpdated updates job (job.run updates) := by
  induction updates generalizing job with
  | nil => exact .refl job
  | cons update updates ih => exact (ih (update.apply job)).cons

end Job

end ForecastJob
