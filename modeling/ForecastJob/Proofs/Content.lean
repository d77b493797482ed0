import ForecastJob.Job

/-!
# What a job holds

* `Job.floats` : the numbers of a job that need not be finite;
* `Job.arguments` : its free-form arguments, for transformers and for the meta-learner;
* `Job.freeForms` : all of its free-form data;
* `DataSettings.inputs` : its data inputs;
* `Job.setData_of_empty` : data that is set where there was none.
-/

namespace ForecastJob

def DataSettings.inputs (s : DataSettings) : List DataInput :=
  s.trainingData.toList ++ s.validationData.toList ++ s.testData.toList

def FeaturizationSettings.arguments (s : FeaturizationSettings) : List FreeForm :=
  s.transformerParameters.toList.flatMap fun d => d.entries.flatMap fun e =>
    e.2.filterMap (·.parameters)

def TrainingSettings.arguments (s : TrainingSettings) : List FreeForm :=
  (s.stackEnsembleSettings.bind (·.arguments)).toList

def TrainingSettings.floats (s : TrainingSettings) : List Float :=
  (s.stackEnsembleSettings.bind (·.trainPercentage)).toList

namespace Job

/-- The floating point numbers of a job. -/
def floats (job : Job) : List Float :=
  job.data.validationSize.toList ++ job.data.testSize.toList ++
    (job.tabular.limits.bind (·.exitScore)).toList ++
    job.tabular.training.toList.flatMap (·.floats)

/-- The free-form arguments of a job, for transformers and for the meta-learner. -/
def arguments (job : Job) : List FreeForm :=
  job.tabular.featurization.toList.flatMap (·.arguments) ++
    job.tabular.training.toList.flatMap (·.arguments)

/-- The free-form data of a job. -/
def freeForms (job : Job) : List FreeForm :=
  job.metadata.services.entries.map (·.2) ++ job.arguments

theorem setData_of_empty {job : Job} (h : job.data = {}) (data : DataSettings) :
    job.setData data = { job with tabular := { job.tabular with data } } := by
  have h : job.tabular.data = {} := h
  simp [setData, DataSettings.overwrite, h]

end Job

end ForecastJob
