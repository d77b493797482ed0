import ForecastJob.Job.Choices
import ForecastJob.Record

/-!
# Training settings

* `StackEnsembleSettings`, `TrainingSettings` : the records and their document form;
* `TrainingSettings.overwrite` : an update replaces the fields that it supplies.
-/

namespace ForecastJob

/-- Settings of the iteration that builds a stack ensemble. -/
structure StackEnsembleSettings where
  metaLearner : Option StackMetaLearner := none
  /-- The share of the training data that is kept for the meta-learner. -/
  trainPercentage : Option Float := none
  arguments : Option FreeForm := none
  deriving BEq

/-- Which models are trained, and how. -/
structure TrainingSettings where
  onnxCompatibleModels : Option Bool := none
  dnnTraining : Option Bool := none
  modelExplainability : Option Bool := none
  stackEnsemble : Option Bool := none
  voteEnsemble : Option Bool := none
  stackEnsembleSettings : Option StackEnsembleSettings := none
  /-- The seconds a model may take to download. -/
  modelDownloadTimeout : Option UInt64 := none
  allowedAlgorithms : Option (List String) := none
  blockedAlgorithms : Option (List String) := none
  mode : Option TrainingMode := none
  deriving BEq

def StackEnsembleSettings.record : Record StackEnsembleSettings where
  blank := {}
  closed := true
  fields := [
    .optional "stack_meta_learner_type" .choice (·.metaLearner) fun v r =>
      { r with metaLearner := v },
    .optional "stack_meta_learner_train_percentage" .float (·.trainPercentage) fun v r =>
      { r with trainPercentage := v },
    .optional "stack_meta_learner_kwargs" .freeForm (·.arguments) fun v r =>
      { r with arguments := v }]

namespace TrainingSettings

def record : Record TrainingSettings where
  blank := {}
  closed := true
  fields := [
    .optional "enable_onnx_compatible_models" .bool (·.onnxCompatibleModels) fun v r =>
      { r with onnxCompatibleModels := v },
    .optional "enable_dnn_training" .bool (·.dnnTraining) fun v r => { r with dnnTraining := v },
    .optional "enable_model_explainability" .bool (·.modelExplainability) fun v r =>
      { r with modelExplainability := v },
    .optional "enable_stack_ensemble" .bool (·.stackEnsemble) fun v r =>
      { r with stackEnsemble := v },
    .optional "enable_vote_ensemble" .bool (·.voteEnsemble) fun v r =>
      { r with voteEnsemble := v },
    .optional "stack_ensemble_settings" StackEnsembleSettings.record.codec
      (·.stackEnsembleSettings) fun v r => { r with stackEnsembleSettings := v },
    .optional "ensemble_model_download_timeout" .uint64 (·.modelDownloadTimeout) fun v r =>
      { r with modelDownloadTimeout := v },
    .optional "allowed_training_algorithms" (.listOf .text) (·.allowedAlgorithms) fun v r =>
      { r with allowedAlgorithms := v },
    .optional "blocked_training_algorithms" (.listOf .text) (·.blockedAlgorithms) fun v r =>
      { r with blockedAlgorithms := v },
    .optional "training_mode" .choice (·.mode) fun v r => { r with mode := v }]

def overwrite (update settings : TrainingSettings) : TrainingSettings where
  onnxCompatibleModels := update.onnxCompatibleModels <|> settings.onnxCompatibleModels
  dnnTraining := update.dnnTraining <|> settings.dnnTraining
  modelExplainability := update.modelExplainability <|> settings.modelExplainability
  stackEnsemble := update.stackEnsemble <|> settings.stackEnsemble
  voteEnsemble := update.voteEnsemble <|> settings.voteEnsemble
  stackEnsembleSettings := update.stackEnsembleSettings <|> settings.stackEnsembleSettings
  modelDownloadTimeout := update.modelDownloadTimeout <|> settings.modelDownloadTimeout
  allowedAlgorithms := update.allowedAlgorithms <|> settings.allowedAlgorithms
  blockedAlgorithms := update.blockedAlgorithms <|> settings.blockedAlgorithms
  mode := update.mode <|> settings.mode

/-- Applies an update to settings that may not be there yet. -/
def apply (settings : Option TrainingSettings) (update : TrainingSettings) : TrainingSettings :=
  update.overwrite (settings.getD {})

end TrainingSettings

end ForecastJob
