import ForecastJob.Job.Choices
import ForecastJob.Record

/-!
# Featurization settings

* `ColumnTransformer`, `FeaturizationSettings` : the records and their document form;
* `FeaturizationSettings.overwrite` : an update replaces the fields that it supplies.
-/

namespace ForecastJob

/-- Parameters of a transformer for a set of columns. -/
structure ColumnTransformer where
  fields : Option (List String) := none
  parameters : Option FreeForm := none
  deriving BEq

/-- How the input columns are featurized. -/
structure FeaturizationSettings where
  mode : Option FeaturizationMode := none
  blockedTransformers : Option (List String) := none
  /-- The feature types that override the detected ones, by column. -/
  columnTypes : Option (Dict String) := none
  datasetLanguage : Option String := none
  /-- The parameters of the transformers, by transformer. -/
  transformerParameters : Option (Dict (List ColumnTransformer)) := none
  dnnFeaturization : Option Bool := none
  deriving BEq

def ColumnTransformer.record : Record ColumnTransformer where
  blank := {}
  closed := true
  fields := [
    .optional "fields" (.listOf .text) (·.fields) fun v r => { r with fields := v },
    .optional "parameters" .freeForm (·.parameters) fun v r => { r with parameters := v }]

namespace FeaturizationSettings

def record : Record FeaturizationSettings where
  blank := {}
  closed := true
  fields := [
    .optional "mode" .choice (·.mode) fun v r => { r with mode := v },
    .optional "blocked_transformers" (.listOf .text) (·.blockedTransformers) fun v r =>
      { r with blockedTransformers := v },
    .optional "column_name_and_types" (.dictOf .text) (·.columnTypes) fun v r =>
      { r with columnTypes := v },
    .optional "dataset_language" .text (·.datasetLanguage) fun v r =>
      { r with datasetLanguage := v },
    .optional "transformer_params" (.dictOf (.listOf ColumnTransformer.record.codec))
      (·.transformerParameters) fun v r => { r with transformerParameters := v },
    .optional "enable_dnn_featurization" .bool (·.dnnFeaturization) fun v r =>
      { r with dnnFeaturization := v }]

def overwrite (update settings : FeaturizationSettings) : FeaturizationSettings where
  mode := update.mode <|> settings.mode
  blockedTransformers := update.blockedTransformers <|> settings.blockedTransformers
  columnTypes := update.columnTypes <|> settings.columnTypes
  datasetLanguage := update.datasetLanguage <|> settings.datasetLanguage
  transformerParameters := update.transformerParameters <|> settings.transformerParameters
  dnnFeaturization := update.dnnFeaturization <|> settings.dnnFeaturization

end FeaturizationSettings

end ForecastJob
