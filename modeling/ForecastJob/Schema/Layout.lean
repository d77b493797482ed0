import ForecastJob.Job

/-!
# The layout of job documents

A job is described in a document of its own, or as a node of a pipeline. The two layouts differ in
how data inputs are written and in which fields are allowed.

* `Schema.Layout` : the two layouts;
* `Schema.Input` : a data input as it is written;
* `Schema.JobDocument` : the fields of a document, and `Schema.JobDocument.record`, their form.
-/

namespace ForecastJob.Schema

/-- How a job is described. -/
inductive Layout where
  /-- In a document of its own. -/
  | standalone
  /-- As a node of a pipeline. -/
  | node
  deriving Repr, DecidableEq

/-! ## Data inputs -/

def inputType : String := "mltable"

/-- A data input that is written as a table. -/
structure InputTable where
  type : String := inputType
  path : String := ""
  mode : Option InputMode := none
  deriving Repr, DecidableEq

def InputTable.record : Record InputTable where
  blank := {}
  closed := true
  fields := [
    .defaulted "type" .text (·.type) fun v r => { r with type := v },
    .mandatory "path" .text (·.path) fun v r => { r with path := v },
    .optional "mode" .choice (·.mode) fun v r => { r with mode := v }]

/-- A data input as it is written. -/
inductive Input where
  /-- Only a node has data inputs that are written as texts. -/
  | text (s : String)
  | table (t : InputTable)
  deriving Repr, DecidableEq

namespace Input

def write : Input → Json
  | text s => .text s
  | table t => InputTable.record.write t

/-- The codec of the data inputs of a layout. In a node the faults of a table are not told apart,
because the table might have been meant to be something else. -/
def codec : Layout → Codec Input
  | .standalone => ⟨fun t => (InputTable.record.read t).map table, write⟩
  | .node =>
    { read := fun
        | .text s => .ok (text s)
        | t => ((InputTable.record.read t).map table).mapError fun _ => .malformed
      write := write }

end Input

/-! ## Documents -/

def jobType : String := "automl"

def task : String := "forecasting"

/-- The fields of a document. -/
structure JobDocument where
  /-- Where the schema of the document can be found. -/
  schema : Option String := none
  type : String := jobType
  task : String := Schema.task
  name : Option String := none
  displayName : Option String := none
  description : Option String := none
  experimentName : Option String := none
  tags : Dict String := .empty
  properties : Dict String := .empty
  compute : Option String := none
  environmentId : Option String := none
  environmentVariables : Dict String := .empty
  services : Dict FreeForm := .empty
  outputs : Dict JobOutput := .empty
  resources : Option JobResources := none
  identity : Option Identity := none
  queueSettings : Option QueueSettings := none
  logVerbosity : LogVerbosity := default
  metric : Option String := none
  targetColumn : Option String := none
  trainingData : Option Input := none
  validationData : Option Input := none
  validationSize : Option Float := none
  testData : Option Input := none
  testSize : Option Float := none
  weightColumn : Option String := none
  crossValidations : Option AutoOr := none
  cvSplitColumns : Option (List String) := none
  featurization : Option FeaturizationSettings := none
  limits : Option LimitSettings := none
  training : Option TrainingSettings := none
  forecasting : Option ForecastingSettings := none

def JobDocument.record (layout : Layout) : Record JobDocument where
  blank := {}
  closed := true
  fields := [
    .optional "$schema" .text (·.schema) fun v r => { r with schema := v },
    .defaulted "type" .text (·.type) fun v r => { r with type := v },
    .defaulted "task" .text (·.task) fun v r => { r with task := v },
    .optional "name" .text (·.name) fun v r => { r with name := v },
    .optional "display_name" .text (·.displayName) fun v r => { r with displayName := v },
    .optional "description" .text (·.description) fun v r => { r with description := v },
    .optional "experiment_name" .text (·.experimentName) fun v r => { r with experimentName := v },
    .dict "tags" .text (·.tags) fun v r => { r with tags := v },
    .dict "properties" .text (·.properties) fun v r => { r with properties := v },
    .optional "compute" .text (·.compute) fun v r => { r with compute := v },
    .optional "environment_id" .text (·.environmentId) fun v r => { r with environmentId := v },
    .dict "environment_variables" .text (·.environmentVariables) fun v r =>
      { r with environmentVariables := v },
    .dict "services" .freeForm (·.services) fun v r => { r with services := v },
    .dict "outputs" JobOutput.record.codec (·.outputs) fun v r => { r with outputs := v },
    .optional "resources" JobResources.record.codec (·.resources) fun v r =>
      { r with resources := v },
    .optional "identity" Identity.codec (·.identity) fun v r => { r with identity := v },
    .optional "queue_settings" QueueSettings.record.codec (·.queueSettings) fun v r =>
      { r with queueSettings := v },
    .defaulted "log_verbosity" .choice (·.logVerbosity) fun v r => { r with logVerbosity := v },
    .optional "primary_metric" .text (·.metric) fun v r => { r with metric := v },
    .optional "target_column_name" .text (·.targetColumn) fun v r => { r with targetColumn := v },
    .optional "training_data" (Input.codec layout) (·.trainingData) fun v r =>
      { r with trainingData := v },
    .optional "validation_data" (Input.codec layout) (·.validationData) fun v r =>
      { r with validationData := v },
    .optional "validation_data_size" .float (·.validationSize) fun v r =>
      { r with validationSize := v },
    .optional "test_data" (Input.codec layout) (·.testData) fun v r => { r with testData := v },
    .optional "test_data_size" .float (·.testSize) fun v r => { r with testSize := v },
    .optional "weight_column_name" .text (·.weightColumn) fun v r => { r with weightColumn := v },
    .optional "n_cross_validations" AutoOr.codec (·.crossValidations) fun v r =>
      { r with crossValidations := v },
    .optional "cv_split_column_names" (.listOf .text) (·.cvSplitColumns) fun v r =>
      { r with cvSplitColumns := v },
    .optional "featurization" FeaturizationSettings.record.codec (·.featurization) fun v r =>
      { r with featurization := v },
    .optional "limits" LimitSettings.record.codec (·.limits) fun v r => { r with limits := v },
    .optional "training" TrainingSettings.record.codec (·.training) fun v r =>
      { r with training := v },
    .optional "forecasting" ForecastingSettings.record.codec (·.forecasting) fun v r =>
      { r with forecasting := v }]

end ForecastJob.Schema
