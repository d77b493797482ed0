import ForecastJob.Document
import ForecastJob.Location
import ForecastJob.Schema.Error
import ForecastJob.Schema.Layout

/-!
# From documents to jobs

* `Schema.JobDocument.toJob` : the job that the fields of a document describe; only the first fault
  is reported: kind of job and task, fields of the other layout, the metric, the data;
* `Schema.load` : the job that a document describes.

Relative paths of data inputs are seen from a base directory.
-/

namespace ForecastJob.Schema

/-- What loading or dumping gives, before the caller adds a note. -/
abbrev Outcome (α : Type) : Type := Except Cause α

/-- A text that must be some word, in any case. -/
def require (field value expected : String) : Outcome Unit :=
  if Text.sameIgnoringCase value expected then .ok ()
  else .error (.unexpectedValue field value s!"'{expected}'")

def present {α : Type} (name : String) : Option α → Outcome α
  | some x => .ok x
  | none => .error (.missingField name)

def InputTable.toDataInput (base : String) (t : InputTable) : Outcome DataInput := do
  require "type" t.type inputType
  return { path := Location.resolve base t.path, mode := t.mode }

def Input.toDataInput (base : String) : Input → Outcome DataInput
  | .table t => t.toDataInput base
  | .text s =>
    if Binding.isBound s then .ok { path := s }
    else .error (.unexpectedValue "input" s "a $\x7b\x7b...\x7d\x7d binding or an input table")

namespace JobDocument

/-- A node has no field that only a document of its own has. -/
def checkFields (layout : Layout) (d : JobDocument) : Outcome Unit := do
  if layout = .node then
    if d.schema.isSome then throw (.unsupportedField "$schema")
    if d.experimentName.isSome then throw (.unsupportedField "experiment_name")

/-- The metric is known, or left to the pipeline that the job is a node of. -/
def checkMetric (layout : Layout) (d : JobDocument) : Outcome Unit := do
  match ← (Metric.parse d.metric).mapError .invalidMetric with
  | .concrete _ => pure ()
  | .deferred expression =>
    if layout = .standalone then throw (.deferredMetric expression)

/-- The data; the target column and the training data must be there. -/
def toData (base : String) (d : JobDocument) : Outcome DataSettings := do
  let targetColumn ← present "target_column_name" d.targetColumn
  let trainingData ← (← present "training_data" d.trainingData).toDataInput base
  let validationData ← d.validationData.mapM (Input.toDataInput base)
  let testData ← d.testData.mapM (Input.toDataInput base)
  return {
    targetColumn := some targetColumn
    trainingData := some trainingData
    validationData
    validationSize := d.validationSize
    weightColumn := d.weightColumn
    cvSplitColumns := d.cvSplitColumns
    crossValidations := d.crossValidations
    testData
    testSize := d.testSize }

def toMetadata (d : JobDocument) : Metadata where
  name := d.name
  displayName := d.displayName
  description := d.description
  experimentName := d.experimentName
  tags := d.tags
  properties := d.properties
  compute := d.compute
  environmentId := d.environmentId
  environmentVariables := d.environmentVariables
  services := d.services
  outputs := d.outputs
  resources := d.resources
  identity := d.identity
  queueSettings := d.queueSettings

def toArgs (d : JobDocument) : Job.Args where
  metric := d.metric
  forecasting := d.forecasting
  metadata := d.toMetadata
  featurization := d.featurization
  limits := d.limits
  training := d.training
  logVerbosity := some d.logVerbosity

/-- The job that the fields of a document describe. -/
def toJob (layout : Layout) (base : String) (d : JobDocument) : Outcome Job := do
  require "type" d.type jobType
  require "task" d.task Schema.task
  d.checkFields layout
  d.checkMetric layout
  let data ← d.toData base
  let job ← (Job.new d.toArgs).mapError .invalidMetric
  return job.setData data

end JobDocument

/-- Adds a note to the cause of a failure. -/
def noted {α : Type} (note : String) (r : Outcome α) : Except Error α :=
  r.mapError fun cause => { cause, note }

/-- The job that a document describes, before the caller adds a note. -/
def loadTree (layout : Layout) (base : String) (d : Document) : Outcome Job := do
  let fields ← ((JobDocument.record layout).read d.toTree).mapError .parse
  fields.toJob layout base

def load (layout : Layout) (base note : String) (d : Document) : Except Error Job :=
  noted note (loadTree layout base d)

end ForecastJob.Schema
