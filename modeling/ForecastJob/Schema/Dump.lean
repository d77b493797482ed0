import ForecastJob.Schema.Load

/-!
# From jobs to documents

* `Schema.JobDocument.ofJob` : the fields of the document that describes a job;
* `Schema.dump` : the document that describes a job, if the layout has one.

What only the service sets is left out, and so are nulls in free-form data, which no document has.
-/

namespace ForecastJob.Schema

/-- How a data input is written: in a node, one that is only a binding is written as a text. -/
def Input.ofDataInput (layout : Layout) (input : DataInput) : Input :=
  if layout = .node && input.isBinding && input.mode.isNone then .text input.path
  else .table { path := input.path, mode := input.mode }

def JobDocument.ofJob (layout : Layout) (job : Job) : JobDocument where
  name := job.metadata.name
  displayName := job.metadata.displayName
  description := job.metadata.description
  experimentName := if layout = .node then none else job.metadata.experimentName
  tags := job.metadata.tags
  properties := job.metadata.properties
  compute := job.metadata.compute
  environmentId := job.metadata.environmentId
  environmentVariables := job.metadata.environmentVariables
  services := job.metadata.services
  outputs := job.metadata.outputs
  resources := job.metadata.resources
  identity := job.metadata.identity
  queueSettings := job.metadata.queueSettings
  logVerbosity := job.tabular.logVerbosity
  metric := some job.metric.doc
  targetColumn := job.data.targetColumn
  trainingData := job.data.trainingData.map (Input.ofDataInput layout)
  validationData := job.data.validationData.map (Input.ofDataInput layout)
  validationSize := job.data.validationSize
  testData := job.data.testData.map (Input.ofDataInput layout)
  testSize := job.data.testSize
  weightColumn := job.data.weightColumn
  crossValidations := job.data.crossValidations
  cvSplitColumns := job.data.cvSplitColumns
  featurization := job.tabular.featurization
  limits := job.tabular.limits
  training := job.tabular.training
  forecasting := job.forecasting

/-- The table that a JSON value without nulls is, if it is one that a document can hold. -/
def documentOf? (v : Json) : Option Document :=
  match v.normal.withoutNulls.toNode? with
  | some (.table entries) => some entries
  | _ => none

/-- The document that describes a job, before the caller adds a note. -/
def dumpTree (layout : Layout) (job : Job) : Outcome Document :=
  match layout, job.metric with
  | .standalone, .deferred expression => .error (.deferredMetric expression)
  | layout, _ =>
    match documentOf? ((JobDocument.record layout).write (.ofJob layout job)) with
    | some d => .ok d
    | none => .error .serialize

def dump (layout : Layout) (job : Job) : Except Error Document :=
  noted "" (dumpTree layout job)

end ForecastJob.Schema
