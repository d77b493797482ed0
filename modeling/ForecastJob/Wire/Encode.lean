import ForecastJob.Job
import ForecastJob.Wire.Duration
import ForecastJob.Wire.Payload

/-!
# From jobs to payloads

* `Job.toPayload` : the payload of a job; every job has one;
* `DataInput.toWire`, `DataInput.toWireUnlessBlank?` : data inputs; validation data without a path
  is left out, as the service would reject it.

What only the service may set, that is its status and system data, is never sent.
-/

namespace ForecastJob

def Wire.jobType : String := "AutoML"

def Wire.taskType : String := "Forecasting"

def Wire.inputType : String := "mltable"

def Wire.widen (n : UInt32) : Int64 :=
  Int64.ofNat n.toNat

def AutoOr.toWire : AutoOr → Wire.ModeValue
  | auto => .auto
  | value n => .custom (Wire.widen n)

def TargetLags.toWire : TargetLags → Wire.Lags
  | auto => .auto
  | values lags => .custom lags

def DataInput.toWire (input : DataInput) : Wire.Input where
  type := Wire.inputType
  uri := input.path
  mode := input.mode.map Choice.wire

/-- The validation data as the service writes it, unless its path is blank. -/
def DataInput.toWireUnlessBlank? (input : DataInput) : Option Wire.Input :=
  if Text.isBlankText input.path then none else some input.toWire

def ForecastingSettings.toWire (s : ForecastingSettings) : Wire.Forecasting where
  holidayRegion := s.holidayRegion
  cvStep := s.cvStep.map Wire.widen
  featureLags := s.featureLags.map Choice.wire
  unknownFeatures := s.unknownFeatures
  horizon := s.horizon.map AutoOr.toWire
  frequency := s.frequency
  seasonality := s.seasonality.map AutoOr.toWire
  shortSeries := s.shortSeries.map Choice.wire
  targetAggregate := s.targetAggregate.map Choice.wire
  targetLags := s.targetLags.map TargetLags.toWire
  rollingWindow := s.rollingWindow.map AutoOr.toWire
  timeColumn := s.timeColumn
  seriesColumns := s.seriesColumns
  useStl := s.useStl.map Choice.wire

def StackEnsembleSettings.toWire (s : StackEnsembleSettings) : Wire.StackEnsemble where
  metaLearner := s.metaLearner.map Choice.wire
  trainPercentage := s.trainPercentage
  arguments := s.arguments

def TrainingSettings.toWire (s : TrainingSettings) : Wire.Training where
  onnxCompatibleModels := s.onnxCompatibleModels
  dnnTraining := s.dnnTraining
  modelExplainability := s.modelExplainability
  stackEnsemble := s.stackEnsemble
  voteEnsemble := s.voteEnsemble
  stackEnsembleSettings := s.stackEnsembleSettings.map StackEnsembleSettings.toWire
  modelDownloadTimeout := s.modelDownloadTimeout.map Duration.formatSeconds
  allowedAlgorithms := s.allowedAlgorithms
  blockedAlgorithms := s.blockedAlgorithms
  mode := s.mode.map Choice.wire

def LimitSettings.toWire (s : LimitSettings) : Wire.Limits where
  earlyTermination := s.earlyTermination
  exitScore := s.exitScore
  maxConcurrentTrials := s.maxConcurrentTrials.map Wire.widen
  maxCoresPerTrial := s.maxCoresPerTrial.map Int32.toInt64
  maxNodes := s.maxNodes.map Wire.widen
  maxTrials := s.maxTrials.map Wire.widen
  timeout := s.timeout.map Duration.formatMinutes
  trialTimeout := s.trialTimeout.map Duration.formatMinutes

def ColumnTransformer.toWire (t : ColumnTransformer) : Wire.Transformer where
  fields := t.fields
  parameters := t.parameters

def FeaturizationSettings.toWire (s : FeaturizationSettings) : Wire.Featurization where
  mode := s.mode.map Choice.wire
  blockedTransformers := s.blockedTransformers
  columnTypes := s.columnTypes
  datasetLanguage := s.datasetLanguage
  transformerParameters := s.transformerParameters.map (·.map (·.map ColumnTransformer.toWire))
  dnnFeaturization := s.dnnFeaturization

def JobOutput.toWire (o : JobOutput) : Wire.Output where
  type := Choice.wire o.type
  uri := o.path
  mode := o.mode.map Choice.wire
  description := o.description

def JobResources.toWire (r : JobResources) : Wire.Resources where
  instanceCount := r.instanceCount
  instanceType := r.instanceType
  sharedMemory := r.sharedMemory
  containerArguments := r.containerArguments

def QueueSettings.toWire (q : QueueSettings) : Wire.Queue where
  tier := q.tier.map Choice.wire
  priority := q.priority

def ManagedIdentity.toWire (m : ManagedIdentity) : Wire.ManagedIdentity where
  clientId := m.clientId.map Uuid.toText
  objectId := m.objectId.map Uuid.toText
  resourceId := m.resourceId

def Identity.toWire : Identity → Wire.Identity
  | amlToken => .amlToken
  | managed m => .managed m.toWire
  | userIdentity => .userIdentity

namespace Job

def toTask (job : Job) : Wire.Task where
  type := Wire.taskType
  targetColumn := job.data.targetColumn
  trainingData := job.data.trainingData.map DataInput.toWire
  validationData := job.data.validationData.bind DataInput.toWireUnlessBlank?
  validationSize := job.data.validationSize
  testData := job.data.testData.map DataInput.toWire
  testSize := job.data.testSize
  weightColumn := job.data.weightColumn
  cvSplitColumns := job.data.cvSplitColumns
  crossValidations := job.data.crossValidations.map AutoOr.toWire
  featurization := job.tabular.featurization.map FeaturizationSettings.toWire
  limits := job.tabular.limits.map LimitSettings.toWire
  training := job.tabular.training.map TrainingSettings.toWire
  metric := some job.metric.wire
  logVerbosity := some (Choice.wire job.tabular.logVerbosity)
  forecasting := job.forecasting.map ForecastingSettings.toWire

def toProperties (job : Job) : Wire.Properties where
  type := Wire.jobType
  displayName := job.metadata.displayName
  description := job.metadata.description
  experimentName := job.metadata.experimentName
  tags := job.metadata.tags
  properties := job.metadata.properties
  computeId := job.metadata.compute
  environmentId := job.metadata.environmentId
  environmentVariables := job.metadata.environmentVariables
  services := job.metadata.services
  outputs := job.metadata.outputs.map fun o => some o.toWire
  resources := job.metadata.resources.map JobResources.toWire
  task := job.toTask
  identity := job.metadata.identity.map Identity.toWire
  queue := job.metadata.queueSettings.map QueueSettings.toWire

/-- The payload of the job. -/
def toPayload (job : Job) : Wire.Payload where
  id := job.metadata.id
  name := job.metadata.name
  properties := job.toProperties

end Job

end ForecastJob
