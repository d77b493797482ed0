import ForecastJob.Wire.Encode

/-!
# From payloads to jobs

* `ConversionError` : why a payload describes no forecasting job;
* `Job.ofPayload` : the job that a payload describes; outputs that the service has not resolved
  yet are skipped, and only the first fault is reported: kind of job and task, then metadata, the
  settings of the task, the metric and the data.
-/

namespace ForecastJob

/-- Why a payload describes no forecasting job. -/
inductive ConversionError where
  | unexpectedJobType (found : String)
  | unexpectedTaskType (found : String)
  | unexpectedInputType (found : String)
  | invalidChoice (e : Choice.Unknown)
  | invalidMetric (e : Metric.Invalid)
  | invalidDuration (e : Duration.Invalid)
  /-- A number is negative or longer than 32 bits. -/
  | notUnsigned (field : String) (value : Int64)
  /-- A number is longer than 32 bits. -/
  | notSigned (field : String) (value : Int64)
  | notUuid (field text : String)
  deriving Repr, DecidableEq

/-- The message for a payload that describes no forecasting job. What is wrong with a text that is no
identifier is said in the words of `uuidFault`. -/
def ConversionError.message (uuidFault : String → String) : ConversionError → String
  | unexpectedJobType found => s!"unexpected job type '{found}': expected '{Wire.jobType}'"
  | unexpectedTaskType found => s!"unexpected task type '{found}': expected '{Wire.taskType}'"
  | unexpectedInputType found => s!"unexpected input type '{found}': expected '{Wire.inputType}'"
  | invalidChoice e => e.message
  | invalidMetric e => e.message
  | invalidDuration e => e.message
  | notUnsigned field value =>
    s!"invalid value for {field}: {value.toInt} is not a non-negative 32-bit integer"
  | notSigned field value =>
    s!"invalid value for {field}: {value.toInt} does not fit a 32-bit integer"
  | notUuid field text => s!"invalid value for {field}: {uuidFault text}"

abbrev Conversion (α : Type) : Type := Except ConversionError α

namespace Wire

/-! ## Values -/

def choiceOf {α : Type} [Choice α] (s : String) : Conversion α :=
  (Choice.parse s).mapError .invalidChoice

def unsignedOf (field : String) (v : Int64) : Conversion UInt32 :=
  if 0 ≤ v.toInt && v.toInt < UInt32.size then .ok (UInt32.ofNat v.toInt.toNat)
  else .error (.notUnsigned field v)

def signedOf (field : String) (v : Int64) : Conversion Int32 :=
  if Int32.minValue.toInt ≤ v.toInt && v.toInt ≤ Int32.maxValue.toInt then .ok (Int32.ofInt v.toInt)
  else .error (.notSigned field v)

def secondsOf (s : String) : Conversion UInt64 :=
  (Duration.parseSeconds s).mapError .invalidDuration

def minutesOf (s : String) : Conversion UInt32 :=
  (Duration.parseMinutes s).mapError .invalidDuration

def uuidOf (field : String) (s : String) : Conversion Uuid :=
  match Uuid.parse? s with
  | some u => .ok u
  | none => .error (.notUuid field s)

def ModeValue.toAutoOr (field : String) : ModeValue → Conversion AutoOr
  | auto => .ok .auto
  | custom v => (unsignedOf field v).map .value

def Lags.toTargetLags : Lags → TargetLags
  | auto => .auto
  | custom lags => .values lags

/-! ## Records -/

def Input.toDataInput (input : Input) : Conversion DataInput := do
  if Text.sameIgnoringCase input.type inputType then
    let mode ← input.mode.mapM choiceOf
    return { path := input.uri, mode }
  else throw (.unexpectedInputType input.type)

/-- The data input, unless its path is blank; then nothing else about it matters. -/
def Input.toDataInputUnlessBlank (input : Input) : Conversion (Option DataInput) :=
  if Text.isBlankText input.uri then .ok none else some <$> input.toDataInput

def Forecasting.toSettings (s : Forecasting) : Conversion ForecastingSettings := do
  let horizon ← s.horizon.mapM (ModeValue.toAutoOr "forecastHorizon")
  let featureLags ← s.featureLags.mapM choiceOf
  let rollingWindow ← s.rollingWindow.mapM (ModeValue.toAutoOr "targetRollingWindowSize")
  let useStl ← s.useStl.mapM choiceOf
  let seasonality ← s.seasonality.mapM (ModeValue.toAutoOr "seasonality")
  let shortSeries ← s.shortSeries.mapM choiceOf
  let targetAggregate ← s.targetAggregate.mapM choiceOf
  let cvStep ← s.cvStep.mapM (unsignedOf "cvStepSize")
  return {
    timeColumn := s.timeColumn
    horizon
    seriesColumns := s.seriesColumns
    targetLags := s.targetLags.map Lags.toTargetLags
    featureLags
    rollingWindow
    holidayRegion := s.holidayRegion
    useStl
    seasonality
    shortSeries
    frequency := s.frequency
    targetAggregate
    cvStep
    unknownFeatures := s.unknownFeatures }

def StackEnsemble.toSettings (s : StackEnsemble) : Conversion StackEnsembleSettings := do
  let metaLearner ← s.metaLearner.mapM choiceOf
  return { metaLearner, trainPercentage := s.trainPercentage, arguments := s.arguments }

def Training.toSettings (s : Training) : Conversion TrainingSettings := do
  let stackEnsembleSettings ← s.stackEnsembleSettings.mapM StackEnsemble.toSettings
  let modelDownloadTimeout ← s.modelDownloadTimeout.mapM secondsOf
  let mode ← s.mode.mapM choiceOf
  return {
    onnxCompatibleModels := s.onnxCompatibleModels
    dnnTraining := s.dnnTraining
    modelExplainability := s.modelExplainability
    stackEnsemble := s.stackEnsemble
    voteEnsemble := s.voteEnsemble
    stackEnsembleSettings
    modelDownloadTimeout
    allowedAlgorithms := s.allowedAlgorithms
    blockedAlgorithms := s.blockedAlgorithms
    mode }

def Limits.toSettings (s : Limits) : Conversion LimitSettings := do
  let maxConcurrentTrials ← s.maxConcurrentTrials.mapM (unsignedOf "maxConcurrentTrials")
  let maxCoresPerTrial ← s.maxCoresPerTrial.mapM (signedOf "maxCoresPerTrial")
  let maxNodes ← s.maxNodes.mapM (unsignedOf "maxNodes")
  let maxTrials ← s.maxTrials.mapM (unsignedOf "maxTrials")
  let timeout ← s.timeout.mapM minutesOf
  let trialTimeout ← s.trialTimeout.mapM minutesOf
  return {
    earlyTermination := s.earlyTermination
    exitScore := s.exitScore
    maxConcurrentTrials
    maxCoresPerTrial
    maxNodes
    maxTrials
    timeout
    trialTimeout }

def Transformer.toColumnTransformer (t : Transformer) : ColumnTransformer where
  fields := t.fields
  parameters := t.parameters

def Featurization.toSettings (s : Featurization) : Conversion FeaturizationSettings := do
  let mode ← s.mode.mapM choiceOf
  return {
    mode
    blockedTransformers := s.blockedTransformers
    columnTypes := s.columnTypes
    datasetLanguage := s.datasetLanguage
    transformerParameters :=
      s.transformerParameters.map (·.map (·.map Transformer.toColumnTransformer))
    dnnFeaturization := s.dnnFeaturization }

def Output.toJobOutput (o : Output) : Conversion JobOutput := do
  let type ← choiceOf o.type
  let mode ← o.mode.mapM choiceOf
  return { type, path := o.uri, mode, description := o.description }

/-- The resolved outputs, in key order. -/
def toJobOutputs : List (String × Option Output) → Dict JobOutput → Conversion (Dict JobOutput)
  | [], d => .ok d
  | (_, none) :: es, d => toJobOutputs es d
  | (k, some o) :: es, d => do
    let o ← o.toJobOutput
    toJobOutputs es (d.insert k o)

def Resources.toJobResources (r : Resources) : JobResources where
  instanceCount := r.instanceCount
  instanceType := r.instanceType
  sharedMemory := r.sharedMemory
  containerArguments := r.containerArguments

def Queue.toSettings (q : Queue) : Conversion QueueSettings := do
  let tier ← q.tier.mapM choiceOf
  return { tier, priority := q.priority }

def ManagedIdentity.toAttributes (m : ManagedIdentity) :
    Conversion ForecastJob.ManagedIdentity := do
  let clientId ← m.clientId.mapM (uuidOf "clientId")
  let objectId ← m.objectId.mapM (uuidOf "objectId")
  return { clientId, objectId, resourceId := m.resourceId }

def Identity.toJobIdentity : Identity → Conversion ForecastJob.Identity
  | amlToken => .ok .amlToken
  | managed m => .managed <$> m.toAttributes
  | userIdentity => .ok .userIdentity

def SystemData.toCreationContext (s : SystemData) : CreationContext where
  createdAt := s.createdAt
  createdBy := s.createdBy
  createdByType := s.createdByType
  lastModifiedAt := s.lastModifiedAt
  lastModifiedBy := s.lastModifiedBy
  lastModifiedByType := s.lastModifiedByType

/-! ## Jobs -/

def Payload.toMetadata (p : Payload) : Conversion Metadata := do
  let outputs ← toJobOutputs p.properties.outputs.entries .empty
  let identity ← p.properties.identity.mapM Identity.toJobIdentity
  let queueSettings ← p.properties.queue.mapM Queue.toSettings
  return {
    name := p.name
    displayName := p.properties.displayName
    description := p.properties.description
    experimentName := p.properties.experimentName
    tags := p.properties.tags
    properties := p.properties.properties
    compute := p.properties.computeId
    environmentId := p.properties.environmentId
    environmentVariables := p.properties.environmentVariables
    services := p.properties.services
    outputs
    resources := p.properties.resources.map Resources.toJobResources
    identity
    queueSettings
    id := p.id
    status := p.properties.status
    creationContext := p.systemData.map SystemData.toCreationContext }

def Task.toData (t : Task) : Conversion DataSettings := do
  let trainingData ← t.trainingData.mapM Input.toDataInput
  let validationData ← t.validationData.mapM Input.toDataInputUnlessBlank
  let crossValidations ← t.crossValidations.mapM (ModeValue.toAutoOr "nCrossValidations")
  let testData ← t.testData.mapM Input.toDataInput
  return {
    targetColumn := t.targetColumn
    trainingData
    validationData := validationData.join
    validationSize := t.validationSize
    weightColumn := t.weightColumn
    cvSplitColumns := t.cvSplitColumns
    crossValidations
    testData
    testSize := t.testSize }

/-- The job without its data. -/
def Task.toJob (t : Task) (metadata : Metadata) : Conversion Job := do
  let forecasting ← t.forecasting.mapM Forecasting.toSettings
  let featurization ← t.featurization.mapM Featurization.toSettings
  let limits ← t.limits.mapM Limits.toSettings
  let training ← t.training.mapM Training.toSettings
  let logVerbosity ← t.logVerbosity.mapM choiceOf
  (Job.new {
    metric := t.metric
    forecasting
    metadata
    featurization
    limits
    training
    logVerbosity }).mapError .invalidMetric

end Wire

/-- The job that a payload describes. -/
def Job.ofPayload (p : Wire.Payload) : Conversion Job := do
  if p.properties.type != Wire.jobType then throw (.unexpectedJobType p.properties.type)
  if p.properties.task.type != Wire.taskType then
    throw (.unexpectedTaskType p.properties.task.type)
  let metadata ← p.toMetadata
  let job ← p.properties.task.toJob metadata
  let data ← p.properties.task.toData
  return job.setData data

end ForecastJob
