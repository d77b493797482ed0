import ForecastJob.Record

/-!
# Service payloads

The JSON that the service exchanges, record for record: choices and durations are texts, all
numbers are 64 bits wide, and fields that no record knows are skipped, so that payloads of later
versions of the service stay readable.

* `Payload` : a job as the service sees it;
* `Payload.record`, `Payload.codec` : its JSON form; the records within it have forms of their own.
-/

namespace ForecastJob.Wire

/-! ## Records -/

/-- What the service records about a job. -/
structure SystemData where
  createdAt : Option String := none
  createdBy : Option String := none
  createdByType : Option String := none
  lastModifiedAt : Option String := none
  lastModifiedBy : Option String := none
  lastModifiedByType : Option String := none
  deriving Repr, DecidableEq

structure Output where
  type : String := ""
  uri : Option String := none
  mode : Option String := none
  description : Option String := none
  deriving Repr, DecidableEq

structure Resources where
  instanceCount : Option UInt32 := none
  instanceType : Option String := none
  sharedMemory : Option String := none
  containerArguments : Option String := none
  deriving Repr, DecidableEq

structure Queue where
  tier : Option String := none
  priority : Option Int32 := none
  deriving Repr, DecidableEq

structure ManagedIdentity where
  clientId : Option String := none
  objectId : Option String := none
  resourceId : Option String := none
  deriving Repr, DecidableEq

inductive Identity where
  | amlToken
  | managed (attributes : ManagedIdentity)
  | userIdentity
  deriving Repr, DecidableEq

structure Input where
  type : String := ""
  uri : String := ""
  mode : Option String := none
  description : Option String := none
  deriving Repr, DecidableEq

/-- The service chooses, or a number is fixed. -/
inductive ModeValue where
  | auto
  | custom (value : Int64)
  deriving Repr, DecidableEq

/-- The service chooses, or the lags are fixed. -/
inductive Lags where
  | auto
  | custom (values : List Int32)
  deriving Repr, DecidableEq

structure Forecasting where
  holidayRegion : Option String := none
  cvStep : Option Int64 := none
  featureLags : Option String := none
  unknownFeatures : Option (List String) := none
  horizon : Option ModeValue := none
  frequency : Option String := none
  seasonality : Option ModeValue := none
  shortSeries : Option String := none
  targetAggregate : Option String := none
  targetLags : Option Lags := none
  rollingWindow : Option ModeValue := none
  timeColumn : Option String := none
  seriesColumns : Option (List String) := none
  useStl : Option String := none
  deriving Repr, DecidableEq

structure StackEnsemble where
  metaLearner : Option String := none
  trainPercentage : Option Float := none
  arguments : Option FreeForm := none
  deriving BEq

structure Training where
  onnxCompatibleModels : Option Bool := none
  dnnTraining : Option Bool := none
  modelExplainability : Option Bool := none
  stackEnsemble : Option Bool := none
  voteEnsemble : Option Bool := none
  stackEnsembleSettings : Option StackEnsemble := none
  /-- A duration. -/
  modelDownloadTimeout : Option String := none
  allowedAlgorithms : Option (List String) := none
  blockedAlgorithms : Option (List String) := none
  mode : Option String := none
  deriving BEq

structure Limits where
  earlyTermination : Option Bool := none
  exitScore : Option Float := none
  maxConcurrentTrials : Option Int64 := none
  maxCoresPerTrial : Option Int64 := none
  maxNodes : Option Int64 := none
  maxTrials : Option Int64 := none
  /-- A duration. -/
  timeout : Option String := none
  /-- A duration. -/
  trialTimeout : Option String := none
  deriving BEq

structure Transformer where
  fields : Option (List String) := none
  parameters : Option FreeForm := none
  deriving BEq

structure Featurization where
  mode : Option String := none
  blockedTransformers : Option (List String) := none
  columnTypes : Option (Dict String) := none
  datasetLanguage : Option String := none
  transformerParameters : Option (Dict (List Transformer)) := none
  dnnFeaturization : Option Bool := none
  deriving BEq

/-- The details of a task. -/
structure Task where
  type : String := ""
  targetColumn : Option String := none
  trainingData : Option Input := none
  validationData : Option Input := none
  validationSize : Option Float := none
  testData : Option Input := none
  testSize : Option Float := none
  weightColumn : Option String := none
  cvSplitColumns : Option (List String) := none
  crossValidations : Option ModeValue := none
  featurization : Option Featurization := none
  limits : Option Limits := none
  training : Option Training := none
  metric : Option String := none
  logVerbosity : Option String := none
  forecasting : Option Forecasting := none
  deriving BEq

structure Properties where
  type : String := ""
  displayName : Option String := none
  description : Option String := none
  experimentName : Option String := none
  tags : Dict String := .empty
  properties : Dict String := .empty
  computeId : Option String := none
  environmentId : Option String := none
  environmentVariables : Dict String := .empty
  services : Dict FreeForm := .empty
  /-- An output that the service has not resolved yet is none. -/
  outputs : Dict (Option Output) := .empty
  resources : Option Resources := none
  task : Task := {}
  identity : Option Identity := none
  queue : Option Queue := none
  status : Option String := none
  deriving BEq

/-- A job as the service sees it. -/
structure Payload where
  id : Option String := none
  name : Option String := none
  type : Option String := none
  properties : Properties := {}
  systemData : Option SystemData := none
  deriving BEq

/-! ## JSON forms -/

def SystemData.record : Record SystemData where
  blank := {}
  closed := false
  fields := [
    .optional "createdAt" .text (·.createdAt) fun v r => { r with createdAt := v },
    .optional "createdBy" .text (·.createdBy) fun v r => { r with createdBy := v },
    .optional "createdByType" .text (·.createdByType) fun v r => { r with createdByType := v },
    .optional "lastModifiedAt" .text (·.lastModifiedAt) fun v r => { r with lastModifiedAt := v },
    .optional "lastModifiedBy" .text (·.lastModifiedBy) fun v r => { r with lastModifiedBy := v },
    .optional "lastModifiedByType" .text (·.lastModifiedByType) fun v r =>
      { r with lastModifiedByType := v }]

def Output.record : Record Output where
  blank := {}
  closed := false
  fields := [
    .mandatory "jobOutputType" .text (·.type) fun v r => { r with type := v },
    .optional "uri" .text (·.uri) fun v r => { r with uri := v },
    .optional "mode" .text (·.mode) fun v r => { r with mode := v },
    .optional "description" .text (·.description) fun v r => { r with description := v }]

def Resources.record : Record Resources where
  blank := {}
  closed := false
  fields := [
    .optional "instanceCount" .uint32 (·.instanceCount) fun v r => { r with instanceCount := v },
    .optional "instanceType" .text (·.instanceType) fun v r => { r with instanceType := v },
    .optional "shmSize" .text (·.sharedMemory) fun v r => { r with sharedMemory := v },
    .optional "dockerArgs" .text (·.containerArguments) fun v r =>
      { r with containerArguments := v }]

def Queue.record : Record Queue where
  blank := {}
  closed := false
  fields := [
    .optional "jobTier" .text (·.tier) fun v r => { r with tier := v },
    .optional "priority" .int32 (·.priority) fun v r => { r with priority := v }]

def ManagedIdentity.record : Record ManagedIdentity where
  blank := {}
  closed := false
  fields := [
    .optional "clientId" .text (·.clientId) fun v r => { r with clientId := v },
    .optional "objectId" .text (·.objectId) fun v r => { r with objectId := v },
    .optional "resourceId" .text (·.resourceId) fun v r => { r with resourceId := v }]

def Identity.union : Union Identity where
  tag := "identityType"
  variants := [
    ("AMLToken", Union.unit .amlToken),
    ("Managed", Union.fields ManagedIdentity.record .managed),
    ("UserIdentity", Union.unit .userIdentity)]

def Identity.write : Identity → Json
  | amlToken => Union.write "identityType" "AMLToken" []
  | managed m => Union.write "identityType" "Managed" (ManagedIdentity.record.members m)
  | userIdentity => Union.write "identityType" "UserIdentity" []

def Identity.codec : Codec Identity := ⟨Identity.union.read, Identity.write⟩

def Input.record : Record Input where
  blank := {}
  closed := false
  fields := [
    .mandatory "jobInputType" .text (·.type) fun v r => { r with type := v },
    .mandatory "uri" .text (·.uri) fun v r => { r with uri := v },
    .optional "mode" .text (·.mode) fun v r => { r with mode := v },
    .optional "description" .text (·.description) fun v r => { r with description := v }]

def ModeValue.customRecord : Record Int64 where
  blank := 0
  closed := false
  fields := [.mandatory "value" .int64 id fun v _ => v]

def ModeValue.union : Union ModeValue where
  tag := "mode"
  variants := [
    ("Auto", Union.unit .auto),
    ("Custom", Union.fields ModeValue.customRecord .custom)]

def ModeValue.write : ModeValue → Json
  | auto => Union.write "mode" "Auto" []
  | custom v => Union.write "mode" "Custom" (ModeValue.customRecord.members v)

def ModeValue.codec : Codec ModeValue := ⟨ModeValue.union.read, ModeValue.write⟩

def Lags.customRecord : Record (List Int32) where
  blank := []
  closed := false
  fields := [.mandatory "values" (.listOf .int32) id fun v _ => v]

def Lags.union : Union Lags where
  tag := "mode"
  variants := [
    ("Auto", Union.unit .auto),
    ("Custom", Union.fields Lags.customRecord .custom)]

def Lags.write : Lags → Json
  | auto => Union.write "mode" "Auto" []
  | custom vs => Union.write "mode" "Custom" (Lags.customRecord.members vs)

def Lags.codec : Codec Lags := ⟨Lags.union.read, Lags.write⟩

def Forecasting.record : Record Forecasting where
  blank := {}
  closed := false
  fields := [
    .optional "countryOrRegionForHolidays" .text (·.holidayRegion) fun v r =>
      { r with holidayRegion := v },
    .optional "cvStepSize" .int64 (·.cvStep) fun v r => { r with cvStep := v },
    .optional "featureLags" .text (·.featureLags) fun v r => { r with featureLags := v },
    .optional "featuresUnknownAtForecastTime" (.listOf .text) (·.unknownFeatures) fun v r =>
      { r with unknownFeatures := v },
    .optional "forecastHorizon" ModeValue.codec (·.horizon) fun v r => { r with horizon := v },
    .optional "frequency" .text (·.frequency) fun v r => { r with frequency := v },
    .optional "seasonality" ModeValue.codec (·.seasonality) fun v r => { r with seasonality := v },
    .optional "shortSeriesHandlingConfig" .text (·.shortSeries) fun v r =>
      { r with shortSeries := v },
    .optional "targetAggregateFunction" .text (·.targetAggregate) fun v r =>
      { r with targetAggregate := v },
    .optional "targetLags" Lags.codec (·.targetLags) fun v r => { r with targetLags := v },
    .optional "targetRollingWindowSize" ModeValue.codec (·.rollingWindow) fun v r =>
      { r with rollingWindow := v },
    .optional "timeColumnName" .text (·.timeColumn) fun v r => { r with timeColumn := v },
    .optional "timeSeriesIdColumnNames" (.listOf .text) (·.seriesColumns) fun v r =>
      { r with seriesColumns := v },
    .optional "useStl" .text (·.useStl) fun v r => { r with useStl := v }]

def StackEnsemble.record : Record StackEnsemble where
  blank := {}
  closed := false
  fields := [
    .optional "stackMetaLearnerType" .text (·.metaLearner) fun v r => { r with metaLearner := v },
    .optional "stackMetaLearnerTrainPercentage" .float (·.trainPercentage) fun v r =>
      { r with trainPercentage := v },
    .optional "stackMetaLearnerKWargs" .freeForm (·.arguments) fun v r =>
      { r with arguments := v }]

def Training.record : Record Training where
  blank := {}
  closed := false
  fields := [
    .optional "enableOnnxCompatibleModels" .bool (·.onnxCompatibleModels) fun v r =>
      { r with onnxCompatibleModels := v },
    .optional "enableDnnTraining" .bool (·.dnnTraining) fun v r => { r with dnnTraining := v },
    .optional "enableModelExplainability" .bool (·.modelExplainability) fun v r =>
      { r with modelExplainability := v },
    .optional "enableStackEnsemble" .bool (·.stackEnsemble) fun v r =>
      { r with stackEnsemble := v },
    .optional "enableVoteEnsemble" .bool (·.voteEnsemble) fun v r => { r with voteEnsemble := v },
    .optional "stackEnsembleSettings" StackEnsemble.record.codec (·.stackEnsembleSettings)
      fun v r => { r with stackEnsembleSettings := v },
    .optional "ensembleModelDownloadTimeout" .text (·.modelDownloadTimeout) fun v r =>
      { r with modelDownloadTimeout := v },
    .optional "allowedTrainingAlgorithms" (.listOf .text) (·.allowedAlgorithms) fun v r =>
      { r with allowedAlgorithms := v },
    .optional "blockedTrainingAlgorithms" (.listOf .text) (·.blockedAlgorithms) fun v r =>
      { r with blockedAlgorithms := v },
    .optional "trainingMode" .text (·.mode) fun v r => { r with mode := v }]

def Limits.record : Record Limits where
  blank := {}
  closed := false
  fields := [
    .optional "enableEarlyTermination" .bool (·.earlyTermination) fun v r =>
      { r with earlyTermination := v },
    .optional "exitScore" .float (·.exitScore) fun v r => { r with exitScore := v },
    .optional "maxConcurrentTrials" .int64 (·.maxConcurrentTrials) fun v r =>
      { r with maxConcurrentTrials := v },
    .optional "maxCoresPerTrial" .int64 (·.maxCoresPerTrial) fun v r =>
      { r with maxCoresPerTrial := v },
    .optional "maxNodes" .int64 (·.maxNodes) fun v r => { r with maxNodes := v },
    .optional "maxTrials" .int64 (·.maxTrials) fun v r => { r with maxTrials := v },
    .optional "timeout" .text (·.timeout) fun v r => { r with timeout := v },
    .optional "trialTimeout" .text (·.trialTimeout) fun v r => { r with trialTimeout := v }]

def Transformer.record : Record Transformer where
  blank := {}
  closed := false
  fields := [
    .optional "fields" (.listOf .text) (·.fields) fun v r => { r with fields := v },
    .optional "parameters" .freeForm (·.parameters) fun v r => { r with parameters := v }]

def Featurization.record : Record Featurization where
  blank := {}
  closed := false
  fields := [
    .optional "mode" .text (·.mode) fun v r => { r with mode := v },
    .optional "blockedTransformers" (.listOf .text) (·.blockedTransformers) fun v r =>
      { r with blockedTransformers := v },
    .optional "columnNameAndTypes" (.dictOf .text) (·.columnTypes) fun v r =>
      { r with columnTypes := v },
    .optional "datasetLanguage" .text (·.datasetLanguage) fun v r =>
      { r with datasetLanguage := v },
    .optional "transformerParams" (.dictOf (.listOf Transformer.record.codec))
      (·.transformerParameters) fun v r => { r with transformerParameters := v },
    .optional "enableDnnFeaturization" .bool (·.dnnFeaturization) fun v r =>
      { r with dnnFeaturization := v }]

def Task.record : Record Task where
  blank := {}
  closed := false
  fields := [
    .mandatory "taskType" .text (·.type) fun v r => { r with type := v },
    .optional "targetColumnName" .text (·.targetColumn) fun v r => { r with targetColumn := v },
    .optional "trainingData" Input.record.codec (·.trainingData) fun v r =>
      { r with trainingData := v },
    .optional "validationData" Input.record.codec (·.validationData) fun v r =>
      { r with validationData := v },
    .optional "validationDataSize" .float (·.validationSize) fun v r =>
      { r with validationSize := v },
    .optional "testData" Input.record.codec (·.testData) fun v r => { r with testData := v },
    .optional "testDataSize" .float (·.testSize) fun v r => { r with testSize := v },
    .optional "weightColumnName" .text (·.weightColumn) fun v r => { r with weightColumn := v },
    .optional "cvSplitColumnNames" (.listOf .text) (·.cvSplitColumns) fun v r =>
      { r with cvSplitColumns := v },
    .optional "nCrossValidations" ModeValue.codec (·.crossValidations) fun v r =>
      { r with crossValidations := v },
    .optional "featurizationSettings" Featurization.record.codec (·.featurization) fun v r =>
      { r with featurization := v },
    .optional "limitSettings" Limits.record.codec (·.limits) fun v r => { r with limits := v },
    .optional "trainingSettings" Training.record.codec (·.training) fun v r =>
      { r with training := v },
    .optional "primaryMetric" .text (·.metric) fun v r => { r with metric := v },
    .optional "logVerbosity" .text (·.logVerbosity) fun v r => { r with logVerbosity := v },
    .optional "forecastingSettings" Forecasting.record.codec (·.forecasting) fun v r =>
      { r with forecasting := v }]

def Properties.record : Record Properties where
  blank := {}
  closed := false
  fields := [
    .mandatory "jobType" .text (·.type) fun v r => { r with type := v },
    .optional "displayName" .text (·.displayName) fun v r => { r with displayName := v },
    .optional "description" .text (·.description) fun v r => { r with description := v },
    .optional "experimentName" .text (·.experimentName) fun v r => { r with experimentName := v },
    .dict "tags" .text (·.tags) fun v r => { r with tags := v },
    .dict "properties" .text (·.properties) fun v r => { r with properties := v },
    .optional "computeId" .text (·.computeId) fun v r => { r with computeId := v },
    .optional "environmentId" .text (·.environmentId) fun v r => { r with environmentId := v },
    .dict "environmentVariables" .text (·.environmentVariables) fun v r =>
      { r with environmentVariables := v },
    .dict "services" .freeForm (·.services) fun v r => { r with services := v },
    .dict "outputs" Output.record.codec.nullable (·.outputs) fun v r => { r with outputs := v },
    .optional "resources" Resources.record.codec (·.resources) fun v r => { r with resources := v },
    .mandatory "taskDetails" Task.record.codec (·.task) fun v r => { r with task := v },
    .optional "identity" Identity.codec (·.identity) fun v r => { r with identity := v },
    .optional "queueSettings" Queue.record.codec (·.queue) fun v r => { r with queue := v },
    .optional "status" .text (·.status) fun v r => { r with status := v }]

def Payload.record : Record Payload where
  blank := {}
  closed := false
  fields := [
    .optional "id" .text (·.id) fun v r => { r with id := v },
    .optional "name" .text (·.name) fun v r => { r with name := v },
    .optional "type" .text (·.type) fun v r => { r with type := v },
    .mandatory "properties" Properties.record.codec (·.properties) fun v r =>
      { r with properties := v },
    .optional "systemData" SystemData.record.codec (·.systemData) fun v r =>
      { r with systemData := v }]

end ForecastJob.Wire
