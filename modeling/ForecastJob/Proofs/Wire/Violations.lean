import Mathlib.Tactic.MkIffOfInductiveProp
import ForecastJob.Proofs.Outcome
import ForecastJob.Wire.Decode

/-!
# Which payloads describe a job

A payload is converted leaf by leaf, and the conversion stops at the first leaf that is wrong. What
must hold of a payload is stated twice: as the conditions on its records, and as the list of all
violations, in the order in which the conversion looks for them.

* `Wire.Spelled`, `Wire.IsUnsigned`, … : what must hold of single values;
* `Wire.Forecasting.Valid`, `Wire.Forecasting.violations`, … : of records; validation data with a
  blank path may be anything;
* `Wire.Payload.violations_eq_nil_iff` : nothing is violated if all conditions hold;
* `Job.ofPayload_reports` : the conversion fails with the first violation;
* `Job.exists_ofPayload_iff_valid` : it accepts the valid payloads and no others.
-/

namespace ForecastJob

namespace Wire

/-! ## Values -/

/-- The text spells a member of the choice. -/
def Spelled (α : Type) [Choice α] (s : String) : Prop :=
  ∃ a ∈ (Choice.all : List α), Choice.spells s a = true

instance {α : Type} [Choice α] (s : String) : Decidable (Spelled α s) :=
  inferInstanceAs (Decidable (∃ a ∈ (Choice.all : List α), Choice.spells s a = true))

/-- The number is not negative and at most 32 bits long. -/
def IsUnsigned (v : Int64) : Prop :=
  0 ≤ v.toInt ∧ v.toInt ≤ 4294967295

instance (v : Int64) : Decidable (IsUnsigned v) :=
  inferInstanceAs (Decidable (0 ≤ v.toInt ∧ v.toInt ≤ 4294967295))

/-- The number is at most 32 bits long, with its sign. -/
def IsSigned (v : Int64) : Prop :=
  -2147483648 ≤ v.toInt ∧ v.toInt ≤ 2147483647

instance (v : Int64) : Decidable (IsSigned v) :=
  inferInstanceAs (Decidable (-2147483648 ≤ v.toInt ∧ v.toInt ≤ 2147483647))

def IsSeconds (s : String) : Prop :=
  ∃ n, Duration.parseSeconds s = .ok n

def IsMinutes (s : String) : Prop :=
  ∃ n, Duration.parseMinutes s = .ok n

def IsUuid (s : String) : Prop :=
  (Uuid.parse? s).isSome = true

instance (s : String) : Decidable (IsUuid s) :=
  inferInstanceAs (Decidable ((Uuid.parse? s).isSome = true))

/-- The text is bound by the enclosing pipeline or spells a known metric. -/
def IsMetric (s : String) : Prop :=
  Binding.isParent s = true ∨ Spelled ForecastingMetric s

instance (s : String) : Decidable (IsMetric s) :=
  inferInstanceAs (Decidable (Binding.isParent s = true ∨ Spelled ForecastingMetric s))

/-- A fixed number is unsigned. -/
def ModeValue.Valid (v : ModeValue) : Prop :=
  ∀ n, v = custom n → IsUnsigned n

/-- The error for a condition, unless it holds. -/
def require (c : Prop) [Decidable c] (e : ConversionError) : List ConversionError :=
  if c then [] else [e]

def choiceViolations (α : Type) [Choice α] (s : String) : List ConversionError :=
  require (Spelled α s)
    (.invalidChoice ⟨Choice.name α, s, (Choice.all : List α).map Choice.doc⟩)

def unsignedViolations (field : String) (v : Int64) : List ConversionError :=
  require (IsUnsigned v) (.notUnsigned field v)

def signedViolations (field : String) (v : Int64) : List ConversionError :=
  require (IsSigned v) (.notSigned field v)

def durationViolations {α : Type} : Except Duration.Invalid α → List ConversionError
  | .ok _ => []
  | .error e => [.invalidDuration e]

def uuidViolations (field : String) (s : String) : List ConversionError :=
  require (IsUuid s) (.notUuid field s)

def metricViolations (s : String) : List ConversionError :=
  require (IsMetric s) (.invalidMetric
    ⟨s, ", ".intercalate ((Choice.all : List ForecastingMetric).map Choice.doc)⟩)

def ModeValue.violations (field : String) : ModeValue → List ConversionError
  | auto => []
  | custom v => unsignedViolations field v

section Values

variable {α : Type}

@[simp] theorem require_eq_nil_iff {c : Prop} [Decidable c] {e : ConversionError} :
    require c e = [] ↔ c := by
  by_cases h : c <;> simp [require, h]

/-- A check comes before what it guards. -/
theorem reports_guard {b : Bool} {c : Prop} [Decidable c] {e : ConversionError}
    {x : Unit → Conversion α} {rest : List (List ConversionError)} (hb : b = true ↔ ¬c)
    (hx : (x ()).Reports rest.flatten) :
    (if b = true then throw e >>= x else x ()).Reports (require c e :: rest).flatten := by
  rw [List.flatten_cons, require]
  by_cases h : c
  · rw [if_neg (mt hb.1 (not_not_intro h)), if_pos h]
    exact hx
  · rw [if_pos (hb.2 h), if_neg h]
    rfl

theorem reports_require {c : Prop} [Decidable c] {e : ConversionError} {x : Conversion α}
    (hok : c → ∃ a, x = .ok a) (herror : ¬c → x = .error e) : x.Reports (require c e) := by
  unfold require
  by_cases h : c
  · rw [if_pos h]
    exact hok h
  · rw [if_neg h]
    exact herror h

@[simp] theorem choiceViolations_eq_nil_iff [Choice α] {s : String} :
    choiceViolations α s = [] ↔ Spelled α s :=
  require_eq_nil_iff

theorem exists_parse_of_spelled [Choice α] {s : String} (h : Spelled α s) :
    ∃ a : α, Choice.parse s = .ok a := by
  obtain ⟨a, ha⟩ := Option.isSome_iff_exists.1 (List.find?_isSome.2 h)
  exact ⟨a, by rw [Choice.parse, ha]⟩

theorem parse_of_not_spelled [Choice α] {s : String} (h : ¬Spelled α s) :
    (Choice.parse s : Except Choice.Unknown α) =
      .error ⟨Choice.name α, s, (Choice.all : List α).map Choice.doc⟩ := by
  have hnone : (Choice.all : List α).find? (Choice.spells s) = none :=
    List.find?_eq_none.2 fun a ha hs => h ⟨a, ha, hs⟩
  rw [Choice.parse, hnone]

theorem choiceOf_reports [Choice α] (s : String) :
    (choiceOf s : Conversion α).Reports (choiceViolations α s) := by
  unfold choiceOf choiceViolations
  refine reports_require (fun h => ?_) fun h => ?_
  · obtain ⟨a, ha⟩ := exists_parse_of_spelled h
    rw [ha]
    exact ⟨a, rfl⟩
  · rw [parse_of_not_spelled h]
    rfl

@[simp] theorem unsignedViolations_eq_nil_iff {field : String} {v : Int64} :
    unsignedViolations field v = [] ↔ IsUnsigned v :=
  require_eq_nil_iff

theorem unsignedOf_reports (field : String) (v : Int64) :
    (unsignedOf field v).Reports (unsignedViolations field v) := by
  have hsize : (UInt32.size : Int) = 4294967296 := rfl
  unfold unsignedOf unsignedViolations
  refine reports_require (fun h => ?_) fun h => ?_
  · obtain ⟨hlow, hhigh⟩ := h
    rw [if_pos]
    · exact ⟨_, rfl⟩
    · simp only [Bool.and_eq_true, decide_eq_true_eq]
      omega
  · rw [if_neg]
    simp only [Bool.and_eq_true, decide_eq_true_eq]
    rintro ⟨hlow, hhigh⟩
    exact h ⟨hlow, by omega⟩

@[simp] theorem signedViolations_eq_nil_iff {field : String} {v : Int64} :
    signedViolations field v = [] ↔ IsSigned v :=
  require_eq_nil_iff

theorem signedOf_reports (field : String) (v : Int64) :
    (signedOf field v).Reports (signedViolations field v) := by
  have hmin : Int32.minValue.toInt = -2147483648 := rfl
  have hmax : Int32.maxValue.toInt = 2147483647 := rfl
  unfold signedOf signedViolations
  rw [hmin, hmax]
  refine reports_require (fun h => ?_) fun h => ?_
  · rw [if_pos (by simpa [IsSigned] using h)]
    exact ⟨_, rfl⟩
  · rw [if_neg (by simpa [IsSigned] using h)]

@[simp] theorem durationViolations_eq_nil_iff {x : Except Duration.Invalid α} :
    durationViolations x = [] ↔ ∃ n, x = .ok n := by
  cases x <;> simp [durationViolations]

theorem mapError_reports (x : Except Duration.Invalid α) :
    (x.mapError ConversionError.invalidDuration).Reports (durationViolations x) := by
  cases x with
  | ok n => exact .ok n
  | error e => rfl

theorem secondsOf_reports (s : String) :
    (secondsOf s).Reports (durationViolations (Duration.parseSeconds s)) :=
  mapError_reports _

theorem minutesOf_reports (s : String) :
    (minutesOf s).Reports (durationViolations (Duration.parseMinutes s)) :=
  mapError_reports _

@[simp] theorem uuidViolations_eq_nil_iff {field s : String} :
    uuidViolations field s = [] ↔ IsUuid s :=
  require_eq_nil_iff

theorem uuidOf_reports (field s : String) : (uuidOf field s).Reports (uuidViolations field s) := by
  unfold uuidOf uuidViolations
  refine reports_require (fun h => ?_) fun h => ?_
  · obtain ⟨u, hu⟩ := Option.isSome_iff_exists.1 h
    rw [hu]
    exact ⟨u, rfl⟩
  · rw [Option.not_isSome_iff_eq_none.1 h]

@[simp] theorem metricViolations_eq_nil_iff {s : String} :
    metricViolations s = [] ↔ IsMetric s :=
  require_eq_nil_iff

theorem metric_reports (o : Option String) :
    ((Metric.parse o).mapError ConversionError.invalidMetric).Reports
      (o.toList.flatMap metricViolations) := by
  cases o with
  | none => exact .ok _
  | some s =>
    rw [Option.toList_some, List.flatMap_singleton]
    rw [Metric.parse, Metric.ofText]
    refine reports_require (fun h => ?_) fun h => ?_
    · by_cases hs : Binding.isParent s = true
      · rw [if_pos hs]
        exact ⟨_, rfl⟩
      · obtain ⟨m, hm⟩ := exists_parse_of_spelled (h.resolve_left hs)
        rw [if_neg hs, hm]
        exact ⟨_, rfl⟩
    · obtain ⟨hs, hm⟩ := not_or.1 h
      rw [if_neg hs, parse_of_not_spelled hm]
      rfl

@[simp] theorem ModeValue.violations_eq_nil_iff {field : String} {v : ModeValue} :
    v.violations field = [] ↔ v.Valid := by
  cases v <;> simp [violations, Valid]

theorem ModeValue.toAutoOr_reports (field : String) (v : ModeValue) :
    (v.toAutoOr field).Reports (v.violations field) := by
  cases v with
  | auto => exact .ok _
  | custom n => exact (unsignedOf_reports field n).map

end Values

/-!
## Records

What must hold of a record is `Valid`. Its `violations` are listed in the order in which the fields
are converted.
-/

@[mk_iff]
structure Input.Valid (i : Input) : Prop where
  type : Text.sameIgnoringCase i.type inputType = true
  mode : ∀ s ∈ i.mode, Spelled InputMode s

def Input.violations (i : Input) : List ConversionError :=
  [require (Text.sameIgnoringCase i.type inputType = true) (.unexpectedInputType i.type),
    i.mode.toList.flatMap (choiceViolations InputMode)].flatten

/-- What is wrong with validation data; nothing, if its path is blank. -/
def Input.violationsUnlessBlank (i : Input) : List ConversionError :=
  if Text.isBlankText i.uri then [] else i.violations

@[mk_iff]
structure Forecasting.Valid (s : Forecasting) : Prop where
  horizon : ∀ v ∈ s.horizon, v.Valid
  featureLags : ∀ t ∈ s.featureLags, Spelled FeatureLags t
  rollingWindow : ∀ v ∈ s.rollingWindow, v.Valid
  useStl : ∀ t ∈ s.useStl, Spelled UseStl t
  seasonality : ∀ v ∈ s.seasonality, v.Valid
  shortSeries : ∀ t ∈ s.shortSeries, Spelled ShortSeriesHandling t
  targetAggregate : ∀ t ∈ s.targetAggregate, Spelled TargetAggregateFunction t
  cvStep : ∀ v ∈ s.cvStep, IsUnsigned v

def Forecasting.violations (s : Forecasting) : List ConversionError :=
  [s.horizon.toList.flatMap (ModeValue.violations "forecastHorizon"),
    s.featureLags.toList.flatMap (choiceViolations FeatureLags),
    s.rollingWindow.toList.flatMap (ModeValue.violations "targetRollingWindowSize"),
    s.useStl.toList.flatMap (choiceViolations UseStl),
    s.seasonality.toList.flatMap (ModeValue.violations "seasonality"),
    s.shortSeries.toList.flatMap (choiceViolations ShortSeriesHandling),
    s.targetAggregate.toList.flatMap (choiceViolations TargetAggregateFunction),
    s.cvStep.toList.flatMap (unsignedViolations "cvStepSize")].flatten

@[mk_iff]
structure Training.Valid (s : Training) : Prop where
  metaLearner : ∀ e ∈ s.stackEnsembleSettings, ∀ t ∈ e.metaLearner, Spelled StackMetaLearner t
  modelDownloadTimeout : ∀ t ∈ s.modelDownloadTimeout, IsSeconds t
  mode : ∀ t ∈ s.mode, Spelled TrainingMode t

def StackEnsemble.violations (s : StackEnsemble) : List ConversionError :=
  s.metaLearner.toList.flatMap (choiceViolations StackMetaLearner)

def Training.violations (s : Training) : List ConversionError :=
  [s.stackEnsembleSettings.toList.flatMap StackEnsemble.violations,
    s.modelDownloadTimeout.toList.flatMap fun t => durationViolations (Duration.parseSeconds t),
    s.mode.toList.flatMap (choiceViolations TrainingMode)].flatten

@[mk_iff]
structure Limits.Valid (s : Limits) : Prop where
  maxConcurrentTrials : ∀ v ∈ s.maxConcurrentTrials, IsUnsigned v
  maxCoresPerTrial : ∀ v ∈ s.maxCoresPerTrial, IsSigned v
  maxNodes : ∀ v ∈ s.maxNodes, IsUnsigned v
  maxTrials : ∀ v ∈ s.maxTrials, IsUnsigned v
  timeout : ∀ t ∈ s.timeout, IsMinutes t
  trialTimeout : ∀ t ∈ s.trialTimeout, IsMinutes t

def Limits.violations (s : Limits) : List ConversionError :=
  [s.maxConcurrentTrials.toList.flatMap (unsignedViolations "maxConcurrentTrials"),
    s.maxCoresPerTrial.toList.flatMap (signedViolations "maxCoresPerTrial"),
    s.maxNodes.toList.flatMap (unsignedViolations "maxNodes"),
    s.maxTrials.toList.flatMap (unsignedViolations "maxTrials"),
    s.timeout.toList.flatMap fun t => durationViolations (Duration.parseMinutes t),
    s.trialTimeout.toList.flatMap fun t => durationViolations (Duration.parseMinutes t)].flatten

def Featurization.violations (s : Featurization) : List ConversionError :=
  s.mode.toList.flatMap (choiceViolations FeaturizationMode)

@[mk_iff]
structure Output.Valid (o : Output) : Prop where
  type : Spelled OutputType o.type
  mode : ∀ s ∈ o.mode, Spelled OutputMode s

def Output.violations (o : Output) : List ConversionError :=
  [choiceViolations OutputType o.type,
    o.mode.toList.flatMap (choiceViolations OutputMode)].flatten

/-- What is wrong with outputs, in the order in which they are listed. -/
def outputsViolations (es : List (String × Option Output)) : List ConversionError :=
  es.flatMap fun e => e.2.toList.flatMap Output.violations

def Queue.violations (q : Queue) : List ConversionError :=
  q.tier.toList.flatMap (choiceViolations JobTier)

@[mk_iff]
structure ManagedIdentity.Valid (m : ManagedIdentity) : Prop where
  clientId : ∀ s ∈ m.clientId, IsUuid s
  objectId : ∀ s ∈ m.objectId, IsUuid s

def ManagedIdentity.violations (m : ManagedIdentity) : List ConversionError :=
  [m.clientId.toList.flatMap (uuidViolations "clientId"),
    m.objectId.toList.flatMap (uuidViolations "objectId")].flatten

def Identity.Valid (i : Identity) : Prop :=
  ∀ m, i = managed m → m.Valid

def Identity.violations : Identity → List ConversionError
  | amlToken => []
  | managed m => m.violations
  | userIdentity => []

@[simp] theorem Input.violations_eq_nil_iff {i : Input} : i.violations = [] ↔ i.Valid := by
  simp [violations, Input.valid_iff]

theorem Input.toDataInput_reports (i : Input) : i.toDataInput.Reports i.violations := by
  unfold toDataInput violations
  by_cases h : Text.sameIgnoringCase i.type inputType = true
  · rw [if_pos h, require, if_pos h, List.flatten_cons, List.nil_append]
    exact .bind (.mapM_option choiceOf_reports _) fun _ => .ok _
  · rw [if_neg h, require, if_neg h]
    rfl

@[simp] theorem Input.violationsUnlessBlank_eq_nil_iff {i : Input} :
    i.violationsUnlessBlank = [] ↔ Text.isBlankText i.uri = false → i.Valid := by
  unfold violationsUnlessBlank
  split <;> simp_all

theorem Input.toDataInputUnlessBlank_reports (i : Input) :
    i.toDataInputUnlessBlank.Reports i.violationsUnlessBlank := by
  unfold toDataInputUnlessBlank violationsUnlessBlank
  split
  · exact .ok none
  · exact i.toDataInput_reports.fmap

@[simp] theorem Forecasting.violations_eq_nil_iff {s : Forecasting} :
    s.violations = [] ↔ s.Valid := by
  simp [violations, Forecasting.valid_iff]

theorem Forecasting.toSettings_reports (s : Forecasting) : s.toSettings.Reports s.violations := by
  unfold toSettings violations
  refine .bind (.mapM_option (ModeValue.toAutoOr_reports _) _) fun _ => ?_
  refine .bind (.mapM_option choiceOf_reports _) fun _ => ?_
  refine .bind (.mapM_option (ModeValue.toAutoOr_reports _) _) fun _ => ?_
  refine .bind (.mapM_option choiceOf_reports _) fun _ => ?_
  refine .bind (.mapM_option (ModeValue.toAutoOr_reports _) _) fun _ => ?_
  refine .bind (.mapM_option choiceOf_reports _) fun _ => ?_
  refine .bind (.mapM_option choiceOf_reports _) fun _ => ?_
  refine .bind (.mapM_option (unsignedOf_reports _) _) fun _ => ?_
  exact .ok _

theorem StackEnsemble.toSettings_reports (s : StackEnsemble) :
    s.toSettings.Reports s.violations := by
  unfold toSettings violations
  exact Except.Reports.bind_ok (.mapM_option choiceOf_reports _)

@[simp] theorem Training.violations_eq_nil_iff {s : Training} : s.violations = [] ↔ s.Valid := by
  simp [violations, Training.valid_iff, StackEnsemble.violations, IsSeconds]

theorem Training.toSettings_reports (s : Training) : s.toSettings.Reports s.violations := by
  unfold toSettings violations
  refine .bind (.mapM_option StackEnsemble.toSettings_reports _) fun _ => ?_
  refine .bind (.mapM_option secondsOf_reports _) fun _ => ?_
  refine .bind (.mapM_option choiceOf_reports _) fun _ => ?_
  exact .ok _

@[simp] theorem Limits.violations_eq_nil_iff {s : Limits} : s.violations = [] ↔ s.Valid := by
  simp [violations, Limits.valid_iff, IsMinutes]

theorem Limits.toSettings_reports (s : Limits) : s.toSettings.Reports s.violations := by
  unfold toSettings violations
  refine .bind (.mapM_option (unsignedOf_reports _) _) fun _ => ?_
  refine .bind (.mapM_option (signedOf_reports _) _) fun _ => ?_
  refine .bind (.mapM_option (unsignedOf_reports _) _) fun _ => ?_
  refine .bind (.mapM_option (unsignedOf_reports _) _) fun _ => ?_
  refine .bind (.mapM_option minutesOf_reports _) fun _ => ?_
  refine .bind (.mapM_option minutesOf_reports _) fun _ => ?_
  exact .ok _

theorem Featurization.toSettings_reports (s : Featurization) :
    s.toSettings.Reports s.violations := by
  unfold toSettings violations
  exact Except.Reports.bind_ok (.mapM_option choiceOf_reports _)

@[simp] theorem Output.violations_eq_nil_iff {o : Output} : o.violations = [] ↔ o.Valid := by
  simp [violations, Output.valid_iff]

theorem Output.toJobOutput_reports (o : Output) : o.toJobOutput.Reports o.violations := by
  unfold toJobOutput violations
  refine .bind (choiceOf_reports _) fun _ => ?_
  refine .bind (.mapM_option choiceOf_reports _) fun _ => ?_
  exact .ok _

/-- Unresolved outputs are skipped, whatever has been put together so far. -/
theorem toJobOutputs_reports (es : List (String × Option Output)) (d : Dict JobOutput) :
    (toJobOutputs es d).Reports (outputsViolations es) := by
  induction es generalizing d with
  | nil => exact .ok d
  | cons e es ih =>
    obtain ⟨k, o⟩ := e
    cases o with
    | none => exact ih d
    | some o =>
      have hcons : outputsViolations ((k, some o) :: es) =
          [o.violations, outputsViolations es].flatten := by
        simp [outputsViolations]
      rw [hcons]
      refine .bind o.toJobOutput_reports fun o' => ?_
      rw [List.flatten_singleton]
      exact ih (d.insert k o')

theorem Queue.toSettings_reports (q : Queue) : q.toSettings.Reports q.violations := by
  unfold toSettings violations
  exact Except.Reports.bind_ok (.mapM_option choiceOf_reports _)

@[simp] theorem ManagedIdentity.violations_eq_nil_iff {m : ManagedIdentity} :
    m.violations = [] ↔ m.Valid := by
  simp [violations, ManagedIdentity.valid_iff]

theorem ManagedIdentity.toAttributes_reports (m : ManagedIdentity) :
    m.toAttributes.Reports m.violations := by
  unfold toAttributes violations
  refine .bind (.mapM_option (uuidOf_reports _) _) fun _ => ?_
  refine .bind (.mapM_option (uuidOf_reports _) _) fun _ => ?_
  exact .ok _

@[simp] theorem Identity.violations_eq_nil_iff {i : Identity} : i.violations = [] ↔ i.Valid := by
  cases i <;> simp [violations, Valid]

theorem Identity.toJobIdentity_reports (i : Identity) :
    i.toJobIdentity.Reports i.violations := by
  cases i with
  | amlToken => exact .ok _
  | managed m => exact m.toAttributes_reports.fmap
  | userIdentity => exact .ok _

/-! ## Payloads -/

@[mk_iff]
structure Payload.Valid (p : Payload) : Prop where
  type : p.properties.type = jobType
  taskType : p.properties.task.type = taskType
  /-- An output that the service has not resolved yet may be there. -/
  outputs : ∀ key o, (key, some o) ∈ p.properties.outputs.entries → o.Valid
  identity : ∀ i ∈ p.properties.identity, i.Valid
  queue : ∀ q ∈ p.properties.queue, ∀ s ∈ q.tier, Spelled JobTier s
  forecasting : ∀ s ∈ p.properties.task.forecasting, s.Valid
  featurization : ∀ s ∈ p.properties.task.featurization, ∀ t ∈ s.mode, Spelled FeaturizationMode t
  limits : ∀ s ∈ p.properties.task.limits, s.Valid
  training : ∀ s ∈ p.properties.task.training, s.Valid
  logVerbosity : ∀ s ∈ p.properties.task.logVerbosity, Spelled LogVerbosity s
  metric : ∀ s ∈ p.properties.task.metric, IsMetric s
  trainingData : ∀ i ∈ p.properties.task.trainingData, i.Valid
  /-- Validation data with a blank path may be anything. -/
  validationData : ∀ i ∈ p.properties.task.validationData, Text.isBlankText i.uri = false → i.Valid
  crossValidations : ∀ v ∈ p.properties.task.crossValidations, v.Valid
  testData : ∀ i ∈ p.properties.task.testData, i.Valid

def Payload.metadataViolations (p : Payload) : List ConversionError :=
  [outputsViolations p.properties.outputs.entries,
    p.properties.identity.toList.flatMap Identity.violations,
    p.properties.queue.toList.flatMap Queue.violations].flatten

def Task.settingsViolations (t : Task) : List ConversionError :=
  [t.forecasting.toList.flatMap Forecasting.violations,
    t.featurization.toList.flatMap Featurization.violations,
    t.limits.toList.flatMap Limits.violations,
    t.training.toList.flatMap Training.violations,
    t.logVerbosity.toList.flatMap (choiceViolations LogVerbosity),
    t.metric.toList.flatMap metricViolations].flatten

def Task.dataViolations (t : Task) : List ConversionError :=
  [t.trainingData.toList.flatMap Input.violations,
    t.validationData.toList.flatMap Input.violationsUnlessBlank,
    t.crossValidations.toList.flatMap (ModeValue.violations "nCrossValidations"),
    t.testData.toList.flatMap Input.violations].flatten

def Payload.violations (p : Payload) : List ConversionError :=
  [require (p.properties.type = jobType) (.unexpectedJobType p.properties.type),
    require (p.properties.task.type = taskType) (.unexpectedTaskType p.properties.task.type),
    p.metadataViolations,
    p.properties.task.settingsViolations,
    p.properties.task.dataViolations].flatten

@[simp] theorem outputsViolations_eq_nil_iff {es : List (String × Option Output)} :
    outputsViolations es = [] ↔ ∀ key o, (key, some o) ∈ es → o.Valid := by
  simp only [outputsViolations, List.flatMap_eq_nil_iff, Output.violations_eq_nil_iff, Prod.forall,
    Option.mem_toList]
  constructor
  · intro h key o hm
    exact h key (some o) hm o rfl
  · rintro h key _ hm o rfl
    exact h key o hm

theorem Payload.violations_eq_nil_iff {p : Payload} : p.violations = [] ↔ p.Valid := by
  simp [violations, metadataViolations, Task.settingsViolations, Task.dataViolations,
    Queue.violations, Featurization.violations, valid_iff]

theorem Payload.toMetadata_reports (p : Payload) :
    p.toMetadata.Reports p.metadataViolations := by
  unfold toMetadata metadataViolations
  refine .bind (toJobOutputs_reports _ _) fun _ => ?_
  refine .bind (.mapM_option Identity.toJobIdentity_reports _) fun _ => ?_
  refine .bind (.mapM_option Queue.toSettings_reports _) fun _ => ?_
  exact .ok _

/-- The metric is looked at after all settings. -/
theorem Task.toJob_reports (t : Task) (metadata : Metadata) :
    (t.toJob metadata).Reports t.settingsViolations := by
  unfold toJob settingsViolations
  refine .bind (.mapM_option Forecasting.toSettings_reports _) fun _ => ?_
  refine .bind (.mapM_option Featurization.toSettings_reports _) fun _ => ?_
  refine .bind (.mapM_option Limits.toSettings_reports _) fun _ => ?_
  refine .bind (.mapM_option Training.toSettings_reports _) fun _ => ?_
  refine .bind (.mapM_option choiceOf_reports _) fun _ => ?_
  rw [Job.new, Except.mapError_bind]
  exact .bind (metric_reports t.metric) fun _ => .ok _

theorem Task.toData_reports (t : Task) : t.toData.Reports t.dataViolations := by
  unfold toData dataViolations
  refine .bind (.mapM_option Input.toDataInput_reports _) fun _ => ?_
  refine .bind (.mapM_option Input.toDataInputUnlessBlank_reports _) fun _ => ?_
  refine .bind (.mapM_option (ModeValue.toAutoOr_reports _) _) fun _ => ?_
  refine .bind (.mapM_option Input.toDataInput_reports _) fun _ => ?_
  exact .ok _

end Wire

namespace Job

/-- The conversion of a payload fails with the first violation. -/
theorem ofPayload_reports (p : Wire.Payload) : (ofPayload p).Reports p.violations := by
  unfold ofPayload Wire.Payload.violations
  refine Wire.reports_guard bne_iff_ne ?_
  refine Wire.reports_guard bne_iff_ne ?_
  refine .bind p.toMetadata_reports fun metadata => ?_
  refine .bind (p.properties.task.toJob_reports metadata) fun _ => ?_
  refine .bind p.properties.task.toData_reports fun _ => ?_
  exact .ok _

/-- A payload describes a job exactly if it is valid. All others are refused for the first thing
that is wrong with them. -/
theorem exists_ofPayload_iff_valid (p : Wire.Payload) :
    ((∃ job, ofPayload p = .ok job) ↔ p.Valid) ∧
      ∀ e, ofPayload p = .error e ↔ p.violations.head? = some e := by
  have hreports := ofPayload_reports p
  constructor
  · rw [hreports.exists_ok_iff, Wire.Payload.violations_eq_nil_iff]
  · exact hreports.eq_error_iff

end Job

end ForecastJob
