import ForecastJob.Proofs.Content
import ForecastJob.Proofs.Duration
import ForecastJob.Proofs.Outcome
import ForecastJob.Proofs.Spelling
import ForecastJob.Wire.Decode

/-!
# What is converted to a payload is converted back

* `Wire.choiceOf_wire`, `Wire.unsignedOf_widen`, … : single values;
* `Wire.Forecasting.toSettings_toWire`, … : records; validation data with a blank path is lost;
* `Wire.Payload.Describes` : what a payload must satisfy to describe a given job;
* `Job.ofPayload_toPayload` : the payload of a job describes the job again, but for what is never
  sent.
-/

namespace ForecastJob

namespace Wire

/-! ## Values -/

section Values

variable {α : Type} [Choice α] [DecidableEq α] [LawfulChoice α]

@[simp] theorem choiceOf_wire (a : α) : choiceOf (Choice.wire a) = .ok a := by
  simp [choiceOf, Choice.parse_wire]

end Values

theorem toInt_widen (n : UInt32) : (widen n).toInt = n.toNat := by
  have h := n.toNat_lt
  exact Int64.toInt_ofNat_of_lt (by omega)

@[simp] theorem unsignedOf_widen (field : String) (n : UInt32) :
    unsignedOf field (widen n) = .ok n := by
  have h := n.toNat_lt
  rw [unsignedOf, toInt_widen, if_pos, Int.toNat_natCast, UInt32.ofNat_toNat]
  simp only [UInt32.size, Bool.and_eq_true, decide_eq_true_eq]
  omega

@[simp] theorem signedOf_toInt64 (field : String) (n : Int32) :
    signedOf field n.toInt64 = .ok n := by
  have h := n.minValue_le_toInt
  have h' := n.toInt_le
  rw [signedOf, Int32.toInt_toInt64, if_pos, Int32.ofInt_toInt]
  simpa using ⟨h, h'⟩

@[simp] theorem secondsOf_formatSeconds (n : UInt64) :
    secondsOf (Duration.formatSeconds n) = .ok n := by
  simp [secondsOf, Duration.parseSeconds_formatSeconds]

@[simp] theorem minutesOf_formatMinutes (n : UInt32) :
    minutesOf (Duration.formatMinutes n) = .ok n := by
  simp [minutesOf, Duration.parseMinutes_formatMinutes]

@[simp] theorem uuidOf_toText (field : String) (u : Uuid) : uuidOf field u.toText = .ok u := by
  simp [uuidOf, Uuid.parse?_toText]

@[simp] theorem ModeValue.toAutoOr_toWire (field : String) (a : AutoOr) :
    a.toWire.toAutoOr field = .ok a := by
  cases a with
  | auto => rfl
  | value n => simp [AutoOr.toWire, toAutoOr]

@[simp] theorem Lags.toTargetLags_comp_toWire : Lags.toTargetLags ∘ TargetLags.toWire = id := by
  funext l
  cases l <;> rfl

/-! ## Records -/

@[simp] theorem Input.toDataInput_toWire (i : DataInput) : i.toWire.toDataInput = .ok i := by
  have h : Text.sameIgnoringCase inputType inputType = true := rfl
  simp [toDataInput, DataInput.toWire, h]

@[simp] theorem Forecasting.toSettings_toWire (s : ForecastingSettings) :
    s.toWire.toSettings = .ok s := by
  simp [toSettings, ForecastingSettings.toWire]

@[simp] theorem StackEnsemble.toSettings_toWire (s : StackEnsembleSettings) :
    s.toWire.toSettings = .ok s := by
  simp [toSettings, StackEnsembleSettings.toWire]

@[simp] theorem Training.toSettings_toWire (s : TrainingSettings) :
    s.toWire.toSettings = .ok s := by
  simp [toSettings, TrainingSettings.toWire]

@[simp] theorem Limits.toSettings_toWire (s : LimitSettings) : s.toWire.toSettings = .ok s := by
  simp [toSettings, LimitSettings.toWire]

@[simp] theorem Transformer.toColumnTransformer_toWire (t : ColumnTransformer) :
    t.toWire.toColumnTransformer = t := rfl

@[simp] theorem Featurization.toSettings_toWire (s : FeaturizationSettings) :
    s.toWire.toSettings = .ok s := by
  simp [toSettings, FeaturizationSettings.toWire, Function.comp_def]

@[simp] theorem Output.toJobOutput_toWire (o : JobOutput) : o.toWire.toJobOutput = .ok o := by
  simp [toJobOutput, JobOutput.toWire]

@[simp] theorem Resources.toJobResources_comp_toWire :
    Resources.toJobResources ∘ JobResources.toWire = id := rfl

@[simp] theorem Queue.toSettings_toWire (q : QueueSettings) : q.toWire.toSettings = .ok q := by
  simp [toSettings, QueueSettings.toWire]

@[simp] theorem ManagedIdentity.toAttributes_toWire (m : ForecastJob.ManagedIdentity) :
    m.toWire.toAttributes = .ok m := by
  simp [toAttributes, ForecastJob.ManagedIdentity.toWire]

@[simp] theorem Identity.toJobIdentity_toWire (i : ForecastJob.Identity) :
    i.toWire.toJobIdentity = .ok i := by
  cases i with
  | amlToken => rfl
  | managed m =>
    simp only [ForecastJob.Identity.toWire, toJobIdentity, ManagedIdentity.toAttributes_toWire]
    rfl
  | userIdentity => rfl

/-! ## Outputs -/

/-- Resolved outputs in key order are put one behind the other. -/
theorem toJobOutputs_toWire (es : List (String × JobOutput)) {d : Dict JobOutput}
    (ha : (keysOf d.entries ++ keysOf es).Pairwise (· < ·)) :
    ∃ d', toJobOutputs (es.map fun e => (e.1, some e.2.toWire)) d = .ok d' ∧
      d'.entries = d.entries ++ es := by
  induction es generalizing d with
  | nil => exact ⟨d, rfl, (List.append_nil _).symm⟩
  | cons e es ih =>
    obtain ⟨k, o⟩ := e
    obtain ⟨hlast, ha'⟩ := Dict.entries_insert_next o ha
    obtain ⟨d', hd', he⟩ := ih ha'
    refine ⟨d', ?_, ?_⟩
    · simpa [toJobOutputs] using hd'
    · rw [he, hlast, List.append_assoc]
      rfl

@[simp] theorem toJobOutputs_map_toWire (d : Dict JobOutput) :
    toJobOutputs (d.map fun o => some o.toWire).entries .empty = .ok d := by
  obtain ⟨d', hd', he⟩ := toJobOutputs_toWire d.entries (d := .empty) d.ascending.keys
  obtain rfl : d' = d := Dict.ext he
  simpa only [Dict.map, List.map_map] using hd'

/-! ## Jobs -/

theorem Payload.toMetadata_toPayload (job : Job) : job.toPayload.toMetadata =
    .ok { job.metadata with status := none, creationContext := none } := by
  simp [toMetadata, Job.toPayload, Job.toProperties]

/-- Validation data with a blank path is left out and not there afterwards. -/
theorem mapM_toDataInputUnlessBlank (o : Option DataInput) :
    ∃ o', (o.bind DataInput.toWireUnlessBlank?).mapM Input.toDataInputUnlessBlank =
        (.ok o' : Conversion _) ∧
      o'.join = o.filter fun i => !Text.isBlankText i.path := by
  cases o with
  | none => exact ⟨none, rfl, rfl⟩
  | some i =>
    cases h : Text.isBlankText i.path with
    | true =>
      refine ⟨none, ?_, ?_⟩
      · simp only [Option.bind_some, DataInput.toWireUnlessBlank?, h, if_true]
        rfl
      · rw [Option.filter_some_neg (by simp [h])]
        rfl
    | false =>
      refine ⟨some (some i), ?_, ?_⟩
      · have hi : i.toWire.toDataInputUnlessBlank = .ok (some i) := by
          rw [Input.toDataInputUnlessBlank, if_neg (by simp [DataInput.toWire, h]),
            Input.toDataInput_toWire]
          rfl
        simp only [Option.bind_some, DataInput.toWireUnlessBlank?, h, Bool.false_eq_true, if_false,
          Option.mapM_some, hi]
        rfl
      · rw [Option.filter_some_pos (by simp [h])]
        rfl

theorem Task.toData_toTask (job : Job) : job.toTask.toData =
    .ok { job.data with
      validationData := job.data.validationData.filter fun i => !Text.isBlankText i.path } := by
  obtain ⟨o', ho', hj⟩ := mapM_toDataInputUnlessBlank job.data.validationData
  simp [toData, Job.toTask, ho', hj]

/-- What a payload must satisfy to describe a given job. -/
structure Payload.Describes (p : Payload) (job : Job) : Prop where
  type : p.properties.type = jobType
  task : p.properties.task.type = taskType
  metadata : p.toMetadata = .ok job.metadata
  forecasting : p.properties.task.forecasting.mapM Forecasting.toSettings = .ok job.forecasting
  featurization : p.properties.task.featurization.mapM Featurization.toSettings =
    .ok job.tabular.featurization
  limits : p.properties.task.limits.mapM Limits.toSettings = .ok job.tabular.limits
  training : p.properties.task.training.mapM Training.toSettings = .ok job.tabular.training
  logVerbosity : ∃ o, p.properties.task.logVerbosity.mapM choiceOf = .ok o ∧
    o.getD default = job.tabular.logVerbosity
  metric : Metric.parse p.properties.task.metric = .ok job.metric
  data : p.properties.task.toData = .ok job.data

theorem Task.toJob_eq_ok_iff {t : Task} {metadata : Metadata} {job : Job} :
    t.toJob metadata = .ok job ↔
      ∃ forecasting featurization limits training logVerbosity metric,
        t.forecasting.mapM Forecasting.toSettings = .ok forecasting ∧
        t.featurization.mapM Featurization.toSettings = .ok featurization ∧
        t.limits.mapM Limits.toSettings = .ok limits ∧
        t.training.mapM Training.toSettings = .ok training ∧
        t.logVerbosity.mapM choiceOf = .ok logVerbosity ∧
        Metric.parse t.metric = .ok metric ∧
        job = {
          metadata, metric, forecasting
          tabular := {
            featurization, limits, training
            logVerbosity := logVerbosity.getD default } } := by
  simp only [toJob, Except.bind_eq_ok, Except.mapError_eq_ok, Job.new, Except.pure_eq_ok]
  constructor
  · rintro ⟨a, ha, b, hb, c, hc, d, hd, e, he, m, hm, rfl⟩
    exact ⟨a, b, c, d, e, m, ha, hb, hc, hd, he, hm, rfl⟩
  · rintro ⟨a, b, c, d, e, m, ha, hb, hc, hd, he, hm, rfl⟩
    exact ⟨a, ha, b, hb, c, hc, d, hd, e, he, m, hm, rfl⟩

end Wire

namespace Job

theorem ofPayload_eq_ok_iff {p : Wire.Payload} {job : Job} :
    ofPayload p = .ok job ↔ p.Describes job := by
  unfold ofPayload
  by_cases hj : p.properties.type = Wire.jobType
  · by_cases ht : p.properties.task.type = Wire.taskType
    · simp only [hj, ht, bne_self_eq_false, Bool.false_eq_true, if_false, Except.bind_eq_ok,
        Wire.Task.toJob_eq_ok_iff, Except.pure_eq_ok]
      constructor
      · rintro ⟨m, hm, bare, ⟨a, b, c, d, e, metric, ha, hb, hc, hd, he, hmetric, rfl⟩, data, hdata,
          rfl⟩
        rw [setData_of_empty rfl]
        exact ⟨hj, ht, hm, ha, hb, hc, hd, ⟨e, he, rfl⟩, hmetric, hdata⟩
      · intro h
        obtain ⟨e, he, hv⟩ := h.logVerbosity
        refine ⟨_, h.metadata, _, ⟨_, _, _, _, e, _, h.forecasting, h.featurization, h.limits,
          h.training, he, h.metric, rfl⟩, _, h.data, ?_⟩
        rw [setData_of_empty rfl, hv]
        rfl
    · refine iff_of_false ?_ fun h => ht h.task
      simp [hj, ht, throw, throwThe, MonadExceptOf.throw, bind, Except.bind]
  · refine iff_of_false ?_ fun h => hj h.type
    simp [hj, throw, throwThe, MonadExceptOf.throw, bind, Except.bind]

/-- What a payload keeps of a job: not what only the service sets, and no validation data with a
blank path. -/
def sent (job : Job) : Job :=
  { job with
    metadata := { job.metadata with status := none, creationContext := none }
    tabular := { job.tabular with
      data := { job.data with
        validationData := job.data.validationData.filter fun i => !Text.isBlankText i.path } } }

/-- The payload of a job describes what is sent of it. -/
theorem ofPayload_toPayload {job : Job} (h : job.metric.Sound) :
    ofPayload job.toPayload = .ok job.sent :=
  ofPayload_eq_ok_iff.2 {
    type := rfl
    task := rfl
    metadata := Wire.Payload.toMetadata_toPayload job
    forecasting := Except.mapM_option_map Wire.Forecasting.toSettings_toWire _
    featurization := Except.mapM_option_map Wire.Featurization.toSettings_toWire _
    limits := Except.mapM_option_map Wire.Limits.toSettings_toWire _
    training := Except.mapM_option_map Wire.Training.toSettings_toWire _
    logVerbosity := ⟨some job.tabular.logVerbosity, by simp [toPayload, toProperties, toTask], rfl⟩
    metric := Metric.ofText_wire h
    data := Wire.Task.toData_toTask job }

end Job

end ForecastJob
