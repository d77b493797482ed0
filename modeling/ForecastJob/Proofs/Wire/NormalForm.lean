import ForecastJob.Proofs.Equality
import ForecastJob.Proofs.Reachable

/-!
# The normal form of payloads

* `Wire.Payload.canonical` : a payload in normal form, defined on the payload alone: what importing
  it and exporting it again may change;
* `Job.toPayload_of_ofPayload` : that is all that it changes.
-/

namespace ForecastJob

namespace Wire

/-! ## Values -/

/-- The wire spelling of the member that the text spells. -/
def respelled (α : Type) [Choice α] (s : String) : String :=
  match (Choice.parse s : Except Choice.Unknown α) with
  | .ok a => Choice.wire a
  | .error _ => s

/-- The text of the whole seconds of a duration. -/
def wholeSeconds (s : String) : String :=
  match Duration.parseSeconds s with
  | .ok n => Duration.formatSeconds n
  | .error _ => s

/-- The text of the whole minutes of a duration. -/
def wholeMinutes (s : String) : String :=
  match Duration.parseMinutes s with
  | .ok n => Duration.formatMinutes n
  | .error _ => s

/-- The canonical text of an identifier. -/
def hyphenated (s : String) : String :=
  match Uuid.parse? s with
  | some u => u.toText
  | none => s

/-- A metric that is left to the pipeline stays as it is, no metric is the default one, and any other
metric is respelled. -/
def canonicalMetric : Option String → String
  | none => Choice.wire (default : ForecastingMetric)
  | some s => if Binding.isParent s then s else respelled ForecastingMetric s

/-! ## Records -/

def Input.canonical (i : Input) : Input :=
  { i with type := inputType, mode := i.mode.map (respelled InputMode), description := none }

def Forecasting.canonical (s : Forecasting) : Forecasting :=
  { s with
    featureLags := s.featureLags.map (respelled FeatureLags)
    shortSeries := s.shortSeries.map (respelled ShortSeriesHandling)
    targetAggregate := s.targetAggregate.map (respelled TargetAggregateFunction)
    useStl := s.useStl.map (respelled UseStl) }

def StackEnsemble.canonical (s : StackEnsemble) : StackEnsemble :=
  { s with metaLearner := s.metaLearner.map (respelled StackMetaLearner) }

def Training.canonical (s : Training) : Training :=
  { s with
    stackEnsembleSettings := s.stackEnsembleSettings.map StackEnsemble.canonical
    modelDownloadTimeout := s.modelDownloadTimeout.map wholeSeconds
    mode := s.mode.map (respelled TrainingMode) }

def Limits.canonical (s : Limits) : Limits :=
  { s with
    timeout := s.timeout.map wholeMinutes
    trialTimeout := s.trialTimeout.map wholeMinutes }

def Featurization.canonical (s : Featurization) : Featurization :=
  { s with mode := s.mode.map (respelled FeaturizationMode) }

def Output.canonical (o : Output) : Output :=
  { o with type := respelled OutputType o.type, mode := o.mode.map (respelled OutputMode) }

def Queue.canonical (q : Queue) : Queue :=
  { q with tier := q.tier.map (respelled JobTier) }

def Identity.canonical : Identity → Identity
  | amlToken => amlToken
  | managed m => managed
    { m with clientId := m.clientId.map hyphenated, objectId := m.objectId.map hyphenated }
  | userIdentity => userIdentity

/-- The normal form of the details of a task. Validation data with a blank path is left out. -/
def Task.canonical (t : Task) : Task :=
  { t with
    trainingData := t.trainingData.map Input.canonical
    validationData := (t.validationData.filter fun i => !Text.isBlankText i.uri).map Input.canonical
    testData := t.testData.map Input.canonical
    featurization := t.featurization.map Featurization.canonical
    limits := t.limits.map Limits.canonical
    training := t.training.map Training.canonical
    metric := some (canonicalMetric t.metric)
    logVerbosity := some
      (t.logVerbosity.elim (Choice.wire (default : LogVerbosity)) (respelled LogVerbosity))
    forecasting := t.forecasting.map Forecasting.canonical }

/-- The normal form of the properties of a job. Outputs that are not resolved are left out. -/
def Properties.canonical (p : Properties) : Properties :=
  { p with
    outputs := p.outputs.filterMap fun o => o.map fun o => some o.canonical
    task := p.task.canonical
    identity := p.identity.map Identity.canonical
    queue := p.queue.map Queue.canonical
    status := none }

/-- The normal form of a payload. -/
def Payload.canonical (p : Payload) : Payload :=
  { p with type := none, properties := p.properties.canonical, systemData := none }

/-! ## Exported values are in normal form -/

section Values

theorem wire_of_choiceOf {α : Type} [Choice α] {s : String} {a : α} (h : choiceOf s = .ok a) :
    Choice.wire a = respelled α s := by
  have hp : Choice.parse s = .ok a := Except.mapError_eq_ok.1 h
  rw [respelled, hp]

theorem widen_of_unsignedOf {field : String} {v : Int64} {n : UInt32}
    (h : unsignedOf field v = .ok n) : widen n = v := by
  unfold unsignedOf at h
  split at h
  · next hr =>
    cases h
    simp only [UInt32.size, Bool.and_eq_true, decide_eq_true_eq] at hr
    have hn : v.toInt.toNat < 2 ^ 32 := by omega
    rw [← Int64.toInt_inj, toInt_widen, UInt32.toNat_ofNat_of_lt' hn]
    omega
  · cases h

theorem toInt64_of_signedOf {field : String} {v : Int64} {n : Int32}
    (h : signedOf field v = .ok n) : n.toInt64 = v := by
  unfold signedOf at h
  split at h
  · next hr =>
    cases h
    simp only [Bool.and_eq_true, decide_eq_true_eq] at hr
    rw [← Int64.toInt_inj, Int32.toInt_toInt64]
    exact Int32.toInt_ofInt_of_le hr.1 (Int.lt_add_one_of_le hr.2)
  · cases h

theorem formatSeconds_of_secondsOf {s : String} {n : UInt64} (h : secondsOf s = .ok n) :
    Duration.formatSeconds n = wholeSeconds s := by
  rw [wholeSeconds, Except.mapError_eq_ok.1 h]

theorem formatMinutes_of_minutesOf {s : String} {n : UInt32} (h : minutesOf s = .ok n) :
    Duration.formatMinutes n = wholeMinutes s := by
  rw [wholeMinutes, Except.mapError_eq_ok.1 h]

theorem toText_of_uuidOf {field s : String} {u : Uuid} (h : uuidOf field s = .ok u) :
    u.toText = hyphenated s := by
  unfold uuidOf at h
  split at h
  · next hu =>
    cases h
    rw [hyphenated, hu]
  · cases h

theorem toWire_of_toAutoOr {field : String} {v : ModeValue} {a : AutoOr}
    (h : v.toAutoOr field = .ok a) : a.toWire = v := by
  cases v with
  | auto =>
    cases h
    rfl
  | custom v =>
    obtain ⟨n, hn, rfl⟩ := Except.map_eq_ok.1 h
    exact congrArg ModeValue.custom (widen_of_unsignedOf hn)

theorem toWire_toTargetLags (l : Lags) : l.toTargetLags.toWire = l := by
  cases l <;> rfl

end Values

theorem Input.toWire_of_toDataInput {r : Input} {i : DataInput} (h : r.toDataInput = .ok i) :
    i.toWire = r.canonical := by
  unfold toDataInput at h
  split at h
  · obtain ⟨mode, hm, hi⟩ := Except.bind_eq_ok.1 h
    cases hi
    simp only [DataInput.toWire, canonical, Except.map_of_mapM_option hm wire_of_choiceOf]
  · cases h

theorem Forecasting.toWire_of_toSettings {r : Forecasting} {s : ForecastingSettings}
    (h : r.toSettings = .ok s) : s.toWire = r.canonical := by
  simp only [toSettings, Except.bind_eq_ok, Except.pure_eq_ok] at h
  obtain ⟨_, h₁, _, h₂, _, h₃, _, h₄, _, h₅, _, h₆, _, h₇, _, h₈, rfl⟩ := h
  have hl : (r.targetLags.map Lags.toTargetLags).map TargetLags.toWire = r.targetLags := by
    simp [Function.comp_def, toWire_toTargetLags]
  simp only [ForecastingSettings.toWire, canonical, hl,
    Except.map_of_mapM_option h₂ wire_of_choiceOf, Except.map_of_mapM_option h₄ wire_of_choiceOf,
    Except.map_of_mapM_option h₆ wire_of_choiceOf, Except.map_of_mapM_option h₇ wire_of_choiceOf,
    Except.map_of_mapM_option_self h₁ toWire_of_toAutoOr,
    Except.map_of_mapM_option_self h₃ toWire_of_toAutoOr,
    Except.map_of_mapM_option_self h₅ toWire_of_toAutoOr,
    Except.map_of_mapM_option_self h₈ widen_of_unsignedOf]

theorem StackEnsemble.toWire_of_toSettings {r : StackEnsemble} {s : StackEnsembleSettings}
    (h : r.toSettings = .ok s) : s.toWire = r.canonical := by
  simp only [toSettings, Except.bind_eq_ok, Except.pure_eq_ok] at h
  obtain ⟨_, h₁, rfl⟩ := h
  simp only [StackEnsembleSettings.toWire, canonical,
    Except.map_of_mapM_option h₁ wire_of_choiceOf]

theorem Training.toWire_of_toSettings {r : Training} {s : TrainingSettings}
    (h : r.toSettings = .ok s) : s.toWire = r.canonical := by
  simp only [toSettings, Except.bind_eq_ok, Except.pure_eq_ok] at h
  obtain ⟨_, h₁, _, h₂, _, h₃, rfl⟩ := h
  simp only [TrainingSettings.toWire, canonical,
    Except.map_of_mapM_option h₁ StackEnsemble.toWire_of_toSettings,
    Except.map_of_mapM_option h₂ formatSeconds_of_secondsOf,
    Except.map_of_mapM_option h₃ wire_of_choiceOf]

theorem Limits.toWire_of_toSettings {r : Limits} {s : LimitSettings}
    (h : r.toSettings = .ok s) : s.toWire = r.canonical := by
  simp only [toSettings, Except.bind_eq_ok, Except.pure_eq_ok] at h
  obtain ⟨_, h₁, _, h₂, _, h₃, _, h₄, _, h₅, _, h₆, rfl⟩ := h
  simp only [LimitSettings.toWire, canonical,
    Except.map_of_mapM_option_self h₁ widen_of_unsignedOf,
    Except.map_of_mapM_option_self h₂ toInt64_of_signedOf,
    Except.map_of_mapM_option_self h₃ widen_of_unsignedOf,
    Except.map_of_mapM_option_self h₄ widen_of_unsignedOf,
    Except.map_of_mapM_option h₅ formatMinutes_of_minutesOf,
    Except.map_of_mapM_option h₆ formatMinutes_of_minutesOf]

theorem Featurization.toWire_of_toSettings {r : Featurization} {s : FeaturizationSettings}
    (h : r.toSettings = .ok s) : s.toWire = r.canonical := by
  simp only [toSettings, Except.bind_eq_ok, Except.pure_eq_ok] at h
  obtain ⟨_, h₁, rfl⟩ := h
  have ht : ∀ t : Transformer, t.toColumnTransformer.toWire = t := fun _ => rfl
  simp [FeaturizationSettings.toWire, canonical, Except.map_of_mapM_option h₁ wire_of_choiceOf,
    Function.comp_def, ht]

theorem Output.toWire_of_toJobOutput {r : Output} {o : JobOutput} (h : r.toJobOutput = .ok o) :
    o.toWire = r.canonical := by
  simp only [toJobOutput, Except.bind_eq_ok, Except.pure_eq_ok] at h
  obtain ⟨_, h₁, _, h₂, rfl⟩ := h
  simp only [JobOutput.toWire, canonical, wire_of_choiceOf h₁,
    Except.map_of_mapM_option h₂ wire_of_choiceOf]

theorem Queue.toWire_of_toSettings {r : Queue} {q : QueueSettings} (h : r.toSettings = .ok q) :
    q.toWire = r.canonical := by
  simp only [toSettings, Except.bind_eq_ok, Except.pure_eq_ok] at h
  obtain ⟨_, h₁, rfl⟩ := h
  simp only [QueueSettings.toWire, canonical, Except.map_of_mapM_option h₁ wire_of_choiceOf]

theorem Identity.toWire_of_toJobIdentity {r : Identity} {i : ForecastJob.Identity}
    (h : r.toJobIdentity = .ok i) : i.toWire = r.canonical := by
  cases r with
  | amlToken =>
    cases h
    rfl
  | managed m =>
    obtain ⟨a, ha, rfl⟩ := Except.fmap_eq_ok.1 h
    simp only [ManagedIdentity.toAttributes, Except.bind_eq_ok, Except.pure_eq_ok] at ha
    obtain ⟨_, h₁, _, h₂, rfl⟩ := ha
    simp only [ForecastJob.Identity.toWire, ForecastJob.ManagedIdentity.toWire, canonical,
      Except.map_of_mapM_option h₁ toText_of_uuidOf, Except.map_of_mapM_option h₂ toText_of_uuidOf]
  | userIdentity =>
    cases h
    rfl

/-! ## Exported jobs are in normal form -/

theorem wire_of_parse {o : Option String} {m : Metric} (h : Metric.parse o = .ok m) :
    m.wire = canonicalMetric o := by
  cases o with
  | none =>
    cases h
    rfl
  | some s =>
    simp only [Metric.parse, Metric.ofText] at h
    simp only [canonicalMetric]
    split at h
    · next hp =>
      cases h
      rw [if_pos hp]
      rfl
    · next hp =>
      split at h
      · next hm =>
        cases h
        rw [if_neg hp, respelled, hm]
        rfl
      · cases h

/-- Outputs that are resolved are kept, in key order. -/
theorem entries_of_toJobOutputs {es : List (String × Option Output)} {d d' : Dict JobOutput}
    (ha : (keysOf d.entries ++ keysOf es).Pairwise (· < ·)) (h : toJobOutputs es d = .ok d') :
    (d'.map fun o => some o.toWire).entries = (d.map fun o => some o.toWire).entries ++
      es.filterMap fun e => (e.2.map fun o => some o.canonical).map (e.1, ·) := by
  induction es generalizing d with
  | nil =>
    cases h
    exact (List.append_nil _).symm
  | cons e es ih =>
    obtain ⟨k, _ | o⟩ := e
    · have ha' : (keysOf d.entries ++ keysOf es).Pairwise (· < ·) :=
        ha.sublist ((List.sublist_cons_self _ _).append_left _)
      exact ih ha' h
    · obtain ⟨jo, ho, h⟩ := Except.bind_eq_ok.1 h
      obtain ⟨hlast, ha'⟩ := Dict.entries_insert_next jo ha
      rw [ih ha' h, Dict.entries_map, hlast, List.map_append, List.map_singleton,
        Output.toWire_of_toJobOutput ho, List.append_assoc]
      rfl

theorem toWire_of_validationData {o : Option Input} {o' : Option (Option DataInput)}
    (h : o.mapM Input.toDataInputUnlessBlank = .ok o') :
    o'.join.bind DataInput.toWireUnlessBlank? =
      (o.filter fun i => !Text.isBlankText i.uri).map Input.canonical := by
  rcases Except.mapM_option_eq_ok.1 h with ⟨rfl, rfl⟩ | ⟨i, oi, rfl, hi, rfl⟩
  · rfl
  · unfold Input.toDataInputUnlessBlank at hi
    split at hi
    · next hb =>
      cases hi
      rw [Option.filter_some_neg (by simp [hb])]
      rfl
    · next hb =>
      obtain ⟨di, hdi, rfl⟩ := Except.fmap_eq_ok.1 hi
      have hw := Input.toWire_of_toDataInput hdi
      have hu : di.path = i.uri := congrArg Input.uri hw
      rw [Option.filter_some_pos (by simp [hb]), Option.map_some, ← hw]
      exact if_neg (hu ▸ hb)

/-- Importing and exporting puts a payload in normal form. -/
theorem Payload.Describes.toPayload {p : Payload} {job : Job} (h : p.Describes job) :
    job.toPayload = p.canonical := by
  obtain ⟨o, ho, hv⟩ := h.logVerbosity
  have hm := h.metadata
  have hd := h.data
  simp only [toMetadata, Except.bind_eq_ok, Except.pure_eq_ok] at hm
  simp only [Task.toData, Except.bind_eq_ok, Except.pure_eq_ok] at hd
  obtain ⟨outputs, h₁, identity, h₂, queue, h₃, hm⟩ := hm
  obtain ⟨training, h₄, validation, h₅, cv, h₆, test, h₇, hd⟩ := hd
  have houtputs : outputs.map (fun o => some o.toWire) =
      p.properties.outputs.filterMap fun o => o.map fun o => some o.canonical := by
    refine Dict.ext ?_
    rw [entries_of_toJobOutputs (d := .empty) p.properties.outputs.ascending.keys h₁]
    rfl
  have hresources : (p.properties.resources.map Resources.toJobResources).map JobResources.toWire =
      p.properties.resources := by
    have hid : JobResources.toWire ∘ Resources.toJobResources = fun r => r := rfl
    simp [hid]
  have hverbosity : Choice.wire (o.getD default) = p.properties.task.logVerbosity.elim
      (Choice.wire (default : LogVerbosity)) (respelled LogVerbosity) := by
    rcases Except.mapM_option_eq_ok.1 ho with ⟨hn, rfl⟩ | ⟨s, v, hs, hc, rfl⟩
    · rw [hn]
      rfl
    · rw [hs]
      exact wire_of_choiceOf hc
  simp only [Job.toPayload, Job.toProperties, Job.toTask, ← hm, ← hd, ← hv, houtputs, hresources,
    Payload.canonical, Properties.canonical, Task.canonical, h.type, h.task,
    Except.map_of_mapM_option h₂ Identity.toWire_of_toJobIdentity,
    Except.map_of_mapM_option h₃ Queue.toWire_of_toSettings,
    Except.map_of_mapM_option h₄ Input.toWire_of_toDataInput, toWire_of_validationData h₅,
    Except.map_of_mapM_option_self h₆ toWire_of_toAutoOr,
    Except.map_of_mapM_option h₇ Input.toWire_of_toDataInput,
    Except.map_of_mapM_option h.forecasting Forecasting.toWire_of_toSettings,
    Except.map_of_mapM_option h.featurization Featurization.toWire_of_toSettings,
    Except.map_of_mapM_option h.limits Limits.toWire_of_toSettings,
    Except.map_of_mapM_option h.training Training.toWire_of_toSettings, wire_of_parse h.metric,
    hverbosity]

/-! ## Normal payloads are fixed -/

/-- Imported validation data has a path. -/
theorem isBlankText_of_toDataInputUnlessBlank {r : Input} {i : DataInput}
    (h : r.toDataInputUnlessBlank = .ok (some i)) : Text.isBlankText i.path = false := by
  unfold Input.toDataInputUnlessBlank at h
  split at h
  · cases h
  · next hb =>
    obtain ⟨di, hdi, hi⟩ := Except.fmap_eq_ok.1 h
    cases hi
    have hu : i.path = r.uri := congrArg Input.uri (Input.toWire_of_toDataInput hdi)
    rw [hu]
    exact Bool.eq_false_iff.2 hb

theorem Task.filter_of_toData {t : Task} {data : DataSettings} (h : t.toData = .ok data) :
    (data.validationData.filter fun i => !Text.isBlankText i.path) = data.validationData := by
  simp only [toData, Except.bind_eq_ok, Except.pure_eq_ok] at h
  obtain ⟨_, -, validation, hv, _, -, _, -, rfl⟩ := h
  rcases Except.mapM_option_eq_ok.1 hv with ⟨-, rfl⟩ | ⟨r, oi, -, hr, rfl⟩
  · rfl
  · cases oi with
    | none => rfl
    | some i => exact Option.filter_some_pos (by simp [isBlankText_of_toDataInputUnlessBlank hr])

end Wire

namespace Job

/-- What is not sent is not in the payload. -/
theorem toPayload_sent (job : Job) : job.sent.toPayload = job.toPayload := by
  have hv : (job.data.validationData.filter fun i => !Text.isBlankText i.path).bind
      DataInput.toWireUnlessBlank? = job.data.validationData.bind DataInput.toWireUnlessBlank? := by
    cases job.data.validationData with
    | none => rfl
    | some i =>
      cases hb : Text.isBlankText i.path with
      | true =>
        rw [Option.filter_some_neg (by simp [hb])]
        simp [DataInput.toWireUnlessBlank?, hb]
      | false => rw [Option.filter_some_pos (by simp [hb])]
  simp only [toPayload, toProperties, toTask, sent, data] at hv ⊢
  rw [hv]

/-- Importing a payload and exporting the job puts the payload in normal form; importing that again
gives an equal job and the same payload. -/
theorem toPayload_of_ofPayload {p : Wire.Payload} {job : Job} (h : ofPayload p = .ok job) :
    job.toPayload = p.canonical ∧
      ∃ job', ofPayload job.toPayload = .ok job' ∧ job'.toPayload = job.toPayload ∧
        ((∀ x ∈ job.floats, Decimal.isNaN x = false) → (job' == job) = true) := by
  have hp := ofPayload_eq_ok_iff.1 h
  refine ⟨hp.toPayload, job.sent, ofPayload_toPayload (sound_of_ofPayload h), job.toPayload_sent,
    fun hnan => ?_⟩
  have hkept : job.sent = { job with metadata := job.sent.metadata } := by
    simp only [sent, Wire.Task.filter_of_toData hp.data]
    rfl
  rw [hkept]
  exact same_self hnan

/-- The status and blank validation data are dropped, a timeout loses its half minute, and the metric
and the verbosity are respelled. -/
theorem toPayload_of_ofPayload_blank :
    ∃ job, ofPayload {
        name := some "j"
        properties := {
          type := "AutoML"
          status := some "Running"
          task := {
            type := "Forecasting"
            trainingData := some { type := "MLTable", uri := "azureml:d:1" }
            validationData := some { type := "mltable", uri := " " }
            limits := some { timeout := some "PT90S" }
            logVerbosity := some "debug" } } } = .ok job ∧
      job.toPayload = {
        name := some "j"
        properties := {
          type := "AutoML"
          task := {
            type := "Forecasting"
            trainingData := some { type := "mltable", uri := "azureml:d:1" }
            limits := some { timeout := some "PT1M" }
            metric := some "NormalizedRootMeanSquaredError"
            logVerbosity := some "Debug" } } } ∧
      ∃ job', ofPayload job.toPayload = .ok job' ∧ job'.toPayload = job.toPayload ∧
        (job' == job) = true := by
  obtain ⟨job, h⟩ : ∃ job, ofPayload {
      name := some "j"
      properties := {
        type := "AutoML"
        status := some "Running"
        task := {
          type := "Forecasting"
          trainingData := some { type := "MLTable", uri := "azureml:d:1" }
          validationData := some { type := "mltable", uri := " " }
          limits := some { timeout := some "PT90S" }
          logVerbosity := some "debug" } } } = .ok job := ⟨_, rfl⟩
  obtain ⟨hcanonical, job', hread, hfixed, hsame⟩ := toPayload_of_ofPayload h
  refine ⟨job, h, hcanonical.trans rfl, job', hread, hfixed, hsame ?_⟩
  cases h
  exact fun x hx => nomatch hx

end Job

end ForecastJob
