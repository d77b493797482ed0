import ForecastJob.Proofs.Equality
import ForecastJob.Proofs.Reachable

/-!
# Equal jobs have equal tasks

Two jobs are equal if they train the same, whatever their metadata; NaN is not equal to itself. The
details of the task in a payload say as much.

* `Reflects` : what is made of two values is equal just if they are;
* `DataInput.reflects_toWire`, `TrainingSettings.reflects_toWire`, … : so it is with what the
  service writes for the records of a job;
* `Job.Reachable.beq_eq_beq_task` : jobs are equal just if the details of their tasks are.
-/

namespace ForecastJob

variable {α β : Type}

/-- What is made of two values is equal just if the values are. -/
def Reflects [BEq α] [BEq β] (f : α → β) : Prop :=
  ∀ a b, (f a == f b) = (a == b)

namespace Reflects

/-- What can be read back tells values apart. -/
theorem of_read [BEq α] [LawfulBEq α] [BEq β] [LawfulBEq β] {ε : Type} {f : α → β}
    {g : β → Except ε α} (h : ∀ a, g (f a) = .ok a) : Reflects f := by
  intro a b
  have hinj : f a = f b ↔ a = b := by
    refine ⟨fun hab => ?_, congrArg f⟩
    have ha := h a
    rw [hab, h b] at ha
    exact (Except.ok.inj ha).symm
  rw [Bool.eq_iff_iff, beq_iff_eq, beq_iff_eq, hinj]

variable [BEq α] [BEq β] {f : α → β}

theorem option (h : Reflects f) : Reflects (Option.map f) := by
  intro a b
  cases a <;> cases b <;> first | rfl | exact h _ _

theorem list (h : Reflects f) : Reflects (List.map f) := by
  intro as
  induction as with
  | nil => intro bs; cases bs <;> rfl
  | cons a as ih =>
    intro bs
    cases bs with
    | nil => rfl
    | cons b bs =>
      rw [List.map_cons, List.map_cons, List.cons_beq_cons, List.cons_beq_cons, h, ih]

theorem dict (h : Reflects f) : Reflects (Dict.map f) := by
  have hentry : Reflects fun e : String × α => (e.1, f e.2) := by
    intro e e'
    show (e.1 == e'.1 && f e.2 == f e'.2) = (e.1 == e'.1 && e.2 == e'.2)
    rw [h]
  exact fun d e => hentry.list d.entries e.entries

end Reflects

/-! ## Values -/

theorem Choice.reflects_wire [Choice α] [DecidableEq α] [LawfulChoice α] :
    Reflects (Choice.wire : α → String) :=
  .of_read Wire.choiceOf_wire

theorem Wire.reflects_widen : Reflects Wire.widen :=
  .of_read (Wire.unsignedOf_widen "")

theorem Wire.reflects_toInt64 : Reflects Int32.toInt64 :=
  .of_read (Wire.signedOf_toInt64 "")

theorem Duration.reflects_formatSeconds : Reflects Duration.formatSeconds :=
  .of_read Duration.parseSeconds_formatSeconds

theorem Duration.reflects_formatMinutes : Reflects Duration.formatMinutes :=
  .of_read Duration.parseMinutes_formatMinutes

theorem AutoOr.reflects_toWire : Reflects AutoOr.toWire :=
  .of_read (Wire.ModeValue.toAutoOr_toWire "")

theorem DataInput.reflects_toWire : Reflects DataInput.toWire :=
  .of_read Wire.Input.toDataInput_toWire

/-! ## Settings -/

theorem ForecastingSettings.reflects_toWire : Reflects ForecastingSettings.toWire :=
  .of_read Wire.Forecasting.toSettings_toWire

theorem StackEnsembleSettings.reflects_toWire : Reflects StackEnsembleSettings.toWire := by
  rintro ⟨learner, percentage, arguments⟩ ⟨learner', percentage', arguments'⟩
  show (learner.map Choice.wire == learner'.map Choice.wire && _) = (learner == learner' && _)
  rw [Choice.reflects_wire.option]

theorem TrainingSettings.reflects_toWire : Reflects TrainingSettings.toWire := by
  rintro ⟨onnx, dnn, explain, stack, vote, settings, timeout, allowed, blocked, mode⟩
    ⟨onnx', dnn', explain', stack', vote', settings', timeout', allowed', blocked', mode'⟩
  show (onnx == onnx' && (dnn == dnn' && (explain == explain' && (stack == stack' &&
    (vote == vote' && (settings.map StackEnsembleSettings.toWire ==
      settings'.map StackEnsembleSettings.toWire && (timeout.map Duration.formatSeconds ==
        timeout'.map Duration.formatSeconds && (allowed == allowed' && (blocked == blocked' &&
          mode.map Choice.wire == mode'.map Choice.wire))))))))) = _
  rw [StackEnsembleSettings.reflects_toWire.option, Duration.reflects_formatSeconds.option,
    Choice.reflects_wire.option]
  rfl

theorem LimitSettings.reflects_toWire : Reflects LimitSettings.toWire := by
  rintro ⟨early, score, trials, cores, nodes, maxTrials, timeout, trialTimeout⟩
    ⟨early', score', trials', cores', nodes', maxTrials', timeout', trialTimeout'⟩
  show (early == early' && (score == score' && (trials.map Wire.widen == trials'.map Wire.widen &&
    (cores.map Int32.toInt64 == cores'.map Int32.toInt64 &&
      (nodes.map Wire.widen == nodes'.map Wire.widen &&
        (maxTrials.map Wire.widen == maxTrials'.map Wire.widen &&
          (timeout.map Duration.formatMinutes == timeout'.map Duration.formatMinutes &&
            trialTimeout.map Duration.formatMinutes ==
              trialTimeout'.map Duration.formatMinutes))))))) = _
  simp only [Wire.reflects_widen.option _ _, Wire.reflects_toInt64.option _ _,
    Duration.reflects_formatMinutes.option _ _]
  rfl

theorem ColumnTransformer.reflects_toWire : Reflects ColumnTransformer.toWire :=
  fun _ _ => rfl

theorem FeaturizationSettings.reflects_toWire : Reflects FeaturizationSettings.toWire := by
  rintro ⟨mode, blocked, types, language, parameters, dnn⟩
    ⟨mode', blocked', types', language', parameters', dnn'⟩
  show (mode.map Choice.wire == mode'.map Choice.wire && (blocked == blocked' &&
    (types == types' && (language == language' &&
      (parameters.map (Dict.map (List.map ColumnTransformer.toWire)) ==
        parameters'.map (Dict.map (List.map ColumnTransformer.toWire)) && dnn == dnn'))))) = _
  rw [Choice.reflects_wire.option, ColumnTransformer.reflects_toWire.list.dict.option]
  rfl

/-! ## Jobs -/

theorem Wire.Task.beq_eq (s t : Task) : (s == t) =
    (s.type == t.type && (s.targetColumn == t.targetColumn && (s.trainingData == t.trainingData &&
      (s.validationData == t.validationData && (s.validationSize == t.validationSize &&
        (s.testData == t.testData && (s.testSize == t.testSize &&
          (s.weightColumn == t.weightColumn && (s.cvSplitColumns == t.cvSplitColumns &&
            (s.crossValidations == t.crossValidations && (s.featurization == t.featurization &&
              (s.limits == t.limits && (s.training == t.training && (s.metric == t.metric &&
                (s.logVerbosity == t.logVerbosity &&
                  s.forecasting == t.forecasting))))))))))))))) := rfl

/-- Metrics that jobs can have tell themselves apart. -/
theorem Metric.wire_beq {m m' : Metric} (h : m.Sound) (h' : m'.Sound) :
    (m.wire == m'.wire) = (m == m') := by
  rw [Bool.eq_iff_iff, beq_iff_eq, beq_iff_eq]
  refine ⟨fun hm => ?_, congrArg wire⟩
  have hread := ofText_wire h
  rw [hm, ofText_wire h'] at hread
  exact (Except.ok.inj hread).symm

/-- Validation data with a path is sent as all data is. -/
theorem DataInput.bind_toWireUnlessBlank? {o : Option DataInput}
    (h : ∀ i ∈ o, Text.isBlankText i.path = false) :
    o.bind toWireUnlessBlank? = o.map toWire := by
  cases o with
  | none => rfl
  | some i => simp [toWireUnlessBlank?, h i rfl]

namespace Job

variable {a b : Job}

/-- The details of two tasks are equal just if the jobs are. -/
theorem toTask_beq (ha : a.metric.Sound) (hb : b.metric.Sound)
    (hva : ∀ i ∈ a.data.validationData, Text.isBlankText i.path = false)
    (hvb : ∀ i ∈ b.data.validationData, Text.isBlankText i.path = false) :
    (a.toTask == b.toTask) = (a == b) := by
  have hmetric := Metric.wire_beq ha hb
  have hva := DataInput.bind_toWireUnlessBlank? hva
  have hvb := DataInput.bind_toWireUnlessBlank? hvb
  rw [Wire.Task.beq_eq, Job.beq_eq, DataSettings.beq_eq]
  simp only [toTask, Option.some_beq_some]
  rw [hva, hvb, hmetric, DataInput.reflects_toWire.option, DataInput.reflects_toWire.option,
    DataInput.reflects_toWire.option, AutoOr.reflects_toWire.option,
    FeaturizationSettings.reflects_toWire.option, LimitSettings.reflects_toWire.option,
    TrainingSettings.reflects_toWire.option, Choice.reflects_wire,
    ForecastingSettings.reflects_toWire.option, beq_self_eq_true, Bool.true_and]
  -- a payload has the same fields in another order
  ac_rfl

namespace Reachable

/-- Jobs whose validation data has a path are equal just if the details of their tasks are; what
these are does not depend on the metadata, and NaN makes them unequal. -/
theorem beq_eq_beq_task (ha : a.Reachable) (hb : b.Reachable)
    (hva : ∀ i ∈ a.data.validationData, Text.isBlankText i.path = false)
    (hvb : ∀ i ∈ b.data.validationData, Text.isBlankText i.path = false) :
    (a == b) = (a.toPayload.properties.task == b.toPayload.properties.task) ∧
    (∀ metadata, (({ a with metadata } : Job) == b) = (a == b) ∧
      ({ a with metadata } : Job).toPayload.properties.task = a.toPayload.properties.task) ∧
    ((∃ x ∈ a.floats ++ b.floats, Decimal.isNaN x = true) →
      (a == b) = false ∧ (a.toPayload.properties.task == b.toPayload.properties.task) = false) := by
  have htask : (a == b) = (a.toPayload.properties.task == b.toPayload.properties.task) :=
    (toTask_beq ha.sound hb.sound hva hvb).symm
  refine ⟨htask, fun metadata => ⟨rfl, rfl⟩, fun ⟨x, hx, hnan⟩ => ?_⟩
  rw [← htask, and_self]
  refine Bool.eq_false_iff.2 fun heq => ?_
  rw [isNaN_of_beq heq x hx] at hnan
  exact Bool.false_ne_true hnan

/-- A job that is renamed is still sent with the same task. -/
theorem beq_eq_beq_task_renamed :
    ∃ a b : Job, a.Reachable ∧ b.Reachable ∧ a.metadata.name ≠ b.metadata.name ∧
      a.metric = .deferred "$\x7b\x7bparent.inputs.m\x7d\x7d" ∧
      (a == b) = true ∧ (a.toPayload.properties.task == b.toPayload.properties.task) = true := by
  obtain ⟨a, ha, hname, hmetric, hvalidation, hfloats⟩ : ∃ a : Job, a.Reachable ∧
      a.metadata.name = some "run" ∧ a.metric = .deferred "$\x7b\x7bparent.inputs.m\x7d\x7d" ∧
      a.data.validationData = some { path := "azureml:d:1" } ∧ a.floats = [] :=
    ⟨_, @Reachable.new {
      metric := some "$\x7b\x7bparent.inputs.m\x7d\x7d"
      metadata := { name := some "run" }
      data := { validationData := some { path := "azureml:d:1" } } } _ rfl, rfl, rfl, rfl, rfl⟩
  have hpath : ∀ i ∈ a.data.validationData, Text.isBlankText i.path = false := by
    rw [hvalidation]
    rintro _ ⟨⟩
    rfl
  have hself : (a == a) = true := same_self (by simp [hfloats])
  have hequal := beq_eq_beq_task ha (ha.withMetadata {}) hpath hpath
  refine ⟨a, { a with metadata := {} }, ha, ha.withMetadata {}, ?_, hmetric, hself, ?_⟩
  · simp [hname]
  · rw [← hequal.1]
    exact hself

end Reachable

end Job

end ForecastJob
