import ForecastJob.Proofs.Nulls
import ForecastJob.Proofs.Stability
import ForecastJob.Proofs.Wire.Forms
import ForecastJob.Wire.Text

/-!
# Payloads are sent as they are

* `Payload.floats`, `Payload.arguments` : what can keep a payload from being sent as it is: numbers
  that are not finite, and free-form arguments that are null;
* `Payload.MayBeNull` : where a payload can have nulls;
* `Payload.read_toJson`, `Payload.stable` : a payload without such numbers and arguments is read as it
  was, and so is one that was read before;
* `Payload.read_normal_toJson` : both, and where the nulls are.
-/

namespace ForecastJob.Wire

open Passage (payload)

/-! ## Numbers and arguments -/

def Training.floats (s : Training) : List Float :=
  (s.stackEnsembleSettings.bind (·.trainPercentage)).toList

def Training.arguments (s : Training) : List FreeForm :=
  (s.stackEnsembleSettings.bind (·.arguments)).toList

def Featurization.arguments (s : Featurization) : List FreeForm :=
  s.transformerParameters.toList.flatMap fun d => d.entries.flatMap fun e =>
    e.2.filterMap (·.parameters)

/-- The floating point numbers of a payload. -/
def Payload.floats (p : Payload) : List Float :=
  let task := p.properties.task
  task.validationSize.toList ++ task.testSize.toList ++
    (task.limits.bind (·.exitScore)).toList ++ task.training.toList.flatMap (·.floats)

/-- The free-form arguments of a payload, for transformers and for the meta-learner. -/
def Payload.arguments (p : Payload) : List FreeForm :=
  p.properties.task.featurization.toList.flatMap (·.arguments) ++
    p.properties.task.training.toList.flatMap (·.arguments)

/-! ## What was written -/

theorem Training.carries_of_finite {s : Training}
    (hf : ∀ x ∈ s.floats, Decimal.isFinite x = true)
    (ha : ∀ v ∈ s.arguments, v.json.isNull = false) : payload.Carries record.codec s s := by
  refine carries fun e he => ?_
  simp only [floats, arguments, Option.mem_def.1 he, Option.bind_some, Option.mem_toList] at hf ha
  exact StackEnsemble.carries hf ha

theorem Featurization.mem_arguments {s : Featurization} {v : FreeForm} :
    v ∈ s.arguments ↔
      ∃ d ∈ s.transformerParameters, ∃ e ∈ d.entries, ∃ t ∈ e.2, v ∈ t.parameters := by
  simp only [arguments, List.mem_flatMap, Option.mem_toList, List.mem_filterMap, Option.mem_def]

theorem Featurization.carries_of_ne_null {s : Featurization}
    (ha : ∀ v ∈ s.arguments, v.json.isNull = false) : payload.Carries record.codec s s :=
  carries fun d hd e he t ht => Transformer.carries fun v hv =>
    ha v (mem_arguments.2 ⟨d, hd, e, he, t, ht, hv⟩)

/-- What keeps a payload from being sent as it is, by the records that hold it. -/
theorem Payload.forall_floats_arguments {p : Payload} {P : Float → Prop} {Q : FreeForm → Prop} :
    ((∀ x ∈ p.floats, P x) ∧ ∀ v ∈ p.arguments, Q v) ↔
      (∀ x ∈ p.properties.task.validationSize, P x) ∧ (∀ x ∈ p.properties.task.testSize, P x) ∧
      (∀ s ∈ p.properties.task.featurization, ∀ v ∈ s.arguments, Q v) ∧
      (∀ s ∈ p.properties.task.limits, ∀ x ∈ s.exitScore, P x) ∧
      ∀ s ∈ p.properties.task.training, (∀ x ∈ s.floats, P x) ∧ ∀ v ∈ s.arguments, Q v := by
  simp only [floats, arguments, List.forall_mem_append, List.forall_mem_flatMap,
    Option.mem_toList]
  cases p.properties.task.limits <;> cases p.properties.task.training <;> simp <;> tauto

/-- A payload is read as it was written. -/
theorem Payload.read_toJson {p : Payload} (hf : ∀ x ∈ p.floats, Decimal.isFinite x = true)
    (ha : ∀ v ∈ p.arguments, v.json.isNull = false) :
    record.read p.toJson.normal.toTree = .ok p := by
  obtain ⟨hv, ht, hs, hl, hm⟩ := forall_floats_arguments.1 ⟨hf, ha⟩
  have hcarries : payload.Carries record.codec p p :=
    carries (Properties.carries (Task.carries hv ht
      (fun s h => Featurization.carries_of_ne_null (hs s h))
      (fun s h => Limits.carries (hl s h))
      fun s h => Training.carries_of_finite (hm s h).1 (hm s h).2))
  obtain ⟨v, hv, -, hread⟩ := hcarries
  cases hv
  exact hread

/-! ## What was read -/

instance : StackEnsemble.record.codec.Stable :=
  Record.stable (by simp [StackEnsemble.record]) (by simp [StackEnsemble.record])

instance : Training.record.codec.Stable :=
  Record.stable (by simp [Training.record]) (by simp [Training.record])

instance : Limits.record.codec.Stable :=
  Record.stable (by simp [Limits.record]) (by simp [Limits.record])

instance : Transformer.record.codec.Stable :=
  Record.stable (by simp [Transformer.record]) (by simp [Transformer.record])

instance : Featurization.record.codec.Stable :=
  Record.stable (by simp [Featurization.record]) (by simp [Featurization.record])

instance : Task.record.codec.Stable :=
  Record.stable (by simp [Task.record]) (by simp [Task.record])

instance : Properties.record.codec.Stable := by
  have hblank : payload.Carries Task.record.codec {} {} :=
    Task.carries (by simp) (by simp) (by simp) (by simp) (by simp)
  have htext := fun s => (Codec.text.carries_self payload s).deliver_eq
  exact Record.stable
    (by simp [Properties.record, hblank, Passage.payload_deliver_freeForm,
      Passage.payload_deliver_nullable])
    (by simp [Properties.record, htext, Passage.payload_deliver_freeForm,
      Passage.payload_deliver_nullable])

instance Payload.stable : record.codec.Stable := by
  have hblank : payload.Carries Properties.record.codec {} {} :=
    Properties.carries (Task.carries (by simp) (by simp) (by simp) (by simp) (by simp))
  exact Record.stable (by simp [record, hblank]) (by simp [record])

/-! ## Nulls -/

/-- Where a payload can have nulls: for an output that the service has not resolved, anywhere in the
data of a service, and within free-form arguments. -/
inductive Payload.MayBeNull : List Step → Prop
  | output (k : String) : MayBeNull [.key "properties", .key "outputs", .key k]
  | service (k : String) (path : List Step) :
      MayBeNull (.key "properties" :: .key "services" :: .key k :: path)
  | learner (step : Step) (path : List Step) :
      MayBeNull (.key "properties" :: .key "taskDetails" :: .key "trainingSettings" ::
        .key "stackEnsembleSettings" :: .key "stackMetaLearnerKWargs" :: step :: path)
  | transformer (k : String) (step : Step) (path : List Step) :
      MayBeNull (.key "properties" :: .key "taskDetails" :: .key "featurizationSettings" ::
        .key "transformerParams" :: .key k :: .item :: .key "parameters" :: step :: path)

instance : SystemData.record.codec.NullFree where
  nullsIn _ := Record.nullsIn_write.2 (by simp [SystemData.record])

instance : Output.record.codec.NullFree where
  nullsIn _ := Record.nullsIn_write.2 (by simp [Output.record])

instance : Resources.record.codec.NullFree where
  nullsIn _ := Record.nullsIn_write.2 (by simp [Resources.record])

instance : Queue.record.codec.NullFree where
  nullsIn _ := Record.nullsIn_write.2 (by simp [Queue.record])

instance : Input.record.codec.NullFree where
  nullsIn _ := Record.nullsIn_write.2 (by simp [Input.record])

instance : ManagedIdentity.record.codec.NullFree where
  nullsIn _ := Record.nullsIn_write.2 (by simp [ManagedIdentity.record])

instance : Identity.codec.NullFree where
  nullsIn
    | .amlToken => Union.nullsIn_write.2 (List.forall_mem_nil _)
    | .managed _ => Union.nullsIn_write.2 Record.nullsIn_of_mem_members
    | .userIdentity => Union.nullsIn_write.2 (List.forall_mem_nil _)

instance : ModeValue.customRecord.codec.NullFree where
  nullsIn _ := Record.nullsIn_write.2 (by simp [ModeValue.customRecord])

instance : ModeValue.codec.NullFree where
  nullsIn
    | .auto => Union.nullsIn_write.2 (List.forall_mem_nil _)
    | .custom _ => Union.nullsIn_write.2 Record.nullsIn_of_mem_members

instance : Lags.customRecord.codec.NullFree where
  nullsIn _ := Record.nullsIn_write.2 (by simp [Lags.customRecord])

instance : Lags.codec.NullFree where
  nullsIn
    | .auto => Union.nullsIn_write.2 (List.forall_mem_nil _)
    | .custom _ => Union.nullsIn_write.2 Record.nullsIn_of_mem_members

instance : Forecasting.record.codec.NullFree where
  nullsIn _ := Record.nullsIn_write.2 (by simp [Forecasting.record])

section Places

variable {places : List Step → Prop}

theorem StackEnsemble.nullsIn_write {s : StackEnsemble}
    (hf : ∀ x ∈ s.trainPercentage, Decimal.isFinite x = true)
    (ha : ∀ v ∈ s.arguments, v.json.isNull = false)
    (hp : ∀ step path, places (.key "stackMetaLearnerKWargs" :: step :: path)) :
    (record.codec.write s).NullsIn places := by
  have hshare := Codec.nullsIn_floats (fun path =>
    places (.key "stackMetaLearnerTrainPercentage" :: path)) hf
  have harguments := Codec.nullsIn_freeForms ha hp
  refine Record.nullsIn_write.2 ?_
  simpa [record] using And.intro hshare harguments

theorem Training.nullsIn_write {s : Training} (hf : ∀ x ∈ s.floats, Decimal.isFinite x = true)
    (ha : ∀ v ∈ s.arguments, v.json.isNull = false)
    (hp : ∀ step path, places
      (.key "stackEnsembleSettings" :: .key "stackMetaLearnerKWargs" :: step :: path)) :
    (record.codec.write s).NullsIn places := by
  have hensemble : ∀ e ∈ s.stackEnsembleSettings, (StackEnsemble.record.codec.write e).NullsIn
      fun path => places (.key "stackEnsembleSettings" :: path) := by
    intro e he
    simp only [floats, arguments, Option.mem_def.1 he, Option.bind_some, Option.mem_toList] at hf ha
    exact StackEnsemble.nullsIn_write hf ha hp
  refine Record.nullsIn_write.2 ?_
  simpa [record] using hensemble

theorem Limits.nullsIn_write {s : Limits} (hf : ∀ x ∈ s.exitScore, Decimal.isFinite x = true) :
    (record.codec.write s).NullsIn places := by
  have hscore := Codec.nullsIn_floats (fun path => places (.key "exitScore" :: path)) hf
  refine Record.nullsIn_write.2 ?_
  simpa [record] using hscore

theorem Transformer.nullsIn_write {t : Transformer}
    (ha : ∀ v ∈ t.parameters, v.json.isNull = false)
    (hp : ∀ step path, places (.key "parameters" :: step :: path)) :
    (record.codec.write t).NullsIn places := by
  have hparameters := Codec.nullsIn_freeForms ha hp
  refine Record.nullsIn_write.2 ?_
  simpa [record] using hparameters

theorem Featurization.nullsIn_write {s : Featurization}
    (ha : ∀ v ∈ s.arguments, v.json.isNull = false)
    (hp : ∀ k step path, places
      (.key "transformerParams" :: .key k :: .item :: .key "parameters" :: step :: path)) :
    (record.codec.write s).NullsIn places := by
  have htransformers : ∀ d ∈ s.transformerParameters, ∀ e ∈ d.entries, ∀ t ∈ e.2,
      (Transformer.record.codec.write t).NullsIn fun path =>
        places (.key "transformerParams" :: .key e.1 :: .item :: path) :=
    fun d hd e he t ht => Transformer.nullsIn_write
      (fun v hv => ha v (mem_arguments.2 ⟨d, hd, e, he, t, ht, hv⟩)) (hp e.1)
  refine Record.nullsIn_write.2 ?_
  simpa [record] using htransformers

theorem Task.nullsIn_write {t : Task}
    (hv : ∀ x ∈ t.validationSize, Decimal.isFinite x = true)
    (ht : ∀ x ∈ t.testSize, Decimal.isFinite x = true)
    (hf : ∀ s ∈ t.featurization, (Featurization.record.codec.write s).NullsIn fun path =>
      places (.key "featurizationSettings" :: path))
    (hl : ∀ s ∈ t.limits, (Limits.record.codec.write s).NullsIn fun path =>
      places (.key "limitSettings" :: path))
    (hs : ∀ s ∈ t.training, (Training.record.codec.write s).NullsIn fun path =>
      places (.key "trainingSettings" :: path)) : (record.codec.write t).NullsIn places := by
  have hv := Codec.nullsIn_floats (fun path => places (.key "validationDataSize" :: path)) hv
  have ht := Codec.nullsIn_floats (fun path => places (.key "testDataSize" :: path)) ht
  refine Record.nullsIn_write.2 ?_
  simpa [record] using And.intro hv (And.intro ht (And.intro hf (And.intro hl hs)))

end Places

/-- In a payload, only an output can be null, or something in free-form data. -/
theorem Payload.nullsIn_write {p : Payload} (hf : ∀ x ∈ p.floats, Decimal.isFinite x = true)
    (ha : ∀ v ∈ p.arguments, v.json.isNull = false) : (record.write p).NullsIn MayBeNull := by
  obtain ⟨hv, ht, hs, hl, hm⟩ := forall_floats_arguments.1 ⟨hf, ha⟩
  have htask : (Task.record.codec.write p.properties.task).NullsIn fun path =>
      MayBeNull (.key "properties" :: .key "taskDetails" :: path) :=
    Task.nullsIn_write hv ht
      (fun s h => Featurization.nullsIn_write (hs s h) MayBeNull.transformer)
      (fun s h => Limits.nullsIn_write (hl s h))
      fun s h => Training.nullsIn_write (hm s h).1 (hm s h).2 MayBeNull.learner
  have hservices : ∀ e ∈ p.properties.services.entries, (Codec.freeForm.write e.2).NullsIn
      fun path => MayBeNull (.key "properties" :: .key "services" :: .key e.1 :: path) :=
    fun e _ path _ _ _ => .service e.1 path
  have houtputs : ∀ e ∈ p.properties.outputs.entries,
      (Output.record.codec.nullable.write e.2).NullsIn fun path =>
        MayBeNull (.key "properties" :: .key "outputs" :: .key e.1 :: path) :=
    fun e _ => Codec.nullsIn_nullable_write fun h => .output e.1
  have hproperties : (Properties.record.codec.write p.properties).NullsIn fun path =>
      MayBeNull (.key "properties" :: path) := by
    refine Record.nullsIn_write.2 ?_
    simpa [Properties.record] using And.intro hservices (And.intro houtputs htask)
  refine Record.nullsIn_write.2 ?_
  simpa [record] using hproperties

/-! ## Both ways -/

namespace Payload

/-- A payload whose numbers are finite and whose arguments are not null is read as it was written, and
has nulls only for outputs and in free-form data. A payload that was read from JSON, whatever it has,
is sent and read as it was. -/
theorem read_normal_toJson :
    (∀ p : Payload, (∀ x ∈ p.floats, Decimal.isFinite x = true) →
      (∀ v ∈ p.arguments, v.json.isNull = false) →
      record.read p.toJson.normal.toTree = .ok p ∧
        ∀ path, p.toJson.normal.At path .null → MayBeNull path) ∧
    ∀ v : Json, v.isNormal = true → ∀ p, record.read v.toTree = .ok p →
      record.read p.toJson.normal.toTree = .ok p := by
  refine ⟨fun p hf ha => ⟨read_toJson hf ha, fun path => (nullsIn_write hf ha).of_normal⟩, ?_⟩
  intro v hv p hp
  obtain ⟨w, hw, -, hread⟩ := stable.carries (Json.within_sendable hv) hp
  cases hw
  exact hread

/-- An output that is not resolved is sent as null, and an argument with a null in it keeps it; texts
that spell no choice are sent as they are. -/
theorem read_normal_toJson_unresolved :
    ∃ (p : Payload) (v : Json), p = { properties := {
          type := "AutoML"
          outputs := Dict.empty.insert "model" none
          task := {
            type := "Forecasting"
            testSize := some 0.25
            metric := some "unheard_of"
            training := some { stackEnsembleSettings := some {
              arguments := FreeForm.ofJson? (.object [("depth", .null)]) } } } } } ∧
      v = Json.object [("properties", .object [
          ("jobType", .text "AutoML"), ("outputs", .object [("model", .null)]),
          ("taskDetails", .object [("primaryMetric", .text "unheard_of"),
            ("taskType", .text "Forecasting"), ("testDataSize", .float 0.25),
            ("trainingSettings", .object [("stackEnsembleSettings", .object [
              ("stackMetaLearnerKWargs", .object [("depth", .null)])])])])])] ∧
      p.toJson.normal = v ∧ record.read v.toTree = .ok p ∧
      (∀ path, v.At path .null → MayBeNull path) ∧
      v.isNormal = true ∧ record.read p.toJson.normal.toTree = .ok p := by
  obtain ⟨p, hp⟩ : ∃ p : Payload, p = { properties := {
      type := "AutoML"
      outputs := Dict.empty.insert "model" none
      task := {
        type := "Forecasting"
        testSize := some 0.25
        metric := some "unheard_of"
        training := some { stackEnsembleSettings := some {
          arguments := FreeForm.ofJson? (.object [("depth", .null)]) } } } } } := ⟨_, rfl⟩
  have hf : ∀ x ∈ p.floats, Decimal.isFinite x = true := by
    subst hp
    show ∀ x ∈ [0.25], Decimal.isFinite x = true
    simp only [List.forall_mem_singleton]
    decide +kernel
  have ha : ∀ v ∈ p.arguments, v.json.isNull = false := by
    subst hp
    show ∀ v ∈ [(⟨.object [("depth", .null)], rfl⟩ : FreeForm)], v.json.isNull = false
    simp only [List.forall_mem_singleton]
    rfl
  obtain ⟨hread, hnulls⟩ := read_normal_toJson.1 p hf ha
  have hsent : p.toJson.normal = .object [("properties", .object [
      ("jobType", .text "AutoML"), ("outputs", .object [("model", .null)]),
      ("taskDetails", .object [("primaryMetric", .text "unheard_of"),
        ("taskType", .text "Forecasting"), ("testDataSize", .float 0.25),
        ("trainingSettings", .object [("stackEnsembleSettings", .object [
          ("stackMetaLearnerKWargs", .object [("depth", .null)])])])])])] := by
    subst hp
    with_unfolding_all rfl
  have hnormal : p.toJson.normal.isNormal = true := by
    rw [hsent]
    decide +kernel
  exact ⟨p, _, hp, rfl, hsent, hsent ▸ hread, hsent ▸ hnulls, hsent ▸ hnormal,
    read_normal_toJson.2 _ hnormal p hread⟩

end Payload

end ForecastJob.Wire
