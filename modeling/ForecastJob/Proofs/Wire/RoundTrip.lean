import ForecastJob.Proofs.Reachable
import ForecastJob.Proofs.Wire.Faithful

/-!
# A job survives being sent

* `Job.read_toPayload` : the payload of a job whose numbers are finite and whose arguments are not
  null is read back as it was written;
* `Job.Reachable.exists_read_ofPayload` : and it describes the job again.
-/

namespace ForecastJob

/-! ## Payloads of jobs -/

theorem TrainingSettings.floats_toWire (s : TrainingSettings) : s.toWire.floats = s.floats := by
  obtain ⟨_, _, _, _, _, _ | _, _, _, _, _⟩ := s <;> rfl

theorem TrainingSettings.arguments_toWire (s : TrainingSettings) :
    s.toWire.arguments = s.arguments := by
  obtain ⟨_, _, _, _, _, _ | _, _, _, _, _⟩ := s <;> rfl

theorem FeaturizationSettings.arguments_toWire (s : FeaturizationSettings) :
    s.toWire.arguments = s.arguments := by
  obtain ⟨_, _, _, _, _ | d, _⟩ := s
  · rfl
  · simp only [Wire.Featurization.arguments, arguments, toWire, Option.map_some,
      Option.toList_some, List.flatMap_singleton, Dict.entries_map, List.flatMap_map,
      List.filterMap_map]
    rfl

namespace Job

theorem floats_toPayload (job : Job) : job.toPayload.floats = job.floats := by
  have hlimits : (job.tabular.limits.map LimitSettings.toWire).bind (·.exitScore) =
      job.tabular.limits.bind (·.exitScore) := by cases job.tabular.limits <;> rfl
  have htraining : (job.tabular.training.map TrainingSettings.toWire).toList.flatMap (·.floats) =
      job.tabular.training.toList.flatMap (·.floats) := by
    cases job.tabular.training with
    | none => rfl
    | some s => simpa using s.floats_toWire
  simp only [Wire.Payload.floats, toPayload, toProperties, toTask, hlimits, htraining]
  rfl

theorem arguments_toPayload (job : Job) : job.toPayload.arguments = job.arguments := by
  simp only [Wire.Payload.arguments, arguments, toPayload, toProperties, toTask]
  cases job.tabular.featurization <;> cases job.tabular.training <;>
    simp [FeaturizationSettings.arguments_toWire, TrainingSettings.arguments_toWire]

/-- The payload of a job is read back as it was written. -/
theorem read_toPayload {job : Job} (hf : ∀ x ∈ job.floats, Decimal.isFinite x = true)
    (ha : ∀ v ∈ job.arguments, v.json.isNull = false) :
    Wire.Payload.record.read job.toPayload.toJson.normal.toTree = .ok job.toPayload :=
  Wire.Payload.read_toJson (job.floats_toPayload ▸ hf) (job.arguments_toPayload ▸ ha)

/-- The payload of a reachable job, sent as JSON and read again, describes the job in every field but
what is never sent. -/
theorem Reachable.exists_read_ofPayload {job : Job} (hr : job.Reachable)
    (hf : ∀ x ∈ job.floats, Decimal.isFinite x = true)
    (ha : ∀ v ∈ job.arguments, v.json.isNull = false) :
    ∃ p, Wire.Payload.record.read job.toPayload.toJson.normal.toTree = .ok p ∧
      Job.ofPayload p = .ok job.sent :=
  ⟨_, read_toPayload hf ha, ofPayload_toPayload hr.sound⟩

/-- A status and blank validation data are not sent; a deferred metric is. -/
theorem Reachable.exists_read_ofPayload_deferred :
    ∃ p, Wire.Payload.record.read (Job.toPayload {
        metadata := { name := some "j", status := some "Running" }
        tabular := { data := {
          trainingData := some { path := "azureml:d:1" }
          validationData := some { path := " " }
          testSize := some 0.25 } }
        metric := .deferred "$\x7b\x7bparent.inputs.m\x7d\x7d" }).toJson.normal.toTree = .ok p ∧
      Job.ofPayload p = .ok {
        metadata := { name := some "j" }
        tabular := { data := {
          trainingData := some { path := "azureml:d:1" }
          testSize := some 0.25 } }
        metric := .deferred "$\x7b\x7bparent.inputs.m\x7d\x7d" } :=
  Reachable.exists_read_ofPayload
    (@Reachable.new {
      metadata := { name := some "j", status := some "Running" }
      data := {
        trainingData := some { path := "azureml:d:1" }
        validationData := some { path := " " }
        testSize := some 0.25 }
      metric := some "$\x7b\x7bparent.inputs.m\x7d\x7d" } _ rfl)
    (by simp only [floats, data, Option.toList_none, Option.toList_some, Option.bind_none,
          List.flatMap_nil, List.append_nil, List.nil_append, List.forall_mem_singleton]
        decide +kernel)
    (by simp [arguments])

end Job

end ForecastJob
