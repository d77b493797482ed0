import ForecastJob.Proofs.Schema.RoundTrip

/-!
# What a document must have and a job need not

A document must have a target column and training data. A job need not: it may be created without
them, or imported from a payload that has none. Then its document cannot be loaded.

* `DataSettings.missing?` : the first such field that the data have nothing for;
* `Schema.load_of_missing` : loading the document fails with its name;
* `Job.Reachable.load_iff` : nothing else that loading asks for is ever missing.
-/

namespace ForecastJob

/-- The first field that a document must have and the data have nothing for. -/
def DataSettings.missing? (s : DataSettings) : Option String :=
  match s.targetColumn, s.trainingData with
  | none, _ => some "target_column_name"
  | some _, none => some "training_data"
  | some _, some _ => none

theorem DataSettings.missing?_eq_none_iff {s : DataSettings} :
    s.missing? = none ↔ s.targetColumn.isSome = true ∧ s.trainingData.isSome = true := by
  unfold missing?
  cases s.targetColumn <;> cases s.trainingData <;> simp

namespace Schema

variable {layout : Layout} {base name : String} {job : Job}

theorem JobDocument.toData_of_missing (h : job.data.missing? = some name) :
    (ofJob layout job).toData base = .error (.missingField name) := by
  unfold DataSettings.missing? at h
  cases ht : job.data.targetColumn with
  | none =>
    simp only [ht, Option.some.injEq] at h
    simp [toData, ofJob, ht, present, ← h, bind, Except.bind]
  | some target =>
    cases hd : job.data.trainingData with
    | none =>
      simp only [ht, hd, Option.some.injEq] at h
      simp [toData, ofJob, ht, hd, present, ← h, bind, Except.bind]
    | some input => simp [ht, hd] at h

/-- The fields that are written for a job pass every check before that of the data. -/
theorem JobDocument.toJob_of_missing (hm : job.metric.Sound)
    (hk : layout = .standalone → job.metric.isDeferred = false)
    (h : job.data.missing? = some name) :
    (ofJob layout job).toJob layout base = .error (.missingField name) := by
  have htype : require "type" (ofJob layout job).type jobType = .ok () :=
    require_eq_ok.2 (Text.sameIgnoringCase_self _)
  have htask : require "task" (ofJob layout job).task Schema.task = .ok () :=
    require_eq_ok.2 (Text.sameIgnoringCase_self _)
  have hfields : (ofJob layout job).checkFields layout = .ok () :=
    checkFields_eq_ok.2 fun hl => ⟨rfl, if_pos hl⟩
  have hmetric : (ofJob layout job).checkMetric layout = .ok () :=
    checkMetric_eq_ok.2 ⟨_, Metric.ofText_doc hm, hk⟩
  rw [toJob, htype, htask, hfields, hmetric, toData_of_missing h]
  rfl

/-- The document of a job that lacks a field cannot be loaded. -/
theorem load_of_missing {note : String} {d : Document} (hm : job.metric.Sound)
    (hd : dump layout job = .ok d) (h : job.data.missing? = some name) :
    load layout base note d = .error { cause := .missingField name, note } := by
  have hjob : (JobDocument.ofJob layout (job.finite.documented layout)).toJob layout base =
      .error (.missingField name) :=
    JobDocument.toJob_of_missing hm (dump_eq_ok_iff.1 hd).1 h
  rw [load, loadTree, read_of_dump hd, Except.mapError_ok, Except.ok_bind, hjob]
  rfl

end Schema

namespace Job

/-- The document of a reachable job can be loaded just if the job has a target column and training
data, and then describes the same metric and the same forecasting settings. Otherwise the failure
names what is missing. -/
theorem Reachable.load_iff {layout : Schema.Layout} {job : Job} {d : Document} (hr : job.Reachable)
    (h : Schema.dump layout job = .ok d) (note : String) :
    ((∃ job', Schema.load layout "." note d = .ok job') ↔
      job.data.targetColumn.isSome = true ∧ job.data.trainingData.isSome = true) ∧
    (∀ job', Schema.load layout "." note d = .ok job' →
      job'.metric = job.metric ∧ job'.forecasting = job.forecasting) ∧
    ∀ name, job.data.missing? = some name →
      Schema.load layout "." note d = .error { cause := .missingField name, note } := by
  have hmissing : ∀ name, job.data.missing? = some name →
      Schema.load layout "." note d = .error { cause := .missingField name, note } :=
    fun name => Schema.load_of_missing hr.sound h
  have hload : job.data.missing? = none →
      Schema.load layout "." note d = .ok (job.finite.documented layout) := by
    intro hnone
    obtain ⟨ht, hd⟩ := DataSettings.missing?_eq_none_iff.1 hnone
    exact Schema.load_of_dump hr.sound ht hd (fun i _ => Location.resolve_current i.path) h
  rw [← DataSettings.missing?_eq_none_iff]
  cases hm : job.data.missing? with
  | none =>
    have hload := hload hm
    refine ⟨⟨fun _ => rfl, fun _ => ⟨_, hload⟩⟩, fun job' hjob' => ?_, nofun⟩
    obtain rfl := Except.ok.inj (hload.symm.trans hjob')
    exact ⟨rfl, rfl⟩
  | some name =>
    have herror := hmissing name hm
    have hnot : ∀ job', Schema.load layout "." note d ≠ .ok job' := by
      intro job' hjob'
      exact nomatch herror.symm.trans hjob'
    refine ⟨⟨fun ⟨job', hjob'⟩ => (hnot job' hjob').elim, nofun⟩,
      fun job' hjob' => (hnot job' hjob').elim, ?_⟩
    rintro _ ⟨⟩
    exact herror

/-- The document of a job that was created without training data cannot be loaded. -/
theorem Reachable.load_iff_untrained :
    ∃ d, Schema.dump .node { tabular := { data := { targetColumn := some "y" } } } = .ok d ∧
      (¬∃ job', Schema.load .node "." "n" d = .ok job') ∧
      Schema.load .node "." "n" d = .error { cause := .missingField "training_data", note := "n" } := by
  have hr : Job.Reachable { tabular := { data := { targetColumn := some "y" } } } :=
    @Reachable.new { data := { targetColumn := some "y" } } _ rfl
  obtain ⟨d, hd⟩ : ∃ d, Schema.dump .node { tabular := { data := { targetColumn := some "y" } } } =
      .ok d := ⟨_, rfl⟩
  obtain ⟨hiff, -, hmissing⟩ := Reachable.load_iff hr hd "n"
  exact ⟨d, hd, fun h => Bool.false_ne_true (hiff.1 h).2, hmissing _ rfl⟩

/-- A payload without a target column can be imported, and the job dumped, but the document cannot be
loaded. -/
theorem exists_ofPayload_dump_load_error :
    ∃ p job d, Job.ofPayload p = .ok job ∧ Schema.dump .standalone job = .ok d ∧
      Schema.load .standalone "." "" d = .error { cause := .missingField "target_column_name" } :=
  ⟨{
      name := some "j"
      properties := {
        type := "AutoML"
        task := {
          type := "Forecasting"
          trainingData := some { type := "mltable", uri := "azureml:d:1" }
          forecasting := some { timeColumn := some "date" } } } },
    _, _, rfl, rfl, rfl⟩

end Job

end ForecastJob
