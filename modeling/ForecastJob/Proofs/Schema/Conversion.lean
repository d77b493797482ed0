import ForecastJob.Proofs.Content
import ForecastJob.Proofs.Outcome
import ForecastJob.Proofs.Spelling
import ForecastJob.Schema.Dump

/-!
# What is written into a document describes the job again

* `Schema.JobDocument.Describes` : what the fields of a document must satisfy to describe a given
  job;
* `Schema.JobDocument.toJob_ofJob` : the fields that are written for a job describe it, if it has
  nothing that a document cannot hold.
-/

namespace ForecastJob

theorem Text.sameIgnoringCase_self (s : String) : Text.sameIgnoringCase s s = true :=
  beq_self_eq_true _

namespace Schema

/-! ## Checks -/

theorem require_eq_ok {field value expected : String} {u : Unit} :
    require field value expected = .ok u ↔ Text.sameIgnoringCase value expected = true := by
  unfold require
  split <;> simp [*]

theorem present_eq_ok {α : Type} {name : String} {o : Option α} {x : α} :
    present name o = .ok x ↔ o = some x := by
  cases o <;> simp [present]

namespace JobDocument

theorem checkFields_eq_ok {layout : Layout} {d : JobDocument} {u : Unit} :
    d.checkFields layout = .ok u ↔
      (layout = .node → d.schema = none ∧ d.experimentName = none) := by
  cases layout with
  | standalone => simp [checkFields, pure, Except.pure]
  | node =>
    cases hs : d.schema <;> cases he : d.experimentName <;>
      simp [checkFields, hs, he, pure, Except.pure, throw, throwThe, MonadExceptOf.throw, bind,
        Except.bind]

theorem checkMetric_eq_ok {layout : Layout} {d : JobDocument} {u : Unit} :
    d.checkMetric layout = .ok u ↔ ∃ m, Metric.parse d.metric = .ok m ∧
      (layout = .standalone → m.isDeferred = false) := by
  simp only [checkMetric, Except.bind_eq_ok, Except.mapError_eq_ok]
  refine exists_congr fun m => and_congr_right fun _ => ?_
  cases m <;> cases layout <;>
    simp [Metric.isDeferred, pure, Except.pure, throw, throwThe, MonadExceptOf.throw]

/-- What the fields of a document must satisfy to describe a given job. -/
structure Describes (layout : Layout) (base : String) (d : JobDocument) (job : Job) : Prop where
  type : Text.sameIgnoringCase d.type jobType = true
  task : Text.sameIgnoringCase d.task Schema.task = true
  fields : layout = .node → d.schema = none ∧ d.experimentName = none
  metric : Metric.parse d.metric = .ok job.metric
  known : layout = .standalone → job.metric.isDeferred = false
  data : d.toData base = .ok job.data
  metadata : job.metadata = d.toMetadata
  featurization : job.tabular.featurization = d.featurization
  limits : job.tabular.limits = d.limits
  training : job.tabular.training = d.training
  logVerbosity : job.tabular.logVerbosity = d.logVerbosity
  forecasting : job.forecasting = d.forecasting

theorem toJob_eq_ok_iff {layout : Layout} {base : String} {d : JobDocument} {job : Job} :
    d.toJob layout base = .ok job ↔ d.Describes layout base job := by
  simp only [toJob, Except.bind_eq_ok, require_eq_ok, checkFields_eq_ok, checkMetric_eq_ok,
    Except.mapError_eq_ok, Job.new, Except.pure_eq_ok]
  constructor
  · rintro ⟨_, ht, _, hk, _, hf, _, ⟨m, hm, hd⟩, data, hdata, _, ⟨m', hm', rfl⟩, rfl⟩
    obtain rfl : m = m' := Except.ok.inj (hm.symm.trans hm')
    rw [Job.setData_of_empty rfl]
    exact ⟨ht, hk, hf, hm, hd, hdata, rfl, rfl, rfl, rfl, rfl, rfl⟩
  · intro h
    refine ⟨⟨⟩, h.type, ⟨⟩, h.task, ⟨⟩, h.fields, ⟨⟩, ⟨_, h.metric, h.known⟩, _, h.data, _,
      ⟨_, h.metric, rfl⟩, ?_⟩
    rw [Job.setData_of_empty rfl]
    obtain ⟨_, ⟨_, _, _, _, _⟩, _, _⟩ := job
    obtain ⟨-, -, -, -, -, -, rfl, rfl, rfl, rfl, rfl, rfl⟩ := h
    rfl

end JobDocument

theorem load_eq_ok_iff {layout : Layout} {base note : String} {d : Document} {job : Job} :
    load layout base note d = .ok job ↔ ∃ fields,
      (JobDocument.record layout).read d.toTree = .ok fields ∧
        fields.Describes layout base job := by
  simp only [load, noted, loadTree, Except.mapError_eq_ok, Except.bind_eq_ok,
    JobDocument.toJob_eq_ok_iff]

/-! ## Data -/

theorem Input.toDataInput_ofDataInput {layout : Layout} {base : String} {i : DataInput}
    (h : Location.resolve base i.path = i.path) :
    (Input.ofDataInput layout i).toDataInput base = .ok i := by
  obtain ⟨path, mode⟩ := i
  unfold ofDataInput
  split
  · next hb =>
    simp only [Bool.and_eq_true, decide_eq_true_eq, DataInput.isBinding, Option.isNone_iff_eq_none]
      at hb
    obtain ⟨⟨-, hb⟩, rfl⟩ := hb
    exact if_pos hb
  · have ht : require "type" inputType inputType = .ok () :=
      require_eq_ok.2 (Text.sameIgnoringCase_self _)
    simp only [toDataInput, InputTable.toDataInput, ht, Except.ok_bind, h]
    rfl

namespace JobDocument

theorem toData_eq_ok_iff {base : String} {d : JobDocument} {data : DataSettings} :
    d.toData base = .ok data ↔ ∃ target input training validation test,
      d.targetColumn = some target ∧ d.trainingData = some input ∧
      input.toDataInput base = .ok training ∧
      d.validationData.mapM (Input.toDataInput base) = .ok validation ∧
      d.testData.mapM (Input.toDataInput base) = .ok test ∧
      data = {
        targetColumn := some target
        trainingData := some training
        validationData := validation
        validationSize := d.validationSize
        weightColumn := d.weightColumn
        cvSplitColumns := d.cvSplitColumns
        crossValidations := d.crossValidations
        testData := test
        testSize := d.testSize } := by
  simp only [toData, Except.bind_eq_ok, present_eq_ok, Except.pure_eq_ok]
  constructor
  · rintro ⟨target, ht, input, hi, training, htr, validation, hv, test, hte, rfl⟩
    exact ⟨target, input, training, validation, test, ht, hi, htr, hv, hte, rfl⟩
  · rintro ⟨target, input, training, validation, test, ht, hi, htr, hv, hte, rfl⟩
    exact ⟨target, ht, input, hi, training, htr, validation, hv, test, hte, rfl⟩

theorem toData_ofJob {layout : Layout} {base : String} {job : Job}
    (ht : job.data.targetColumn.isSome = true) (hd : job.data.trainingData.isSome = true)
    (hp : ∀ i ∈ job.data.inputs, Location.resolve base i.path = i.path) :
    (ofJob layout job).toData base = .ok job.data := by
  obtain ⟨target, ht⟩ := Option.isSome_iff_exists.1 ht
  obtain ⟨training, hd⟩ := Option.isSome_iff_exists.1 hd
  have hr : ∀ i ∈ job.data.inputs, (Input.ofDataInput layout i).toDataInput base = .ok i :=
    fun i hi => Input.toDataInput_ofDataInput (hp i hi)
  simp only [DataSettings.inputs, List.mem_append, Option.mem_toList] at hr
  have h₁ := hr training (.inl (.inl hd))
  have h₂ := Except.mapM_option_map_of_mem fun i hi => hr i (.inl (.inr hi))
  have h₃ := Except.mapM_option_map_of_mem fun i hi => hr i (.inr hi)
  simp only [toData, ofJob, ht, hd, present, Option.map_some, h₁, h₂, h₃, Except.ok_bind]
  rw [← ht, ← hd]
  rfl

/-- The fields that are written for a job describe it, if it has nothing that a document of the
layout cannot hold. -/
theorem toJob_ofJob {layout : Layout} {base : String} {job : Job} (hm : job.metric.Sound)
    (hk : layout = .standalone → job.metric.isDeferred = false)
    (ht : job.data.targetColumn.isSome = true) (hd : job.data.trainingData.isSome = true)
    (hp : ∀ i ∈ job.data.inputs, Location.resolve base i.path = i.path) :
    (ofJob layout job).toJob layout base = .ok { job with metadata := { job.metadata with
      experimentName := if layout = .node then none else job.metadata.experimentName
      id := none, status := none, creationContext := none } } :=
  toJob_eq_ok_iff.2 {
    type := Text.sameIgnoringCase_self _
    task := Text.sameIgnoringCase_self _
    fields := fun h => ⟨rfl, if_pos h⟩
    metric := Metric.ofText_doc hm
    known := hk
    data := toData_ofJob ht hd hp
    metadata := rfl
    featurization := rfl
    limits := rfl
    training := rfl
    logVerbosity := rfl
    forecasting := rfl }

end JobDocument

end Schema

end ForecastJob
