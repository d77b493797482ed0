import ForecastJob.Proofs.Content
import ForecastJob.Proofs.Leaves
import ForecastJob.Schema.Dump

/-!
# What a document holds of a job

* `Job.finite` : a job without the numbers that are not finite, none of which a document holds;
* `Job.documented` : what else a document does not hold of a job;
* `Job.finite_eq_self_iff`, `Job.documented_eq_self_iff` : when nothing is lost.
-/

namespace ForecastJob

/-! ## Definitions -/

def StackEnsembleSettings.finite (s : StackEnsembleSettings) : StackEnsembleSettings :=
  { s with trainPercentage := s.trainPercentage.filter Decimal.isFinite }

def StackEnsembleSettings.documented (s : StackEnsembleSettings) : StackEnsembleSettings :=
  { s with arguments := s.arguments.bind FreeForm.withoutNulls? }

def TrainingSettings.finite (s : TrainingSettings) : TrainingSettings :=
  { s with stackEnsembleSettings := s.stackEnsembleSettings.map StackEnsembleSettings.finite }

def TrainingSettings.documented (s : TrainingSettings) : TrainingSettings :=
  { s with stackEnsembleSettings := s.stackEnsembleSettings.map StackEnsembleSettings.documented }

def LimitSettings.finite (s : LimitSettings) : LimitSettings :=
  { s with exitScore := s.exitScore.filter Decimal.isFinite }

def ColumnTransformer.documented (t : ColumnTransformer) : ColumnTransformer :=
  { t with parameters := t.parameters.bind FreeForm.withoutNulls? }

def FeaturizationSettings.documented (s : FeaturizationSettings) : FeaturizationSettings :=
  { s with transformerParameters := s.transformerParameters.map fun d =>
      d.map fun ts => ts.map ColumnTransformer.documented }

def DataSettings.finite (s : DataSettings) : DataSettings :=
  { s with
    validationSize := s.validationSize.filter Decimal.isFinite
    testSize := s.testSize.filter Decimal.isFinite }

namespace Job

/-- The job without numbers that are not finite. -/
def finite (job : Job) : Job :=
  { job with
    tabular := { job.tabular with
      data := job.tabular.data.finite
      limits := job.tabular.limits.map LimitSettings.finite
      training := job.tabular.training.map TrainingSettings.finite } }

/-- The job without what only the service sets, without the experiment that a node is not told, and
without the nulls in its free-form data. -/
def documented (layout : Schema.Layout) (job : Job) : Job :=
  { job with
    metadata := { job.metadata with
      experimentName := if layout = .node then none else job.metadata.experimentName
      services := job.metadata.services.filterMap FreeForm.withoutNulls?
      id := none
      status := none
      creationContext := none }
    tabular := { job.tabular with
      featurization := job.tabular.featurization.map FeaturizationSettings.documented
      training := job.tabular.training.map TrainingSettings.documented } }

end Job

/-! ## Numbers -/

theorem filter_isFinite_eq_self_iff {o : Option Float} :
    o.filter Decimal.isFinite = o ↔ ∀ x ∈ o, Decimal.isFinite x = true := by
  cases o with
  | none => simp
  | some x => cases h : Decimal.isFinite x <;> simp [h]

@[simp] theorem StackEnsembleSettings.finite_finite (s : StackEnsembleSettings) :
    s.finite.finite = s.finite := by
  simp [finite]

theorem StackEnsembleSettings.finite_eq_self_iff {s : StackEnsembleSettings} :
    s.finite = s ↔ ∀ x ∈ s.trainPercentage, Decimal.isFinite x = true := by
  obtain ⟨learner, percentage, arguments⟩ := s
  simp only [finite, mk.injEq, true_and, and_true, filter_isFinite_eq_self_iff]

@[simp] theorem TrainingSettings.finite_finite (s : TrainingSettings) :
    s.finite.finite = s.finite := by
  simp [finite, Function.comp_def]

theorem TrainingSettings.finite_eq_self_iff {s : TrainingSettings} :
    s.finite = s ↔ ∀ x ∈ s.floats, Decimal.isFinite x = true := by
  obtain ⟨onnx, dnn, explain, stack, vote, settings, timeout, allowed, blocked, mode⟩ := s
  simp only [finite, floats, mk.injEq, true_and, and_true, option_map_eq_self_iff,
    StackEnsembleSettings.finite_eq_self_iff]
  cases settings <;> simp

@[simp] theorem LimitSettings.finite_finite (s : LimitSettings) : s.finite.finite = s.finite := by
  simp [finite]

theorem LimitSettings.finite_eq_self_iff {s : LimitSettings} :
    s.finite = s ↔ ∀ x ∈ s.exitScore, Decimal.isFinite x = true := by
  obtain ⟨early, score, trials, cores, nodes, maxTrials, timeout, trialTimeout⟩ := s
  simp only [finite, mk.injEq, true_and, and_true, filter_isFinite_eq_self_iff]

@[simp] theorem DataSettings.finite_finite (s : DataSettings) : s.finite.finite = s.finite := by
  simp [finite]

theorem DataSettings.finite_eq_self_iff {s : DataSettings} :
    s.finite = s ↔ (∀ x ∈ s.validationSize, Decimal.isFinite x = true) ∧
      ∀ x ∈ s.testSize, Decimal.isFinite x = true := by
  obtain ⟨target, training, validation, validationSize, weight, cvSplit, cv, test, testSize⟩ := s
  simp only [finite, mk.injEq, true_and, filter_isFinite_eq_self_iff]

@[simp] theorem Job.finite_finite (job : Job) : job.finite.finite = job.finite := by
  simp [finite, Function.comp_def]

/-- A job loses no number if all of its numbers are finite. -/
theorem Job.finite_eq_self_iff {job : Job} :
    job.finite = job ↔ ∀ x ∈ job.floats, Decimal.isFinite x = true := by
  obtain ⟨metadata, ⟨data, featurization, limits, training, verbosity⟩, metric, forecasting⟩ := job
  simp only [finite, floats, Job.data, mk.injEq, Tabular.mk.injEq, true_and, and_true,
    option_map_eq_self_iff, DataSettings.finite_eq_self_iff, LimitSettings.finite_eq_self_iff,
    TrainingSettings.finite_eq_self_iff, List.forall_mem_append, Option.mem_toList,
    List.mem_flatMap]
  cases limits <;> cases training <;> simp [and_assoc]

/-! ## Nulls -/

mutual

/-- A value that holds no null is the same without them. -/
theorem Json.withoutNulls_eq_self_iff : ∀ {v : Json},
    (if v.isNull then none else some v.withoutNulls) = some v ↔ v.Within (· ≠ .null)
  | .null => by simp [isNull, Within, toTree]
  | .bool _ => by simp [isNull, withoutNulls, Within, toTree]
  | .int _ => by simp [isNull, withoutNulls, Within, toTree]
  | .float _ => by simp [isNull, withoutNulls, Within, toTree]
  | .text _ => by simp [isNull, withoutNulls, Within, toTree]
  | .list vs => by
    rw [if_neg (by simp [isNull]), Option.some.injEq, withoutNulls, list.injEq, within_list,
      itemsWithoutNulls_eq_self_iff]
  | .object ms => by
    rw [if_neg (by simp [isNull]), Option.some.injEq, withoutNulls, object.injEq, within_object,
      membersWithoutNulls_eq_self_iff]

theorem Json.itemsWithoutNulls_eq_self_iff : ∀ {vs : List Json},
    itemsWithoutNulls vs = vs ↔ ∀ v ∈ vs, v.Within (· ≠ .null)
  | [] => by simp [itemsWithoutNulls]
  | v :: vs => by
    have ih := @itemsWithoutNulls_eq_self_iff vs
    rw [itemsWithoutNulls_eq, list_filterMap_eq_self_iff] at ih ⊢
    rw [List.forall_mem_cons, List.forall_mem_cons, withoutNulls_eq_self_iff, ih]

theorem Json.membersWithoutNulls_eq_self_iff : ∀ {ms : List (String × Json)},
    membersWithoutNulls ms = ms ↔ ∀ m ∈ ms, m.2.Within (· ≠ .null)
  | [] => by simp [membersWithoutNulls]
  | (k, v) :: ms => by
    have ih := @membersWithoutNulls_eq_self_iff ms
    have hv := @withoutNulls_eq_self_iff v
    rw [membersWithoutNulls_eq, list_filterMap_eq_self_iff] at ih ⊢
    rw [List.forall_mem_cons, List.forall_mem_cons, ih, ← hv]
    simp [Prod.ext_iff]

end

theorem FreeForm.withoutNulls?_eq_some_iff {v : FreeForm} :
    v.withoutNulls? = some v ↔ v.json.Within (· ≠ .null) := by
  obtain ⟨v, hv⟩ := v
  rw [← Json.withoutNulls_eq_self_iff]
  unfold withoutNulls?
  split <;> simp

theorem bind_withoutNulls?_eq_self_iff {o : Option FreeForm} :
    o.bind FreeForm.withoutNulls? = o ↔ ∀ v ∈ o, v.json.Within (· ≠ .null) := by
  cases o <;> simp [FreeForm.withoutNulls?_eq_some_iff]

theorem StackEnsembleSettings.documented_eq_self_iff {s : StackEnsembleSettings} :
    s.documented = s ↔ ∀ v ∈ s.arguments, v.json.Within (· ≠ .null) := by
  obtain ⟨learner, percentage, arguments⟩ := s
  simp only [documented, mk.injEq, true_and, bind_withoutNulls?_eq_self_iff]

theorem TrainingSettings.documented_eq_self_iff {s : TrainingSettings} :
    s.documented = s ↔ ∀ v ∈ s.arguments, v.json.Within (· ≠ .null) := by
  obtain ⟨onnx, dnn, explain, stack, vote, settings, timeout, allowed, blocked, mode⟩ := s
  simp only [documented, arguments, mk.injEq, true_and, and_true, option_map_eq_self_iff,
    StackEnsembleSettings.documented_eq_self_iff]
  cases settings <;> simp

theorem ColumnTransformer.documented_eq_self_iff {t : ColumnTransformer} :
    t.documented = t ↔ ∀ v ∈ t.parameters, v.json.Within (· ≠ .null) := by
  obtain ⟨fields, parameters⟩ := t
  simp only [documented, mk.injEq, true_and, bind_withoutNulls?_eq_self_iff]

theorem FeaturizationSettings.documented_eq_self_iff {s : FeaturizationSettings} :
    s.documented = s ↔ ∀ v ∈ s.arguments, v.json.Within (· ≠ .null) := by
  obtain ⟨mode, blocked, types, language, parameters, dnn⟩ := s
  simp only [documented, arguments, mk.injEq, true_and, and_true, option_map_eq_self_iff,
    Dict.map_eq_self_iff, list_map_eq_self_iff, ColumnTransformer.documented_eq_self_iff,
    List.mem_flatMap, List.mem_filterMap, Option.mem_toList]
  exact ⟨fun h v ⟨d, hd, e, he, t, ht, hv⟩ => h d hd e he t ht v hv,
    fun h d hd e he t ht v hv => h v ⟨d, hd, e, he, t, ht, hv⟩⟩

namespace Job

/-- A job whose free-form data holds no null loses none in a document, and nothing else if it has
nothing that is never written. -/
theorem documented_eq_self_iff {layout : Schema.Layout} {job : Job}
    (hn : layout = .node → job.metadata.experimentName = none) (hi : job.metadata.id = none)
    (hs : job.metadata.status = none) (hc : job.metadata.creationContext = none) :
    job.documented layout = job ↔ ∀ v ∈ job.freeForms, v.json.Within (· ≠ .null) := by
  have he : (if layout = .node then none else job.metadata.experimentName) =
      job.metadata.experimentName := by
    split
    · next h => exact (hn h).symm
    · rfl
  have hservices : job.metadata.services.filterMap FreeForm.withoutNulls? = job.metadata.services ↔
      ∀ e ∈ job.metadata.services.entries, e.2.json.Within (· ≠ .null) := by
    simp only [Dict.filterMap_eq_self_iff, FreeForm.withoutNulls?_eq_some_iff]
  have hparts : job.documented layout = job ↔
      job.metadata.services.filterMap FreeForm.withoutNulls? = job.metadata.services ∧
      job.tabular.featurization.map FeaturizationSettings.documented = job.tabular.featurization ∧
      job.tabular.training.map TrainingSettings.documented = job.tabular.training := by
    simp only [documented, he]
    obtain ⟨⟨⟩, ⟨⟩, _, _⟩ := job
    simp_all
  rw [hparts, hservices, option_map_eq_self_iff, option_map_eq_self_iff]
  simp only [FeaturizationSettings.documented_eq_self_iff, TrainingSettings.documented_eq_self_iff,
    freeForms, arguments, List.forall_mem_append, List.forall_mem_map, List.forall_mem_flatMap,
    Option.mem_toList, Option.mem_def]

theorem floats_documented (layout : Schema.Layout) (job : Job) :
    (job.documented layout).floats = job.floats := by
  obtain ⟨metadata, ⟨data, featurization, limits, training, verbosity⟩, metric, forecasting⟩ := job
  cases training with
  | none => rfl
  | some s =>
    obtain ⟨onnx, dnn, explain, stack, vote, settings, timeout, allowed, blocked, mode⟩ := s
    cases settings <;> rfl

theorem isFinite_of_mem_floats_finite {job : Job} :
    ∀ x ∈ job.finite.floats, Decimal.isFinite x = true :=
  finite_eq_self_iff.1 job.finite_finite

/-- A document holds a loaded job as it is if all numbers are finite and there are no nulls. -/
theorem documented_finite_eq_self_iff {layout : Schema.Layout} {job : Job}
    (hn : layout = .node → job.metadata.experimentName = none) (hi : job.metadata.id = none)
    (hs : job.metadata.status = none) (hc : job.metadata.creationContext = none) :
    job.finite.documented layout = job ↔ (∀ x ∈ job.floats, Decimal.isFinite x = true) ∧
      ∀ v ∈ job.freeForms, v.json.Within (· ≠ .null) := by
  rw [← documented_eq_self_iff hn hi hs hc]
  constructor
  · intro h
    have hf : ∀ x ∈ job.floats, Decimal.isFinite x = true := by
      rw [← h, floats_documented]
      exact isFinite_of_mem_floats_finite
    rw [finite_eq_self_iff.2 hf] at h
    exact ⟨hf, h⟩
  · rintro ⟨hf, h⟩
    rw [finite_eq_self_iff.2 hf, h]

end Job

end ForecastJob
