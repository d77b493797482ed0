import ForecastJob.Proofs.Content
import ForecastJob.Proofs.Numbers

/-!
# Which jobs are equal

* `Json.same_self` : a value in normal form equals itself;
* `Job.same_self` : so does a job that holds no NaN;
* `Job.isNaN_of_beq` : jobs that are equal hold no NaN.
-/

namespace ForecastJob

/-! ## Collections -/

section Collections

variable {α : Type} [BEq α]

theorem option_beq_self {o : Option α} (h : ∀ a ∈ o, (a == a) = true) : (o == o) = true := by
  cases o with
  | none => rfl
  | some a => exact h a rfl

theorem list_beq_self {l : List α} (h : ∀ a ∈ l, (a == a) = true) : (l == l) = true := by
  induction l with
  | nil => rfl
  | cons a l ih =>
    rw [List.cons_beq_cons, h a List.mem_cons_self, ih fun b hb => h b (List.mem_cons_of_mem _ hb)]
    rfl

theorem Dict.beq_self {d : Dict α} (h : ∀ e ∈ d.entries, (e.2 == e.2) = true) :
    (d == d) = true := by
  refine list_beq_self (l := d.entries) fun e he => ?_
  show (e.1 == e.1 && e.2 == e.2) = true
  rw [beq_self_eq_true, h e he]
  rfl

end Collections

/-! ## Free-form data -/

mutual

/-- A value in normal form equals itself. -/
theorem Json.same_self : ∀ {v : Json}, v.isNormal = true → v.same v = true
  | .null, _ => rfl
  | .bool b, _ => by simp [same]
  | .int i, _ => by simp [same]
  | .float x, h => by
    simp only [isNormal] at h
    exact Decimal.beq_self (Decimal.isNaN_of_isFinite h)
  | .text s, _ => by simp [same]
  | .list items, h => by
    simp only [isNormal] at h
    simpa only [same] using sameItems_self h
  | .object members, h => by
    simp only [isNormal, Bool.and_eq_true] at h
    simpa only [same] using sameMembers_self h.2

theorem Json.sameItems_self : ∀ {vs : List Json}, areNormal vs = true → sameItems vs vs = true
  | [], _ => rfl
  | v :: vs, h => by
    simp only [areNormal, Bool.and_eq_true] at h
    simp only [sameItems, Bool.and_eq_true]
    exact ⟨same_self h.1, sameItems_self h.2⟩

theorem Json.sameMembers_self : ∀ {ms : List (String × Json)}, membersAreNormal ms = true →
    sameMembers ms ms = true
  | [], _ => rfl
  | (k, v) :: ms, h => by
    simp only [membersAreNormal, Bool.and_eq_true] at h
    simp only [sameMembers, Bool.and_eq_true, beq_self_eq_true, true_and]
    exact ⟨same_self h.1, sameMembers_self h.2⟩

end

theorem FreeForm.beq_self (v : FreeForm) : (v == v) = true := Json.same_self v.normal

/-! ## Settings -/

theorem floats_beq_self {o : Option Float} (h : ∀ x ∈ o, Decimal.isNaN x = false) :
    (o == o) = true :=
  option_beq_self fun x hx => Decimal.beq_self (h x hx)

theorem DataSettings.beq_self {s : DataSettings}
    (hv : ∀ x ∈ s.validationSize, Decimal.isNaN x = false)
    (ht : ∀ x ∈ s.testSize, Decimal.isNaN x = false) : (s == s) = true := by
  obtain ⟨target, training, validation, validationSize, weight, cvSplit, cv, test, testSize⟩ := s
  show (target == target && _) = true
  simp only [beq_self_eq_true, Bool.true_and, Bool.and_eq_true]
  exact ⟨floats_beq_self hv, floats_beq_self ht⟩

theorem LimitSettings.beq_self {s : LimitSettings}
    (h : ∀ x ∈ s.exitScore, Decimal.isNaN x = false) : (s == s) = true := by
  obtain ⟨early, score, trials, cores, nodes, maxTrials, timeout, trialTimeout⟩ := s
  show (early == early && _) = true
  simp only [beq_self_eq_true, Bool.true_and, Bool.and_true]
  exact floats_beq_self h

theorem StackEnsembleSettings.beq_self {s : StackEnsembleSettings}
    (h : ∀ x ∈ s.trainPercentage, Decimal.isNaN x = false) : (s == s) = true := by
  obtain ⟨learner, percentage, arguments⟩ := s
  show (learner == learner && _) = true
  simp only [beq_self_eq_true, Bool.true_and, Bool.and_eq_true]
  exact ⟨floats_beq_self h, option_beq_self fun v _ => v.beq_self⟩

theorem TrainingSettings.beq_self {s : TrainingSettings}
    (h : ∀ x ∈ s.floats, Decimal.isNaN x = false) : (s == s) = true := by
  obtain ⟨onnx, dnn, explain, stack, vote, settings, timeout, allowed, blocked, mode⟩ := s
  show (onnx == onnx && _) = true
  simp only [beq_self_eq_true, Bool.true_and, Bool.and_true]
  refine option_beq_self fun e he => e.beq_self fun x hx => h x ?_
  cases he
  exact Option.mem_toList.2 hx

theorem ColumnTransformer.beq_self (t : ColumnTransformer) : (t == t) = true := by
  obtain ⟨fields, parameters⟩ := t
  show (fields == fields && _) = true
  simp only [beq_self_eq_true, Bool.true_and]
  exact option_beq_self fun v _ => v.beq_self

theorem FeaturizationSettings.beq_self (s : FeaturizationSettings) : (s == s) = true := by
  obtain ⟨mode, blocked, types, language, parameters, dnn⟩ := s
  show (mode == mode && _) = true
  simp only [beq_self_eq_true, Bool.true_and, Bool.and_true, Bool.and_eq_true]
  exact ⟨option_beq_self fun d _ => d.beq_self fun e _ => beq_self_eq_true e.2,
    option_beq_self fun d _ => d.beq_self fun e _ => list_beq_self fun t _ => t.beq_self⟩

namespace Job

/-- A job that holds no NaN equals itself. -/
theorem same_self {job : Job} (h : ∀ x ∈ job.floats, Decimal.isNaN x = false) :
    job.same job = true := by
  simp only [floats, data, List.mem_append, Option.mem_toList, List.mem_flatMap] at h
  have htabular : (job.tabular == job.tabular) = true := by
    obtain ⟨metadata, ⟨data, featurization, limits, training, verbosity⟩, metric, forecasting⟩ := job
    show (data == data && (featurization == featurization && (limits == limits &&
      (training == training && verbosity == verbosity)))) = true
    simp only [beq_self_eq_true, Bool.and_true, Bool.and_eq_true]
    refine ⟨data.beq_self ?_ ?_, option_beq_self fun s _ => s.beq_self,
      option_beq_self fun s hs => s.beq_self ?_, option_beq_self fun s hs => s.beq_self ?_⟩
    · exact fun x hx => h x (.inl (.inl (.inl hx)))
    · exact fun x hx => h x (.inl (.inl (.inr hx)))
    · cases hs
      exact fun x hx => h x (.inl (.inr hx))
    · exact fun x hx => h x (.inr ⟨s, hs, hx⟩)
  simp only [same, htabular, beq_self_eq_true, Bool.and_true]

end Job

/-! ## NaN -/

/-- What equality says of two values it says of two that may not be there. -/
theorem option_of_beq {α : Type} [BEq α] {P : α → Prop}
    (h : ∀ {a b : α}, (a == b) = true → P a ∧ P b) {o o' : Option α} (ho : (o == o') = true) :
    (∀ a ∈ o, P a) ∧ ∀ b ∈ o', P b := by
  cases o <;> cases o'
  · exact ⟨nofun, nofun⟩
  · cases ho
  · cases ho
  · obtain ⟨ha, hb⟩ := h ho
    exact ⟨by rintro _ ⟨⟩; exact ha, by rintro _ ⟨⟩; exact hb⟩

theorem floats_of_beq {o o' : Option Float} (h : (o == o') = true) :
    (∀ x ∈ o, Decimal.isNaN x = false) ∧ ∀ x ∈ o', Decimal.isNaN x = false :=
  option_of_beq Decimal.isNaN_of_beq h

theorem LimitSettings.floats_of_beq {s t : LimitSettings} (h : (s == t) = true) :
    (∀ x ∈ s.exitScore, Decimal.isNaN x = false) ∧
      ∀ x ∈ t.exitScore, Decimal.isNaN x = false := by
  have h : (s.earlyTermination == t.earlyTermination && (s.exitScore == t.exitScore && _)) = true :=
    h
  simp only [Bool.and_eq_true] at h
  exact ForecastJob.floats_of_beq h.2.1

theorem StackEnsembleSettings.floats_of_beq {s t : StackEnsembleSettings} (h : (s == t) = true) :
    (∀ x ∈ s.trainPercentage, Decimal.isNaN x = false) ∧
      ∀ x ∈ t.trainPercentage, Decimal.isNaN x = false := by
  have h : (s.metaLearner == t.metaLearner && (s.trainPercentage == t.trainPercentage && _)) =
    true := h
  simp only [Bool.and_eq_true] at h
  exact ForecastJob.floats_of_beq h.2.1

theorem TrainingSettings.floats_of_beq {s t : TrainingSettings} (h : (s == t) = true) :
    (∀ x ∈ s.floats, Decimal.isNaN x = false) ∧ ∀ x ∈ t.floats, Decimal.isNaN x = false := by
  have h : (s.onnxCompatibleModels == t.onnxCompatibleModels && (s.dnnTraining == t.dnnTraining &&
    (s.modelExplainability == t.modelExplainability && (s.stackEnsemble == t.stackEnsemble &&
    (s.voteEnsemble == t.voteEnsemble && (s.stackEnsembleSettings == t.stackEnsembleSettings &&
    _)))))) = true := h
  simp only [Bool.and_eq_true] at h
  obtain ⟨hs, ht⟩ := option_of_beq StackEnsembleSettings.floats_of_beq h.2.2.2.2.2.1
  simp only [floats, Option.mem_toList, Option.bind_eq_some_iff]
  constructor
  · rintro x ⟨e, he, hx⟩
    exact hs e he x hx
  · rintro x ⟨e, he, hx⟩
    exact ht e he x hx

/-- What is compared when two jobs are. -/
theorem Job.beq_eq (a b : Job) : (a == b) =
    ((a.data == b.data && (a.tabular.featurization == b.tabular.featurization &&
      (a.tabular.limits == b.tabular.limits && (a.tabular.training == b.tabular.training &&
        a.tabular.logVerbosity == b.tabular.logVerbosity)))) && a.metric == b.metric &&
      a.forecasting == b.forecasting) := rfl

theorem DataSettings.beq_eq (s t : DataSettings) : (s == t) =
    (s.targetColumn == t.targetColumn && (s.trainingData == t.trainingData &&
      (s.validationData == t.validationData && (s.validationSize == t.validationSize &&
        (s.weightColumn == t.weightColumn && (s.cvSplitColumns == t.cvSplitColumns &&
          (s.crossValidations == t.crossValidations && (s.testData == t.testData &&
            s.testSize == t.testSize)))))))) := rfl

/-- Jobs that are equal hold no NaN. -/
theorem Job.isNaN_of_beq {a b : Job} (h : (a == b) = true) :
    ∀ x ∈ a.floats ++ b.floats, Decimal.isNaN x = false := by
  rw [Job.beq_eq, DataSettings.beq_eq] at h
  simp only [Bool.and_eq_true] at h
  obtain ⟨⟨⟨⟨-, -, -, hvalidation, -, -, -, -, htest⟩, -, hlimits, htraining, -⟩, -⟩, -⟩ := h
  have hvalidation := ForecastJob.floats_of_beq hvalidation
  have htest := ForecastJob.floats_of_beq htest
  have hlimits := option_of_beq LimitSettings.floats_of_beq hlimits
  have htraining := option_of_beq TrainingSettings.floats_of_beq htraining
  simp only [floats, List.mem_append, Option.mem_toList, List.mem_flatMap,
    Option.bind_eq_some_iff]
  rintro x ((((hx | hx) | ⟨s, hs, hx⟩) | ⟨s, hs, hx⟩) | (((hx | hx) | ⟨s, hs, hx⟩) | ⟨s, hs, hx⟩))
  · exact hvalidation.1 x hx
  · exact htest.1 x hx
  · exact hlimits.1 s hs x hx
  · exact htraining.1 s hs x hx
  · exact hvalidation.2 x hx
  · exact htest.2 x hx
  · exact hlimits.2 s hs x hx
  · exact htraining.2 s hs x hx

end ForecastJob
