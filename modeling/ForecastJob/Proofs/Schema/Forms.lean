import ForecastJob.Proofs.Outcome
import ForecastJob.Proofs.Schema.Documented
import ForecastJob.Proofs.Spelling

/-!
# The forms of documents

* each record of a document is lawful, so that its fields can be looked at one by one;
* `Schema.JobDocument.carries_ofJob` : the fields of a document are read as those of the job that it
  holds.
-/

namespace ForecastJob

open Passage (document)

/-! ## Records without numbers and free-form data -/

instance : ManagedIdentity.record.Lawful where
  ext := by rintro ⟨⟩ ⟨⟩; simp [ManagedIdentity.record]

instance : Identity.codec.Exact where
  carries _
    | .amlToken => Union.carries_unit (u := Identity.union) rfl
    | .managed _ => Union.carries_fields (u := Identity.union) rfl (by decide)
        (by simp [ManagedIdentity.record])
    | .userIdentity => Union.carries_unit (u := Identity.union) rfl

instance : JobOutput.record.Lawful where
  ext := by rintro ⟨⟩ ⟨⟩; simp [JobOutput.record]

instance : JobOutput.record.codec.Exact where
  carries _ _ := Record.carries (by simp [JobOutput.record])

instance : QueueSettings.record.Lawful where
  ext := by rintro ⟨⟩ ⟨⟩; simp [QueueSettings.record]

instance : QueueSettings.record.codec.Exact where
  carries _ _ := Record.carries (by simp [QueueSettings.record])

instance : JobResources.record.Lawful where
  ext := by rintro ⟨⟩ ⟨⟩; simp [JobResources.record]

instance : JobResources.record.codec.Exact where
  carries _ _ := Record.carries (by simp [JobResources.record])

instance : ForecastingSettings.record.Lawful where
  ext := by rintro ⟨⟩ ⟨⟩; simp [ForecastingSettings.record]

instance : ForecastingSettings.record.codec.Exact where
  carries _ _ := Record.carries (by simp [ForecastingSettings.record])

/-! ## Records with numbers and free-form data -/

instance : StackEnsembleSettings.record.Lawful where
  ext := by rintro ⟨⟩ ⟨⟩; simp [StackEnsembleSettings.record]

theorem StackEnsembleSettings.carries (s : StackEnsembleSettings) :
    document.Carries record.codec s s.finite.documented := by
  have hf := Passage.carriesOption_float (p := document) s.trainPercentage
  have ha := Passage.document_carriesOption_freeForm s.arguments
  exact Record.carries (by simp [record, finite, documented, hf, ha])

instance : TrainingSettings.record.Lawful where
  ext := by rintro ⟨⟩ ⟨⟩; simp [TrainingSettings.record]

theorem TrainingSettings.carries (s : TrainingSettings) :
    document.Carries record.codec s s.finite.documented := by
  have hs : document.CarriesOption StackEnsembleSettings.record.codec s.stackEnsembleSettings
      s.finite.documented.stackEnsembleSettings := by
    simp only [finite, documented, Option.map_map]
    exact .map fun e _ => e.carries
  show document.Carries _ s { s with
    stackEnsembleSettings := s.finite.documented.stackEnsembleSettings }
  generalize s.finite.documented.stackEnsembleSettings = o at hs ⊢
  exact Record.carries (by simp [record, hs])

instance : LimitSettings.record.Lawful where
  ext := by rintro ⟨⟩ ⟨⟩; simp [LimitSettings.record]

theorem LimitSettings.carries (s : LimitSettings) : document.Carries record.codec s s.finite := by
  have hf := Passage.carriesOption_float (p := document) s.exitScore
  exact Record.carries (by simp [record, finite, hf])

instance : ColumnTransformer.record.Lawful where
  ext := by rintro ⟨⟩ ⟨⟩; simp [ColumnTransformer.record]

theorem ColumnTransformer.carries (t : ColumnTransformer) :
    document.Carries record.codec t t.documented := by
  have ha := Passage.document_carriesOption_freeForm t.parameters
  exact Record.carries (by simp [record, documented, ha])

instance : FeaturizationSettings.record.Lawful where
  ext := by rintro ⟨⟩ ⟨⟩; simp [FeaturizationSettings.record]

theorem FeaturizationSettings.carries (s : FeaturizationSettings) :
    document.Carries record.codec s s.documented := by
  have ht : document.CarriesOption ColumnTransformer.record.codec.listOf.dictOf
      s.transformerParameters s.documented.transformerParameters :=
    .map fun d _ => Passage.carries_dictOf_map fun e _ =>
      Passage.carries_listOf_map fun t _ => t.carries
  show document.Carries _ s { s with
    transformerParameters := s.documented.transformerParameters }
  generalize s.documented.transformerParameters = o at ht ⊢
  exact Record.carries (by simp [record, ht])

namespace Schema

/-! ## Documents -/

instance : InputTable.record.Lawful where
  ext := by rintro ⟨⟩ ⟨⟩; simp [InputTable.record]

instance : InputTable.record.codec.Exact where
  carries _ _ := Record.carries (by simp [InputTable.record])

theorem Input.write_codec (layout : Layout) : (codec layout).write = Input.write := by
  cases layout <;> rfl

instance (layout : Layout) : (Input.codec layout).Injective where
  eq_of_write_eq := by
    rw [Input.write_codec]
    rintro (s | t) (s' | t') h
    · exact congrArg Input.text (Json.text.inj h)
    · exact nomatch h
    · exact nomatch h
    · exact congrArg Input.table (InputTable.record.codec.write_inj.1 h)

/-- A data input is a table, or in a node also a text. -/
theorem Input.read_eq_ok {layout : Layout} {t : Tree} {i : Input} :
    (codec layout).read t = .ok i ↔
      (∃ x, InputTable.record.read t = .ok x ∧ i = table x) ∨
      (layout = .node ∧ ∃ s, t = .text s ∧ i = text s) := by
  cases layout with
  | standalone => simp [codec, Except.map_eq_ok, @eq_comm _ i]
  | node =>
    cases t with
    | text s =>
      have hno : ∀ x, InputTable.record.read (.text s) ≠ .ok x := fun _ => nofun
      simp [codec, hno, @eq_comm _ i]
    | _ => simp [codec, Except.mapError_eq_ok, Except.map_eq_ok, @eq_comm _ i]

/-- A data input that is written as a table is read as it is in any layout. -/
theorem Input.carries_table (layout : Layout) (p : Passage) (t : InputTable) :
    p.Carries (codec layout) (table t) (table t) := by
  obtain ⟨v, hv, hn, ht⟩ := InputTable.record.codec.carries_self p t
  exact ⟨v, by rwa [write_codec], hn, read_eq_ok.2 (.inl ⟨t, ht, rfl⟩)⟩

/-- A data input is read as it was written for the layout. -/
theorem Input.carries_ofDataInput (layout : Layout) (p : Passage) (i : DataInput) :
    p.Carries (codec layout) (ofDataInput layout i) (ofDataInput layout i) := by
  unfold ofDataInput
  split
  · next h =>
    simp only [Bool.and_eq_true, decide_eq_true_eq] at h
    obtain rfl := h.1.1
    exact ⟨_, p.pass_text _, rfl, rfl⟩
  · exact carries_table layout p _

instance (layout : Layout) : (JobDocument.record layout).Lawful where
  nodup := by simp [JobDocument.record]
  ext := by rintro ⟨⟩ ⟨⟩; simp [JobDocument.record]

theorem JobDocument.ofJob_documented (layout : Layout) (job : Job) :
    ofJob layout (job.finite.documented layout) = { ofJob layout job with
      services := job.metadata.services.filterMap FreeForm.withoutNulls?
      validationSize := job.data.validationSize.filter Decimal.isFinite
      testSize := job.data.testSize.filter Decimal.isFinite
      featurization := job.tabular.featurization.map FeaturizationSettings.documented
      limits := job.tabular.limits.map LimitSettings.finite
      training := (job.tabular.training.map TrainingSettings.finite).map
        TrainingSettings.documented } := by
  cases layout <;> rfl

/-- The fields of a document are read as those of the job that it holds. -/
theorem JobDocument.carries_ofJob (layout : Layout) (job : Job) :
    document.Carries (record layout).codec (ofJob layout job)
      (ofJob layout (job.finite.documented layout)) := by
  have hi : ∀ o : Option DataInput, document.CarriesOption (Input.codec layout)
      (o.map (Input.ofDataInput layout)) (o.map (Input.ofDataInput layout)) := by
    intro o
    refine .refl fun i hi => ?_
    obtain ⟨i, -, rfl⟩ := Option.map_eq_some_iff.1 hi
    exact Input.carries_ofDataInput layout document i
  have htraining := hi job.data.trainingData
  have hvalidation := hi job.data.validationData
  have htest := hi job.data.testData
  have hservices : document.Carries Codec.freeForm.dictOf job.metadata.services
      (job.metadata.services.filterMap FreeForm.withoutNulls?) :=
    Passage.carries_dictOf_filterMap fun e _ => Passage.document_deliver_freeForm e.2
  have hvalidationSize := Passage.carriesOption_float (p := document) job.data.validationSize
  have htestSize := Passage.carriesOption_float (p := document) job.data.testSize
  have hfeaturization : document.CarriesOption FeaturizationSettings.record.codec
      job.tabular.featurization (job.tabular.featurization.map FeaturizationSettings.documented) :=
    .map fun s _ => s.carries
  have hlimits : document.CarriesOption LimitSettings.record.codec job.tabular.limits
      (job.tabular.limits.map LimitSettings.finite) := .map fun s _ => s.carries
  have hsettings : document.CarriesOption TrainingSettings.record.codec job.tabular.training
      ((job.tabular.training.map TrainingSettings.finite).map TrainingSettings.documented) := by
    rw [Option.map_map]
    exact .map fun s _ => s.carries
  rw [ofJob_documented]
  -- Only that the values are delivered matters, not what they are.
  generalize job.metadata.services.filterMap FreeForm.withoutNulls? = services at hservices ⊢
  generalize job.data.validationSize.filter Decimal.isFinite = validationSize at hvalidationSize ⊢
  generalize job.data.testSize.filter Decimal.isFinite = testSize at htestSize ⊢
  generalize job.tabular.featurization.map FeaturizationSettings.documented = featurization
    at hfeaturization ⊢
  generalize job.tabular.limits.map LimitSettings.finite = limits at hlimits ⊢
  generalize (job.tabular.training.map TrainingSettings.finite).map TrainingSettings.documented =
    settings at hsettings ⊢
  exact Record.carries (by simp [record, ofJob, htraining, hvalidation, htest, hservices,
    hvalidationSize, htestSize, hfeaturization, hlimits, hsettings])

end Schema

end ForecastJob
