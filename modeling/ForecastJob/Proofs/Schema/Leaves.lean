import ForecastJob.Proofs.Schema.Conversion
import ForecastJob.Proofs.Schema.Forms

/-!
# What the scalars of a document say about the job

* the records of a document that hold only texts, choices and short numbers are plain, and the other
  ones keep what holds of the scalars of the document;
* `Schema.JobDocument.within_ofJob` : so does the document of the job that is loaded.
-/

namespace ForecastJob

variable {P : Tree → Prop} [Tree.Scalar P]

/-! ## Plain records -/

instance : ManagedIdentity.record.codec.Plain P where
  within _ := Record.within_write.2 (by simp [ManagedIdentity.record])

instance : Identity.codec.Plain P where
  within
    | .amlToken => by simp [Identity.codec, Identity.write, Union.write]
    | .managed m => by
      have hm := Json.within_object.1 (ManagedIdentity.record.codec.within_write (P := P) m)
      exact Json.within_object.2 (List.forall_mem_cons.2 ⟨Json.within_text, hm⟩)
    | .userIdentity => by simp [Identity.codec, Identity.write, Union.write]

instance : JobOutput.record.codec.Plain P where
  within _ := Record.within_write.2 (by simp [JobOutput.record])

instance : QueueSettings.record.codec.Plain P where
  within _ := Record.within_write.2 (by simp [QueueSettings.record])

instance : JobResources.record.codec.Plain P where
  within _ := Record.within_write.2 (by simp [JobResources.record])

instance : ForecastingSettings.record.codec.Plain P where
  within _ := Record.within_write.2 (by simp [ForecastingSettings.record])

/-! ## Records with numbers and free-form data -/

instance : StackEnsembleSettings.record.codec.Keeps P :=
  Record.keeps (by simp [StackEnsembleSettings.record]) (by simp [StackEnsembleSettings.record])

instance : TrainingSettings.record.codec.Keeps P :=
  Record.keeps (by simp [TrainingSettings.record]) (by simp [TrainingSettings.record])

instance : LimitSettings.record.codec.Keeps P :=
  Record.keeps (by simp [LimitSettings.record]) (by simp [LimitSettings.record])

instance : ColumnTransformer.record.codec.Keeps P :=
  Record.keeps (by simp [ColumnTransformer.record]) (by simp [ColumnTransformer.record])

instance : FeaturizationSettings.record.codec.Keeps P :=
  Record.keeps (by simp [FeaturizationSettings.record]) (by simp [FeaturizationSettings.record])

/-! ## Scalars that can be anything -/

@[simp] theorem StackEnsembleSettings.within_write_iff {s : StackEnsembleSettings} :
    (record.codec.write s).Within P ↔
      (∀ x ∈ s.trainPercentage, P (.float x)) ∧ ∀ v ∈ s.arguments, v.json.Within P :=
  Record.within_write.trans (by simp [record])

@[simp] theorem TrainingSettings.within_write_iff {s : TrainingSettings} :
    (record.codec.write s).Within P ↔ (∀ x ∈ s.floats, P (.float x)) ∧
      (∀ v ∈ s.arguments, v.json.Within P) ∧ ∀ n ∈ s.modelDownloadTimeout, P (.int n.toNat) := by
  refine Record.within_write.trans ?_
  cases h : s.stackEnsembleSettings <;> simp [record, floats, arguments, h, and_assoc]

@[simp] theorem LimitSettings.within_write_iff {s : LimitSettings} :
    (record.codec.write s).Within P ↔ ∀ x ∈ s.exitScore, P (.float x) :=
  Record.within_write.trans (by simp [record])

@[simp] theorem ColumnTransformer.within_write_iff {t : ColumnTransformer} :
    (record.codec.write t).Within P ↔ ∀ v ∈ t.parameters, v.json.Within P :=
  Record.within_write.trans (by simp [record])

@[simp] theorem FeaturizationSettings.within_write_iff {s : FeaturizationSettings} :
    (record.codec.write s).Within P ↔ ∀ v ∈ s.arguments, v.json.Within P := by
  refine Record.within_write.trans ?_
  simp only [arguments, List.forall_mem_flatMap]
  cases h : s.transformerParameters <;> simp [record, h]
  exact forall₃_congr fun _ _ _ =>
    ⟨fun h v t ht hv => h t ht v hv, fun h t ht v hv => h v t ht hv⟩

namespace Schema

instance : InputTable.record.codec.Plain P where
  within _ := Record.within_write.2 (by simp [InputTable.record])

instance (layout : Layout) : (Input.codec layout).Plain P where
  within i := by
    rw [Input.write_codec]
    cases i with
    | text s => exact Codec.text.within_write s
    | table t => exact InputTable.record.codec.within_write t

instance (layout : Layout) : (JobDocument.record layout).codec.Keeps P :=
  Record.keeps (by simp [JobDocument.record]) (by simp [JobDocument.record])

/-! ## Jobs -/

namespace JobDocument

variable {layout : Layout} {base : String} {job : Job} {d : JobDocument}

/-- The fields of a document whose scalars can be anything. -/
theorem within_write_iff : ((record layout).write d).Within P ↔
    (∀ e ∈ d.services.entries, e.2.json.Within P) ∧ (∀ x ∈ d.validationSize, P (.float x)) ∧
      (∀ x ∈ d.testSize, P (.float x)) ∧
      (∀ s ∈ d.featurization, ∀ v ∈ s.arguments, v.json.Within P) ∧
      (∀ s ∈ d.limits, ∀ x ∈ s.exitScore, P (.float x)) ∧
      ∀ s ∈ d.training, (∀ x ∈ s.floats, P (.float x)) ∧ (∀ v ∈ s.arguments, v.json.Within P) ∧
        ∀ n ∈ s.modelDownloadTimeout, P (.int n.toNat) :=
  Record.within_write.trans (by simp [record])

/-- The scalars of a job that can be anything. -/
theorem within_write_ofJob_iff : ((record layout).write (ofJob layout job)).Within P ↔
    (∀ x ∈ job.floats, P (.float x)) ∧ (∀ v ∈ job.freeForms, v.json.Within P) ∧
      ∀ s ∈ job.tabular.training, ∀ n ∈ s.modelDownloadTimeout, P (.int n.toNat) := by
  rw [within_write_iff]
  simp only [ofJob, Job.floats, Job.freeForms, Job.arguments, List.forall_mem_append,
    List.forall_mem_map, List.forall_mem_flatMap, Option.mem_toList, Option.mem_def]
  cases job.tabular.limits <;> cases job.tabular.training <;> simp <;> tauto

/-- A job is loaded with no scalars but those of the document. -/
theorem within_ofJob (h : d.Describes layout base job) (hd : ((record layout).write d).Within P) :
    ((record layout).write (ofJob layout job)).Within P := by
  obtain ⟨_, _, _, _, _, -, -, -, -, -, hdata⟩ := toData_eq_ok_iff.1 h.data
  rw [within_write_iff] at hd ⊢
  simpa only [ofJob, hdata, h.metadata, h.featurization, h.limits, h.training, toMetadata] using hd

end JobDocument

end Schema

end ForecastJob
