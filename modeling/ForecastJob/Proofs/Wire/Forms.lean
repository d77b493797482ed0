import ForecastJob.Proofs.Fields
import ForecastJob.Wire.Payload

/-!
# The forms of payloads

* each record of a payload is lawful, so that its fields can be looked at one by one;
* records without numbers that may be infinite and without free-form data are exact;
* `Payload.carries` : a payload whose numbers are finite and that holds no null where there may be
  none is read as it was written.
-/

namespace ForecastJob.Wire

/-! ## Records without free-form data -/

instance : SystemData.record.Lawful where
  ext := by rintro ⟨⟩ ⟨⟩; simp [SystemData.record]

instance : SystemData.record.codec.Exact where
  carries _ _ := Record.carries (by simp [SystemData.record])

instance : Output.record.Lawful where
  ext := by rintro ⟨⟩ ⟨⟩; simp [Output.record]

instance : Output.record.codec.Exact where
  carries _ _ := Record.carries (by simp [Output.record])

instance : Resources.record.Lawful where
  ext := by rintro ⟨⟩ ⟨⟩; simp [Resources.record]

instance : Resources.record.codec.Exact where
  carries _ _ := Record.carries (by simp [Resources.record])

instance : Queue.record.Lawful where
  ext := by rintro ⟨⟩ ⟨⟩; simp [Queue.record]

instance : Queue.record.codec.Exact where
  carries _ _ := Record.carries (by simp [Queue.record])

instance : Input.record.Lawful where
  ext := by rintro ⟨⟩ ⟨⟩; simp [Input.record]

instance : Input.record.codec.Exact where
  carries _ _ := Record.carries (by simp [Input.record])

/-! ## Unions -/

instance : ManagedIdentity.record.Lawful where
  ext := by rintro ⟨⟩ ⟨⟩; simp [ManagedIdentity.record]

instance : Identity.codec.Exact where
  carries _
    | .amlToken => Union.carries_unit (u := Identity.union) rfl
    | .managed _ => Union.carries_fields (u := Identity.union) rfl (by decide)
        (by simp [ManagedIdentity.record])
    | .userIdentity => Union.carries_unit (u := Identity.union) rfl

instance : ModeValue.customRecord.Lawful where
  ext := by simp [ModeValue.customRecord]

instance : ModeValue.codec.Exact where
  carries _
    | .auto => Union.carries_unit (u := ModeValue.union) rfl
    | .custom _ => Union.carries_fields (u := ModeValue.union) rfl (by decide)
        (by simp [ModeValue.customRecord])

instance : Lags.customRecord.Lawful where
  ext := by simp [Lags.customRecord]

instance : Lags.codec.Exact where
  carries _
    | .auto => Union.carries_unit (u := Lags.union) rfl
    | .custom _ => Union.carries_fields (u := Lags.union) rfl (by decide)
        (by simp [Lags.customRecord])

instance : Forecasting.record.Lawful where
  ext := by rintro ⟨⟩ ⟨⟩; simp [Forecasting.record]

instance : Forecasting.record.codec.Exact where
  carries _ _ := Record.carries (by simp [Forecasting.record])

/-! ## Records with numbers and free-form data -/

instance : StackEnsemble.record.Lawful where
  ext := by rintro ⟨⟩ ⟨⟩; simp [StackEnsemble.record]

theorem StackEnsemble.carries {x : StackEnsemble}
    (hf : ∀ v ∈ x.trainPercentage, Decimal.isFinite v = true)
    (ha : ∀ v ∈ x.arguments, v.json.isNull = false) :
    Passage.payload.Carries StackEnsemble.record.codec x x := by
  have hf := Passage.carriesOption_float_self (p := .payload) hf
  have ha := Passage.CarriesOption.refl fun v hv => Passage.payload_carries_freeForm (ha v hv)
  exact Record.carries (by simp [StackEnsemble.record, hf, ha])

instance : Training.record.Lawful where
  ext := by rintro ⟨⟩ ⟨⟩; simp [Training.record]

theorem Training.carries {p : Passage} {x : Training}
    (hs : ∀ s ∈ x.stackEnsembleSettings, p.Carries StackEnsemble.record.codec s s) :
    p.Carries Training.record.codec x x := by
  have hs := Passage.CarriesOption.refl hs
  exact Record.carries (by simp [Training.record, hs])

instance : Limits.record.Lawful where
  ext := by rintro ⟨⟩ ⟨⟩; simp [Limits.record]

theorem Limits.carries {p : Passage} {x : Limits}
    (hf : ∀ v ∈ x.exitScore, Decimal.isFinite v = true) : p.Carries Limits.record.codec x x := by
  have hf := Passage.carriesOption_float_self (p := p) hf
  exact Record.carries (by simp [Limits.record, hf])

instance : Transformer.record.Lawful where
  ext := by rintro ⟨⟩ ⟨⟩; simp [Transformer.record]

theorem Transformer.carries {x : Transformer} (ha : ∀ v ∈ x.parameters, v.json.isNull = false) :
    Passage.payload.Carries Transformer.record.codec x x := by
  have ha := Passage.CarriesOption.refl fun v hv => Passage.payload_carries_freeForm (ha v hv)
  exact Record.carries (by simp [Transformer.record, ha])

instance : Featurization.record.Lawful where
  ext := by rintro ⟨⟩ ⟨⟩; simp [Featurization.record]

theorem Featurization.carries {p : Passage} {x : Featurization}
    (ht : ∀ d ∈ x.transformerParameters, ∀ e ∈ d.entries, ∀ t ∈ e.2,
      p.Carries Transformer.record.codec t t) : p.Carries Featurization.record.codec x x := by
  have ht : p.CarriesOption Transformer.record.codec.listOf.dictOf x.transformerParameters
      x.transformerParameters :=
    .refl fun d hd => .dictOf_self fun e he => .listOf_self (ht d hd e he)
  exact Record.carries (by simp [Featurization.record, ht])

/-! ## Payloads -/

instance : Task.record.Lawful where
  ext := by rintro ⟨⟩ ⟨⟩; simp [Task.record]

theorem Task.carries {p : Passage} {x : Task}
    (hv : ∀ v ∈ x.validationSize, Decimal.isFinite v = true)
    (ht : ∀ v ∈ x.testSize, Decimal.isFinite v = true)
    (hf : ∀ s ∈ x.featurization, p.Carries Featurization.record.codec s s)
    (hl : ∀ s ∈ x.limits, p.Carries Limits.record.codec s s)
    (hs : ∀ s ∈ x.training, p.Carries Training.record.codec s s) :
    p.Carries Task.record.codec x x := by
  have hv := Passage.carriesOption_float_self (p := p) hv
  have ht := Passage.carriesOption_float_self (p := p) ht
  have hf := Passage.CarriesOption.refl hf
  have hl := Passage.CarriesOption.refl hl
  have hs := Passage.CarriesOption.refl hs
  exact Record.carries (by simp [Task.record, hv, ht, hf, hl, hs])

instance : Properties.record.Lawful where
  ext := by rintro ⟨⟩ ⟨⟩; simp [Properties.record]

theorem Properties.carries {x : Properties}
    (ht : Passage.payload.Carries Task.record.codec x.task x.task) :
    Passage.payload.Carries Properties.record.codec x x := by
  have hs : Passage.payload.Carries Codec.freeForm.dictOf x.services x.services :=
    .dictOf_of_deliver fun e _ => Passage.payload_deliver_freeForm e.2
  have ho : Passage.payload.Carries Output.record.codec.nullable.dictOf x.outputs x.outputs :=
    .dictOf_of_deliver fun e _ => Passage.payload_deliver_nullable e.2
  exact Record.carries (by simp [Properties.record, ht, hs, ho])

instance : Payload.record.Lawful where
  ext := by rintro ⟨⟩ ⟨⟩; simp [Payload.record]

theorem Payload.carries {x : Payload}
    (hp : Passage.payload.Carries Properties.record.codec x.properties x.properties) :
    Passage.payload.Carries Payload.record.codec x x :=
  Record.carries (by simp [Payload.record, hp])

end ForecastJob.Wire
