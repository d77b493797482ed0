import ForecastJob.Proofs.Insertion
import ForecastJob.Wire.Decode

/-!
# Payloads of later versions of the service

A later version of the service may write more keys into any record of a payload. No record is
closed, so that the payload is read as it was, and describes the same job.

* `Wire.Payload.shape` : where a payload has records; dictionaries of texts and free-form data are
  none;
* `Wire.Payload.tolerant` : one key more does not matter;
* `Wire.Payload.read_of_gainsKeys` : nor does any number of them.
-/

namespace ForecastJob.Wire

/-! ## Identities, numbers and lags -/

/-- Each kind of identity has keys of its own. -/
def Identity.shape : Shape :=
  .tagged "identityType" [
    ("AMLToken", []), ("Managed", ManagedIdentity.record.names), ("UserIdentity", [])]

/-- A number that the service chooses has no value. -/
def ModeValue.shape : Shape :=
  .tagged "mode" [("Auto", []), ("Custom", customRecord.names)]

/-- Lags that the service chooses have no values. -/
def Lags.shape : Shape :=
  .tagged "mode" [("Auto", []), ("Custom", customRecord.names)]

theorem Identity.tolerant : codec.Tolerant shape := by
  have hmanaged := Union.skips_fields (r := ManagedIdentity.record) rfl managed
  exact Union.tolerant (u := union) (by simpa [union, Union.variant?] using hmanaged)

theorem ModeValue.tolerant : codec.Tolerant shape := by
  have hcustom := Union.skips_fields (r := customRecord) rfl custom
  exact Union.tolerant (u := union) (by simpa [union, Union.variant?] using hcustom)

theorem Lags.tolerant : codec.Tolerant shape := by
  have hcustom := Union.skips_fields (r := customRecord) rfl custom
  exact Union.tolerant (u := union) (by simpa [union, Union.variant?] using hcustom)

/-! ## Records -/

def Forecasting.shape : Shape :=
  .record record.names [
    ("forecastHorizon", ModeValue.shape), ("seasonality", ModeValue.shape),
    ("targetLags", Lags.shape), ("targetRollingWindowSize", ModeValue.shape)]

def Training.shape : Shape :=
  .record record.names [("stackEnsembleSettings", .record StackEnsemble.record.names [])]

def Featurization.shape : Shape :=
  .record record.names [
    ("transformerParams", .dict (.list (.record Transformer.record.names [])))]

def Task.shape : Shape :=
  .record record.names [
    ("trainingData", .record Input.record.names []),
    ("validationData", .record Input.record.names []),
    ("testData", .record Input.record.names []),
    ("nCrossValidations", ModeValue.shape),
    ("featurizationSettings", Featurization.shape),
    ("limitSettings", .record Limits.record.names []),
    ("trainingSettings", Training.shape),
    ("forecastingSettings", Forecasting.shape)]

def Properties.shape : Shape :=
  .record record.names [
    ("outputs", .dict (.record Output.record.names [])),
    ("resources", .record Resources.record.names []),
    ("taskDetails", Task.shape),
    ("identity", Identity.shape),
    ("queueSettings", .record Queue.record.names [])]

/-- Where a payload has records. -/
def Payload.shape : Shape :=
  .record record.names [
    ("properties", Properties.shape),
    ("systemData", .record SystemData.record.names [])]

/-- A record that holds no other one. -/
theorem tolerant_flat {ρ : Type} {r : Record ρ} (hc : r.closed = false) :
    r.codec.Tolerant (.record r.names []) :=
  Record.tolerant hc (by simp)

theorem Forecasting.tolerant : record.codec.Tolerant shape :=
  Record.tolerant rfl (by simp [record, ModeValue.tolerant, Lags.tolerant])

theorem Training.tolerant : record.codec.Tolerant shape :=
  Record.tolerant rfl (by simp [record, tolerant_flat (r := StackEnsemble.record) rfl])

theorem Featurization.tolerant : record.codec.Tolerant shape := by
  have htransformers := (tolerant_flat (r := Transformer.record) rfl).listOf.dictOf
  exact Record.tolerant rfl (by simp [record, htransformers])

theorem Task.tolerant : record.codec.Tolerant shape := by
  have hinput := tolerant_flat (r := Input.record) rfl
  have hlimits := tolerant_flat (r := Limits.record) rfl
  exact Record.tolerant rfl (by simp [record, hinput, hlimits, ModeValue.tolerant,
    Featurization.tolerant, Training.tolerant, Forecasting.tolerant])

theorem Properties.tolerant : record.codec.Tolerant shape := by
  have houtput := (tolerant_flat (r := Output.record) rfl).nullable
  have hresources := tolerant_flat (r := Resources.record) rfl
  have hqueue := tolerant_flat (r := Queue.record) rfl
  exact Record.tolerant rfl (by simp [record, houtput, hresources, hqueue, Task.tolerant,
    Identity.tolerant])

theorem Payload.tolerant : record.codec.Tolerant shape := by
  have hsystem := tolerant_flat (r := SystemData.record) rfl
  exact Record.tolerant rfl (by simp [record, hsystem, Properties.tolerant])

/-! ## Payloads -/

namespace Payload

variable {p p' : Json}

/-- A payload is read as it was when its records, any of them, gain keys that they do not know, and
describes the same job, or none for the same reason. -/
theorem read_of_gainsKeys (h : Relation.ReflTransGen (Json.GainsKey shape) p p') :
    (∀ payload, record.read p.toTree = .ok payload → record.read p'.toTree = .ok payload) ∧
    (record.read p'.toTree).map Job.ofPayload = (record.read p.toTree).map Job.ofPayload := by
  have hread : record.read p'.toTree = record.read p.toTree := by
    induction h with
    | refl => rfl
    | tail _ hgains ih => exact (tolerant hgains).trans ih
  rw [hread]
  exact ⟨fun _ hp => hp, rfl⟩

/-- An identity of a kind without fields gains a field of another kind, and a number a unit. -/
theorem read_of_gainsKeys_nested :
    ∃ p p' payload, p = Json.object [("properties", .object [
          ("jobType", .text "AutoML"),
          ("taskDetails", .object [
            ("taskType", .text "Forecasting"),
            ("nCrossValidations", .object [("mode", .text "Custom"), ("value", .int 3)])]),
          ("identity", .object [("identityType", .text "AMLToken")])])] ∧
      p' = Json.object [("properties", .object [
          ("jobType", .text "AutoML"),
          ("taskDetails", .object [
            ("taskType", .text "Forecasting"),
            ("nCrossValidations", .object [
              ("unit", .null), ("mode", .text "Custom"), ("value", .int 3)])]),
          ("identity", .object [("identityType", .text "AMLToken"), ("clientId", .bool true)])])] ∧
      record.read p.toTree = .ok payload ∧ record.read p'.toTree = .ok payload ∧
      payload.properties.identity = some .amlToken ∧
      payload.properties.task.crossValidations = some (.custom 3) := by
  obtain ⟨p, hp⟩ : ∃ p, p = Json.object [("properties", .object [
      ("jobType", .text "AutoML"),
      ("taskDetails", .object [
        ("taskType", .text "Forecasting"),
        ("nCrossValidations", .object [("mode", .text "Custom"), ("value", .int 3)])]),
      ("identity", .object [("identityType", .text "AMLToken")])])] := ⟨_, rfl⟩
  obtain ⟨payload, hread, hidentity, hnumber⟩ : ∃ payload, record.read p.toTree = .ok payload ∧
      payload.properties.identity = some .amlToken ∧
      payload.properties.task.crossValidations = some (.custom 3) := by
    subst hp
    exact ⟨_, rfl, rfl, rfl⟩
  have hgains : Relation.ReflTransGen (Json.GainsKey shape) p (.object [("properties", .object [
      ("jobType", .text "AutoML"),
      ("taskDetails", .object [
        ("taskType", .text "Forecasting"),
        ("nCrossValidations", .object [
          ("unit", .null), ("mode", .text "Custom"), ("value", .int 3)])]),
      ("identity", .object [("identityType", .text "AMLToken"), ("clientId", .bool true)])])]) := by
    rw [hp]
    exact .head
      (@Json.GainsKey.field _ _ [] [] "properties" _ _ Properties.shape (by simp)
        (@Json.GainsKey.field _ _ [_, _] [] "identity" _ _ Identity.shape (by simp)
          (@Json.GainsKey.kindKey _ "AMLToken" _ [] [_] [] "clientId" (by simp) (by simp) (by simp)
            (.bool true))))
      (.single (@Json.GainsKey.field _ _ [] [] "properties" _ _ Properties.shape (by simp)
        (@Json.GainsKey.field _ _ [_] [_] "taskDetails" _ _ Task.shape (by simp)
          (@Json.GainsKey.field _ _ [_] [] "nCrossValidations" _ _ ModeValue.shape (by simp)
            (@Json.GainsKey.kindKey _ "Custom" _ ["value"] [] [_, _] "unit" (by simp)
              (.tail _ (.head _)) (by simp) .null)))))
  exact ⟨p, _, payload, hp, rfl, hread, (read_of_gainsKeys hgains).1 payload hread, hidentity,
    hnumber⟩

end Payload

end ForecastJob.Wire
