import ForecastJob.Proofs.Keys
import ForecastJob.Proofs.Schema.Forms

/-!
# Unknown keys in a document

A key that no record knows is a mistake, and a document with one is refused, however deep it stands.
The exception is an identity of a kind without fields: all that it has but its kind is passed over.

* `Schema.JobDocument.shape` : where a document has records;
* `Schema.JobDocument.strict` : the fields of a document were read only if it has no unknown key;
* `Schema.load_of_hasUnknownKey` : a document with an unknown key is refused as one that cannot be
  read, but for the identities without fields.
-/

namespace ForecastJob

namespace Identity

/-- The kinds of identities with fields, and the names of these. -/
def kinds : List (String × List String) :=
  [("managed", ManagedIdentity.record.names)]

/-- The kinds of identities without fields. -/
def bareKinds : List String :=
  ["aml_token", "user_identity"]

theorem strict : codec.Strict (.tagged "type" kinds) := by
  refine Union.strict (u := union) fun kind names hk => ?_
  cases List.mem_singleton.1 hk
  exact ⟨_, ManagedIdentity.record, .managed, rfl, rfl, rfl⟩

/-- An identity without fields is read from its kind alone. -/
theorem read_bare {kind : String} (hk : kind ∈ bareKinds) {es₁ es₂ : List (String × Node)}
    (ht : "type" ∉ keysOf (es₁ ++ es₂)) :
    codec.read (Node.table (es₁ ++ ("type", .text kind) :: es₂)).toTree =
      codec.read (Node.table [("type", .text kind)]).toTree := by
  obtain ⟨i, hv⟩ : ∃ i, union.variant? (.text kind) = some (Union.unit i) := by
    rcases List.mem_cons.1 hk with rfl | hk
    · exact ⟨.amlToken, rfl⟩
    · cases List.mem_singleton.1 hk
      exact ⟨.userIdentity, rfl⟩
  have hread : ∀ {es es' : List (String × Node)}, "type" ∉ keysOf es → "type" ∉ keysOf es' →
      codec.read (Node.table (es ++ ("type", .text kind) :: es')).toTree = .ok i := by
    intro es es' h h'
    have hsplit := Union.split_tag hv (entriesAreReadable_entryTrees es) (notMem_entryTrees h)
      (entriesAreReadable_entryTrees es') (notMem_entryTrees h') []
    have htrees : entryTrees (es ++ ("type", .text kind) :: es') =
        entryTrees es ++ (some union.tag, .text kind) :: entryTrees es' := by
      simp [entryTrees_eq, Node.toTree, union]
    simp only [codec, Node.toTree, Union.read, htrees, hsplit]
    rfl
  rw [keysOf, List.map_append, List.mem_append, not_or] at ht
  have hbare := @hread [] [] List.not_mem_nil List.not_mem_nil
  exact (hread ht.1 ht.2).trans hbare.symm

end Identity

namespace Schema

/-! ## Shapes -/

/-- A data input holds no other record. -/
def Input.shape : Shape :=
  .record InputTable.record.names []

/-- Where a document has records, if these are the kinds of identities whose keys are fixed. -/
def JobDocument.shape (layout : Layout) (kinds : List (String × List String)) : Shape :=
  .record (record layout).names [
    ("outputs", .dict (.record JobOutput.record.names [])),
    ("resources", .record JobResources.record.names []),
    ("identity", .tagged "type" kinds),
    ("queue_settings", .record QueueSettings.record.names []),
    ("training_data", Input.shape),
    ("validation_data", Input.shape),
    ("test_data", Input.shape),
    ("featurization", .record FeaturizationSettings.record.names [
      ("transformer_params", .dict (.list (.record ColumnTransformer.record.names [])))]),
    ("limits", .record LimitSettings.record.names []),
    ("training", .record TrainingSettings.record.names [
      ("stack_ensemble_settings", .record StackEnsembleSettings.record.names [])]),
    ("forecasting", .record ForecastingSettings.record.names [])]

theorem Input.strict (layout : Layout) : (codec layout).Strict shape := by
  intro n i hi hn
  rcases read_eq_ok.1 hi with ⟨x, hx, -⟩ | ⟨-, s, hs, -⟩
  · exact Record.strict rfl (by simp) hx hn
  · -- a text is no record
    cases hn <;> cases hs

theorem JobDocument.strict (layout : Layout) :
    (record layout).codec.Strict (shape layout Identity.kinds) := by
  have hflat : ∀ {ρ : Type} {r : Record ρ}, r.closed = true → r.codec.Strict (.record r.names []) :=
    fun hc => Record.strict hc (by simp)
  have hfeaturization : FeaturizationSettings.record.codec.Strict
      (.record FeaturizationSettings.record.names [
        ("transformer_params", .dict (.list (.record ColumnTransformer.record.names [])))]) :=
    Record.strict rfl (by
      have htransformer := (hflat (r := ColumnTransformer.record) rfl).listOf.dictOf
      simp [FeaturizationSettings.record, htransformer])
  have htraining : TrainingSettings.record.codec.Strict (.record TrainingSettings.record.names [
      ("stack_ensemble_settings", .record StackEnsembleSettings.record.names [])]) :=
    Record.strict rfl (by
      have hensemble := hflat (r := StackEnsembleSettings.record) rfl
      simp [TrainingSettings.record, hensemble])
  have houtput := hflat (r := JobOutput.record) rfl
  have hresources := hflat (r := JobResources.record) rfl
  have hqueue := hflat (r := QueueSettings.record) rfl
  have hlimits := hflat (r := LimitSettings.record) rfl
  have hforecasting := hflat (r := ForecastingSettings.record) rfl
  have hinput := Input.strict layout
  refine Record.strict rfl ?_
  simp [record, Identity.strict, houtput, hresources, hqueue, hlimits, hforecasting, hinput,
    hfeaturization, htraining]

/-! ## Loading -/

theorem load_of_read_error {layout : Layout} {base note : String} {d : Document} {fault : Fault}
    (h : (JobDocument.record layout).read d.toTree = .error fault) :
    load layout base note d = .error { cause := .parse fault, note } := by
  rw [load, loadTree, h]
  rfl

/-- Documents that are read alike are loaded alike. -/
theorem load_congr {layout : Layout} {base note : String} {d d' : Document}
    (h : (JobDocument.record layout).read d.toTree = (JobDocument.record layout).read d'.toTree) :
    load layout base note d = load layout base note d' := by
  rw [load, load, loadTree, loadTree, h]

/-- A document with an unknown key is refused. An identity without fields is the exception: what it
has besides its kind is passed over. -/
theorem load_of_hasUnknownKey (layout : Layout) (base note : String) :
    (∀ d : Document, (Node.table d).HasUnknownKey (JobDocument.shape layout Identity.kinds) →
      ∃ fault, load layout base note d = .error { cause := .parse fault, note }) ∧
    ∀ kind ∈ Identity.bareKinds, ∀ d₁ d₂ : Document, ∀ es₁ es₂ : List (String × Node),
      "type" ∉ keysOf (es₁ ++ es₂) →
      load layout base note
          (d₁ ++ ("identity", .table (es₁ ++ ("type", .text kind) :: es₂)) :: d₂) =
        load layout base note (d₁ ++ ("identity", .table [("type", .text kind)]) :: d₂) := by
  constructor
  · intro d hd
    cases hread : (JobDocument.record layout).read d.toTree with
    | error fault => exact ⟨fault, load_of_read_error hread⟩
    | ok fields => exact absurd hd (JobDocument.strict layout hread)
  · intro kind hk d₁ d₂ es₁ es₂ ht
    refine load_congr ?_
    have htrees : ∀ n : Node, Document.toTree (d₁ ++ ("identity", n) :: d₂) =
        .table (entryTrees d₁ ++ (some "identity", n.toTree) :: entryTrees d₂) := by
      intro n
      simp [Document.toTree, entryTrees_eq]
    have hfield : (JobDocument.record layout).fields.find? (·.name == "identity") =
        some (.optional "identity" Identity.codec (·.identity) fun v r =>
          { r with identity := v }) := by
      simp [JobDocument.record]
    rw [htrees, htrees]
    refine Record.readTable_congr hfield (fun z => ?_) _ _
    have hsame := Identity.read_bare hk ht
    simp only [Field.optional, Codec.nullable_read_of_ne_null (Node.toTree_ne_null _), hsame]

/-- Training settings that are written as a list have an unknown key further in; the identity of a
token may have any. -/
theorem load_of_hasUnknownKey_nested :
    (∃ fault, load .node "." "n" [("target_column_name", .text "y"),
        ("training", .list [.bool true, .bool true, .bool true, .bool true, .bool true,
          .table [("meta_learner", .text "lasso")]])] =
      .error { cause := .parse fault, note := "n" }) ∧
    load .standalone "." "" [("identity", .table [("client_id", .text "x"),
        ("type", .text "aml_token")])] =
      load .standalone "." "" [("identity", .table [("type", .text "aml_token")])] := by
  have hsettings : (Node.table [("meta_learner", .text "lasso")]).HasUnknownKey
      (.record StackEnsembleSettings.record.names []) :=
    .key List.mem_cons_self (by decide)
  have htraining : (Node.list [.bool true, .bool true, .bool true, .bool true, .bool true,
      .table [("meta_learner", .text "lasso")]]).HasUnknownKey
      (.record TrainingSettings.record.names
        [("stack_ensemble_settings", .record StackEnsembleSettings.record.names [])]) :=
    .place List.mem_cons_self (by simp [Record.names, TrainingSettings.record]) hsettings
  constructor
  · exact (load_of_hasUnknownKey .node "." "n").1 _
      (.field (by simp) (List.mem_cons_of_mem _ List.mem_cons_self) htraining)
  · exact (load_of_hasUnknownKey .standalone "." "").2 "aml_token" List.mem_cons_self [] []
      [("client_id", .text "x")] [] (by decide)

/-- A document whose identity is a token with a key that only a managed identity has is loaded. -/
theorem exists_load_hasUnknownKey :
    ∃ d : Document, (Node.table d).HasUnknownKey (JobDocument.shape .standalone
        (Identity.kinds ++ Identity.bareKinds.map fun kind => (kind, []))) ∧
      ∃ job, load .standalone "." "" d = .ok job := by
  have hkind : ("aml_token", ([] : List String)) ∈
      Identity.kinds ++ Identity.bareKinds.map fun kind => (kind, []) := by
    simp [Identity.bareKinds]
  have hidentity :
      (Node.table [("client_id", .text "x"), ("type", .text "aml_token")]).HasUnknownKey
        (.tagged "type" (Identity.kinds ++ Identity.bareKinds.map fun kind => (kind, []))) :=
    .kindKey (List.mem_cons_of_mem _ List.mem_cons_self) hkind List.mem_cons_self (by decide)
  refine ⟨[("identity", .table [("client_id", .text "x"), ("type", .text "aml_token")]),
    ("target_column_name", .text "y"),
    ("training_data", .table [("path", .text "azureml:d:1")])], ?_, _, rfl⟩
  exact .field (by simp) List.mem_cons_self hidentity

end Schema

end ForecastJob
