import ForecastJob.Proofs.Document
import ForecastJob.Proofs.Entries
import ForecastJob.Proofs.Schema.Conversion
import ForecastJob.Proofs.Schema.Forms

/-!
# What the layouts have in common

The two layouts read data inputs in different ways and make different checks. On the documents that
both of them allow they agree.

* `Schema.JobDocument.forall₂_extends` : the layouts differ in the data inputs only;
* `Schema.load_node_of_standalone` : a document of its own is a node as well, if it has no field
  that a node may not have;
* `Schema.load_standalone_of_node` : a node is a document of its own as well, if no data input is
  written as a text and the metric is known;
* `Schema.node_extends_standalone` : both, and that a node has no field of a document of its own.
-/

namespace ForecastJob

namespace Schema

variable {layout layout' : Layout} {base note : String} {d : Document} {job : Job}
  {fields : JobDocument}

/-- The fields that only a document of its own may have. -/
def standaloneKeys : List String :=
  ["$schema", "experiment_name"]

/-- The fields that hold data inputs. -/
def inputKeys : List String :=
  ["training_data", "validation_data", "test_data"]

namespace JobDocument

/-- The data inputs of a document. -/
def inputs (fields : JobDocument) : List Input :=
  fields.trainingData.toList ++ fields.validationData.toList ++ fields.testData.toList

/-- The data input that a field of a document holds. -/
def input? (fields : JobDocument) : String → Option Input
  | "training_data" => fields.trainingData
  | "validation_data" => fields.validationData
  | "test_data" => fields.testData
  | _ => none

/-! ## Data inputs -/

theorem exists_field_of_mem_inputKeys {key : String} (hk : key ∈ inputKeys) :
    ∃ set, Field.optional key (Input.codec layout) (·.input? key) set ∈ (record layout).fields ∧
      (∀ v z, (set v z).input? key = v) ∧ (record layout).blank.input? key = none ∧
      ∀ fields : JobDocument, ∀ i ∈ fields.input? key, i ∈ fields.inputs := by
  simp only [inputKeys, List.mem_cons, List.not_mem_nil, or_false] at hk
  rcases hk with rfl | rfl | rfl
  · exact ⟨fun v r => { r with trainingData := v }, by simp [record, input?],
      fun _ _ => rfl, rfl, by simp +contextual [inputs, input?]⟩
  · exact ⟨fun v r => { r with validationData := v }, by simp [record, input?],
      fun _ _ => rfl, rfl, by simp +contextual [inputs, input?]⟩
  · exact ⟨fun v r => { r with testData := v }, by simp [record, input?],
      fun _ _ => rfl, rfl, by simp +contextual [inputs, input?]⟩

/-- A data input of a document is read into one of its fields. -/
theorem exists_input_of_read (h : (record layout).read d.toTree = .ok fields) {key : String}
    (hk : key ∈ inputKeys) {n : Node} (hn : (key, n) ∈ d) :
    ∃ i ∈ fields.inputs, (Input.codec layout).read n.toTree = .ok i := by
  obtain ⟨set, hf, hs, hb, hinput⟩ := @exists_field_of_mem_inputKeys layout _ hk
  obtain ⟨i, hi, hread⟩ := Record.exists_value_of_readTable hf hs hb h hn
  exact ⟨i, hinput fields i hi, hread⟩

/-- The data inputs of a document that describes a job describe data. -/
theorem exists_toDataInput_of_toData {data : DataSettings} (h : fields.toData base = .ok data)
    {i : Input} (hi : i ∈ fields.inputs) : ∃ x, i.toDataInput base = .ok x := by
  obtain ⟨_, input, training, validation, test, -, htraining, hx, hvalidation, htest, -⟩ :=
    toData_eq_ok_iff.1 h
  have hoption : ∀ {o : Option Input} {o' : Option DataInput},
      o.mapM (Input.toDataInput base) = .ok o' → o = some i → ∃ x, i.toDataInput base = .ok x := by
    rintro _ _ ho rfl
    rcases Except.mapM_option_eq_ok.1 ho with ⟨hnone, -⟩ | ⟨a, x, ha, hx, -⟩
    · cases hnone
    · cases ha
      exact ⟨x, hx⟩
  simp only [inputs, List.mem_append, Option.mem_toList] at hi
  rcases hi with (hi | hi) | hi
  · cases htraining.symm.trans hi
    exact ⟨training, hx⟩
  · exact hoption hvalidation hi
  · exact hoption htest hi

/-- In a node that describes a job, a data input that is not written as a text is a table: a date
reads as a text, but as none that is bound. -/
theorem read_standalone_of_node (h : (record .node).read d.toTree = .ok fields)
    {data : DataSettings} (hdata : fields.toData base = .ok data) {key : String}
    (hk : key ∈ inputKeys) (hd : ∀ s, (key, .text s) ∉ d) {t : Tree}
    (ht : (some key, t) ∈ entryTrees d) {i : Input} (hi : (Input.codec .node).read t = .ok i) :
    (Input.codec .standalone).read t = .ok i := by
  rcases Input.read_eq_ok.1 hi with htable | ⟨-, s, rfl, rfl⟩
  · exact Input.read_eq_ok.2 (.inl htable)
  · obtain ⟨n, hn, htree⟩ := mem_entryTrees.1 ht
    obtain ⟨i, him, hread⟩ := exists_input_of_read h hk hn
    rw [htree, hi] at hread
    cases hread
    obtain ⟨x, hx⟩ := exists_toDataInput_of_toData hdata him
    have hbound : Binding.isBound s = true := by
      rw [Input.toDataInput] at hx
      split at hx
      · assumption
      · cases hx
    have htext := Node.eq_text_of_toTree htree (Binding.dollar_mem_of_isExpression hbound) rfl
    exact absurd (htext ▸ hn) (hd s)

/-- The layouts differ in how data inputs are read, and in nothing else. -/
theorem forall₂_extends {es : List (Option String × Tree)}
    (h : ∀ key ∈ inputKeys, ∀ t, (some key, t) ∈ es → ∀ i, (Input.codec layout).read t = .ok i →
      (Input.codec layout').read t = .ok i) :
    List.Forall₂ (Field.Extends es) (record layout').fields (record layout).fields := by
  have htraining := h "training_data" (by simp [inputKeys])
  have hvalidation := h "validation_data" (by simp [inputKeys])
  have htest := h "test_data" (by simp [inputKeys])
  simp only [record, List.forall₂_cons, Field.extends_refl, true_and, List.Forall₂.nil, and_true]
  exact ⟨Field.extends_optional htraining, Field.extends_optional hvalidation,
    Field.extends_optional htest⟩

theorem eq_none_iff_of_read (h : (record layout).read d.toTree = .ok fields) :
    fields.schema = none ∧ fields.experimentName = none ↔
      ∀ key ∈ standaloneKeys, key ∉ keysOf d := by
  have hschema : .optional "$schema" .text (·.schema) (fun v r => { r with schema := v }) ∈
      (record layout).fields := by
    simp [record]
  have hexperiment : .optional "experiment_name" .text (·.experimentName)
      (fun v r => { r with experimentName := v }) ∈ (record layout).fields := by
    simp [record]
  rw [Record.eq_none_iff_of_readTable hschema (fun _ _ => rfl) rfl h,
    Record.eq_none_iff_of_readTable hexperiment (fun _ _ => rfl) rfl h]
  simp [standaloneKeys]

end JobDocument

/-! ## Loading -/

theorem load_node_of_standalone (h : load .standalone base note d = .ok job)
    (hk : ∀ key ∈ standaloneKeys, key ∉ keysOf d) : load .node base note d = .ok job := by
  obtain ⟨fields, hread, hfields⟩ := load_eq_ok_iff.1 h
  have hinput : ∀ key ∈ inputKeys, ∀ t, (some key, t) ∈ entryTrees d →
      ∀ i, (Input.codec .standalone).read t = .ok i → (Input.codec .node).read t = .ok i := by
    intro key _ t _ i hi
    rcases Input.read_eq_ok.1 hi with htable | ⟨hlayout, -⟩
    · exact Input.read_eq_ok.2 (.inl htable)
    · cases hlayout
  have hnode := Record.readTable_of_extends (JobDocument.forall₂_extends hinput) rfl rfl hread
  exact load_eq_ok_iff.2 ⟨fields, hnode, { hfields with
    fields := fun _ => (JobDocument.eq_none_iff_of_read hread).2 hk
    known := nofun }⟩

theorem load_standalone_of_node (h : load .node base note d = .ok job)
    (hd : ∀ key ∈ inputKeys, ∀ s, (key, .text s) ∉ d) (hm : ∃ m, job.metric = .concrete m) :
    load .standalone base note d = .ok job := by
  obtain ⟨fields, hread, hfields⟩ := load_eq_ok_iff.1 h
  obtain ⟨m, hm⟩ := hm
  have hinput : ∀ key ∈ inputKeys, ∀ t, (some key, t) ∈ entryTrees d →
      ∀ i, (Input.codec .node).read t = .ok i → (Input.codec .standalone).read t = .ok i := by
    intro key hk t ht i hi
    exact JobDocument.read_standalone_of_node hread hfields.data hk (hd key hk) ht hi
  have hstandalone := Record.readTable_of_extends (JobDocument.forall₂_extends hinput) rfl rfl hread
  exact load_eq_ok_iff.2 ⟨fields, hstandalone, { hfields with
    fields := nofun
    known := fun _ => by rw [hm]; rfl }⟩

/-- A node that was loaded has no field that only a document of its own may have. -/
theorem notMem_keysOf_of_load_node (h : load .node base note d = .ok job) :
    ∀ key ∈ standaloneKeys, key ∉ keysOf d := by
  obtain ⟨fields, hread, hfields⟩ := load_eq_ok_iff.1 h
  exact (JobDocument.eq_none_iff_of_read hread).1 (hfields.fields rfl)

/-- What both layouts allow they load as the same job: a document of its own without the fields that
a node may not have, and a node with a known metric whose data inputs are no texts. A node is refused
if it has one of those fields. -/
theorem node_extends_standalone (base note : String) (d : Document) :
    (∀ job, load .standalone base note d = .ok job → (∀ key ∈ standaloneKeys, key ∉ keysOf d) →
      load .node base note d = .ok job) ∧
    (∀ job m, load .node base note d = .ok job → job.metric = .concrete m →
      (∀ key ∈ inputKeys, ∀ s, (key, .text s) ∉ d) → load .standalone base note d = .ok job) ∧
    ∀ key ∈ standaloneKeys, key ∈ keysOf d → ∀ job, load .node base note d ≠ .ok job := by
  refine ⟨fun job h hk => ?_, fun job m h hm hd => ?_, fun key hk hmem job h => ?_⟩
  · exact load_node_of_standalone h hk
  · exact load_standalone_of_node h hd ⟨m, hm⟩
  · exact notMem_keysOf_of_load_node h key hk hmem

/-- A table as training data is seen from the same base in both layouts. A schema is not for nodes. -/
theorem node_extends_standalone_table :
    ∃ job, load .standalone "/data" "" [("target_column_name", .text "y"),
        ("training_data", .table [("path", .text "./d")])] = .ok job ∧
      load .node "/data" "" [("target_column_name", .text "y"),
        ("training_data", .table [("path", .text "./d")])] = .ok job ∧
      ∀ job', load .node "/data" "" [("$schema", .text "s"), ("target_column_name", .text "y"),
        ("training_data", .table [("path", .text "./d")])] ≠ .ok job' := by
  obtain ⟨job, hnode, hm⟩ : ∃ job, load .node "/data" "" [("target_column_name", .text "y"),
      ("training_data", .table [("path", .text "./d")])] = .ok job ∧
        job.metric = .concrete default :=
    ⟨_, rfl, rfl⟩
  have hextends := node_extends_standalone "/data" "" [("target_column_name", .text "y"),
    ("training_data", .table [("path", .text "./d")])]
  have hstandalone := hextends.2.1 job default hnode hm (by simp [inputKeys])
  have hsame := hextends.1 job hstandalone (by decide)
  exact ⟨job, hstandalone, hsame, (node_extends_standalone "/data" "" _).2.2 "$schema"
    List.mem_cons_self List.mem_cons_self⟩

end Schema

end ForecastJob
