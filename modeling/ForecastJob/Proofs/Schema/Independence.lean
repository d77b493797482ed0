import ForecastJob.Proofs.Schema.Layouts
import ForecastJob.Proofs.Schema.RoundTrip

/-!
# What a job owes to its caller

A caller says from which directory a document is seen, and adds a note to failures. The directory is
seen in the paths of data inputs, the note in failures, and neither of them anywhere else.

* `Location.isFixed_eq_false_iff` : the paths that depend on a directory;
* `Schema.loadTree_eq_map` : a document that is seen from a directory describes the same job as one
  that is seen from the current directory, but for its paths, which have been resolved;
* `Schema.exists_holdsPath_of_loadTree` : the paths are the ones that are written in the document;
* `Schema.load_independent` : two callers load jobs that differ in relative paths only, or fail for
  the same cause.
-/

namespace ForecastJob

/-! ## Paths -/

namespace Location

theorem hasScheme_iff {cs : List Char} : hasScheme cs = true ↔ "://".toList <:+: cs := by
  fun_induction hasScheme with
  | case1 cs => exact iff_of_true rfl ⟨[], cs, rfl⟩
  | case2 c cs hno ih =>
    rw [ih, List.infix_cons_iff]
    refine (or_iff_right ?_).symm
    rintro ⟨rest, hrest⟩
    cases hrest
    exact hno rest rfl rfl
  | case3 => simp

/-- A path depends on a directory if it is not bound, no URI, no reference to an asset, and not
absolute. -/
theorem isFixed_eq_false_iff {path : String} : isFixed path = false ↔
    Binding.isBound path = false ∧ ¬ "://".toList <:+: path.toList ∧
      path.startsWith "azureml:" = false ∧ isAbsolute path = false := by
  simp only [isFixed, Bool.or_eq_false_iff, and_assoc, ← hasScheme_iff, Bool.not_eq_true]

theorem resolve_of_isFixed {path : String} (h : isFixed path = true) (base : String) :
    resolve base path = path :=
  if_pos (by rw [h, Bool.or_true])

end Location

def DataInput.mapPath (f : String → String) (i : DataInput) : DataInput :=
  { i with path := f i.path }

def DataSettings.mapPaths (f : String → String) (s : DataSettings) : DataSettings :=
  { s with
    trainingData := s.trainingData.map (DataInput.mapPath f)
    validationData := s.validationData.map (DataInput.mapPath f)
    testData := s.testData.map (DataInput.mapPath f) }

/-- The job with other paths of its data inputs. -/
def Job.mapPaths (f : String → String) (job : Job) : Job :=
  { job with tabular := { job.tabular with data := job.data.mapPaths f } }

theorem Job.mapPaths_mapPaths (f g : String → String) (job : Job) :
    (job.mapPaths f).mapPaths g = job.mapPaths (g ∘ f) := by
  simp only [mapPaths, data, DataSettings.mapPaths, Option.map_map]
  rfl

namespace Schema

/-! ## Directories -/

variable (base : String)

theorem InputTable.toDataInput_eq_map (t : InputTable) :
    t.toDataInput base = DataInput.mapPath (Location.resolve base) <$> t.toDataInput "." := by
  simp only [toDataInput, map_bind, map_pure, DataInput.mapPath, Location.resolve_current]

/-- A data input that is written as a text is bound, so that its path is the same from any
directory. -/
theorem Input.toDataInput_eq_map (i : Input) :
    i.toDataInput base = DataInput.mapPath (Location.resolve base) <$> i.toDataInput "." := by
  cases i with
  | table t => exact t.toDataInput_eq_map base
  | text s =>
    by_cases h : Binding.isBound s = true
    · have hfixed : Location.isFixed s = true := by
        simp only [Location.isFixed, h, Bool.true_or]
      simp only [toDataInput, h, if_true]
      show (.ok { path := s } : Outcome DataInput) = .ok { path := Location.resolve base s }
      rw [Location.resolve_of_isFixed hfixed]
    · simp only [toDataInput, if_neg h]
      rfl

namespace JobDocument

theorem toData_eq_map (d : JobDocument) :
    d.toData base = DataSettings.mapPaths (Location.resolve base) <$> d.toData "." := by
  have hinput := Input.toDataInput_eq_map base
  have hoption := Except.mapM_option_fmap hinput
  simp only [toData, map_bind, map_pure]
  refine bind_congr fun target => bind_congr fun input => ?_
  rw [hinput, hoption, hoption]
  simp only [bind_map_left]
  rfl

theorem toJob_eq_map (layout : Layout) (d : JobDocument) :
    d.toJob layout base = Job.mapPaths (Location.resolve base) <$> d.toJob layout "." := by
  simp only [toJob, d.toData_eq_map base, map_bind, map_pure, bind_map_left]
  refine bind_congr fun _ => bind_congr fun _ => bind_congr fun _ => bind_congr fun _ =>
    bind_congr fun data => ?_
  cases hnew : Job.new d.toArgs with
  | error e => rfl
  | ok job =>
    obtain ⟨metric, -, hjob⟩ := Except.bind_eq_ok.1 hnew
    have hempty : job.data = {} := by
      cases hjob
      rfl
    simp only [Except.mapError_ok, Except.ok_bind, Job.setData_of_empty hempty]
    rfl

end JobDocument

theorem loadTree_eq_map (layout : Layout) (d : Document) :
    loadTree layout base d = Job.mapPaths (Location.resolve base) <$> loadTree layout "." d := by
  rw [loadTree, loadTree, map_bind]
  exact bind_congr fun fields => fields.toJob_eq_map base layout

end Schema

/-! ## Written paths -/

/-- The path is written in a value: as a text, under its key in a table, or behind the kind in a
list. -/
inductive Node.HoldsPath (path : String) : Node → Prop
  | text {n : Node} (h : n.toTree = .text path) : HoldsPath path n
  | table {es : List (String × Node)} {n : Node} (hn : ("path", n) ∈ es)
      (h : n.toTree = .text path) : HoldsPath path (.table es)
  | list {kind n : Node} {ns : List Node} (h : n.toTree = .text path) :
      HoldsPath path (.list (kind :: n :: ns))

/-- Only in a table can there be more than one path. -/
theorem Node.HoldsPath.unique {n : Node} {path path' : String} (h : n.HoldsPath path)
    (h' : n.HoldsPath path') (hn : ∀ es, n ≠ .table es) : path = path' := by
  cases h with
  | text h =>
    cases h' with
    | text h' => exact Tree.text.inj (h.symm.trans h')
    | table => exact absurd rfl (hn _)
    | list => cases h
  | table => exact absurd rfl (hn _)
  | list h =>
    cases h' with
    | text h' => cases h'
    | list h' => exact Tree.text.inj (h.symm.trans h')

/-- The data input that is read from a field of a document. -/
def DataSettings.input? (s : DataSettings) : String → Option DataInput
  | "training_data" => s.trainingData
  | "validation_data" => s.validationData
  | "test_data" => s.testData
  | _ => none

theorem DataSettings.input?_mapPaths (f : String → String) (s : DataSettings) (key : String) :
    (s.mapPaths f).input? key = (s.input? key).map (DataInput.mapPath f) := by
  unfold input?
  split <;> rfl

namespace Schema

/-- The table or list of a data input holds its path. -/
theorem InputTable.holdsPath_of_read {n : Node} {x : InputTable}
    (h : InputTable.record.read n.toTree = .ok x) : n.HoldsPath x.path := by
  cases n with
  | table es =>
    have hpath : .mandatory "path" .text (·.path) (fun v r => { r with path := v }) ∈
        InputTable.record.fields := by
      simp [InputTable.record]
    obtain ⟨t, ht, hread⟩ := Record.mandatory_of_readTable hpath (fun _ _ => rfl) h
    obtain ⟨n, hn, rfl⟩ := mem_entryTrees.1 ht
    exact .table hn (Codec.text_read_eq_ok.1 hread)
  | list ns =>
    rcases ns with _ | ⟨kind, _ | ⟨n, ns⟩⟩
    · cases h
    · obtain ⟨_, -, h⟩ := Except.bind_eq_ok.1 h
      cases h
    · obtain ⟨y, -, h⟩ := Except.bind_eq_ok.1 h
      obtain ⟨z, hz, h⟩ := Except.bind_eq_ok.1 h
      obtain ⟨path, hread, rfl⟩ := Except.map_eq_ok.1 hz
      have hpath : x.path = path := by
        rcases ns with _ | ⟨m, _ | ⟨extra, ns⟩⟩
        · cases h
          rfl
        · obtain ⟨w, hw, h⟩ := Except.bind_eq_ok.1 h
          obtain ⟨mode, -, rfl⟩ := Except.map_eq_ok.1 hw
          cases h
          rfl
        · obtain ⟨_, -, h⟩ := Except.bind_eq_ok.1 h
          cases h
      exact .list (hpath ▸ Codec.text_read_eq_ok.1 hread)
  | _ => cases h

/-- No other path than that of the data input is written in its table or list. -/
theorem InputTable.path_eq_of_read {n : Node} {x : InputTable} {path : String}
    (h : InputTable.record.read n.toTree = .ok x) (hn : n.HoldsPath path) : x.path = path := by
  cases n with
  | table es =>
    cases hn with
    | text ht => cases ht
    | table hm ht =>
      have hf : .mandatory "path" .text (·.path) (fun v r => { r with path := v }) ∈
          InputTable.record.fields := by
        simp [InputTable.record]
      obtain ⟨z, z', hread, hw⟩ :=
        (Record.field_of_readTable hf h).2 (.text path) (mem_entryTrees.2 ⟨_, hm, ht⟩)
      cases hread
      exact (Field.write_mandatory_inj.1 hw).symm
  | _ => exact (holdsPath_of_read h).unique hn nofun

/-- A data input that is seen from the current directory has the path that is written. -/
theorem Input.holdsPath_of_read {layout : Layout} {n : Node} {i : Input} {x : DataInput}
    (h : (codec layout).read n.toTree = .ok i) (hx : i.toDataInput "." = .ok x) :
    n.HoldsPath x.path := by
  rcases read_eq_ok.1 h with ⟨t, ht, rfl⟩ | ⟨-, s, hs, rfl⟩
  · obtain ⟨_, -, hx⟩ := Except.bind_eq_ok.1 hx
    cases hx
    rw [Location.resolve_current]
    exact InputTable.holdsPath_of_read ht
  · rw [toDataInput] at hx
    split at hx
    · cases hx
      exact .text hs
    · cases hx

/-- No other path than that of the data input is written in its value. -/
theorem Input.path_eq_of_read {layout : Layout} {n : Node} {i : Input} {x : DataInput}
    {path : String} (h : (codec layout).read n.toTree = .ok i) (hx : i.toDataInput "." = .ok x)
    (hn : n.HoldsPath path) : x.path = path := by
  rcases read_eq_ok.1 h with ⟨t, ht, rfl⟩ | ⟨-, s, hs, rfl⟩
  · obtain ⟨_, -, hx⟩ := Except.bind_eq_ok.1 hx
    cases hx
    rw [Location.resolve_current]
    exact InputTable.path_eq_of_read ht hn
  · refine (holdsPath_of_read h hx).unique hn ?_
    rintro es rfl
    cases hs

/-- The data inputs of a job are those of the document that describes it. -/
theorem JobDocument.mapM_input?_of_toData {base : String} {fields : JobDocument}
    {data : DataSettings} (h : fields.toData base = .ok data) {key : String}
    (hk : key ∈ inputKeys) :
    (fields.input? key).mapM (Input.toDataInput base) = .ok (data.input? key) := by
  obtain ⟨_, input, training, validation, test, -, htraining, hx, hvalidation, htest, rfl⟩ :=
    toData_eq_ok_iff.1 h
  simp only [inputKeys, List.mem_cons, List.not_mem_nil, or_false] at hk
  rcases hk with rfl | rfl | rfl
  · rw [input?, htraining, Option.mapM_some, hx]
    rfl
  · exact hvalidation
  · exact htest

/-- The data inputs of a job that is loaded from the current directory have the paths that are
written in the document. -/
theorem exists_holdsPath_of_loadTree {layout : Layout} {d : Document} {job : Job}
    (h : loadTree layout "." d = .ok job) {key : String} (hk : key ∈ inputKeys) {x : DataInput}
    (hx : job.data.input? key = some x) : ∃ n, (key, n) ∈ d ∧ n.HoldsPath x.path := by
  obtain ⟨fields, hread, hfields⟩ := Except.bind_eq_ok.1 h
  have hread := Except.mapError_eq_ok.1 hread
  have hdata := (JobDocument.toJob_eq_ok_iff.1 hfields).data
  obtain ⟨set, hf, hs, hb, -⟩ := @JobDocument.exists_field_of_mem_inputKeys layout _ hk
  have hinput := JobDocument.mapM_input?_of_toData hdata hk
  rw [hx] at hinput
  rcases Except.mapM_option_eq_ok.1 hinput with ⟨-, hnone⟩ | ⟨i, y, hi, hy, heq⟩
  · cases hnone
  · cases heq
    have hmem : key ∈ keysOf d := by
      by_contra hno
      have hnone := (Record.eq_none_iff_of_readTable hf hs hb hread).2 hno
      cases hi.symm.trans hnone
    obtain ⟨⟨key, n⟩, hn, rfl⟩ := List.mem_map.1 hmem
    obtain ⟨i', hi', hcodec⟩ := Record.exists_value_of_readTable hf hs hb hread hn
    cases hi.symm.trans hi'
    exact ⟨n, hn, Input.holdsPath_of_read hcodec hy⟩

/-! ## Two callers -/

/-- Two callers that load a document both fail for the same cause, each with its own note, or both
succeed. The jobs are then the same but for the paths of their data inputs; each of these is the
path that is written in the document, as it is seen from the caller's directory, and differs only if
it is not bound, no URI, no reference to an asset, and not absolute. -/
theorem load_independent (layout : Layout) (base₁ base₂ note₁ note₂ : String) (d : Document) :
    (∃ cause, load layout base₁ note₁ d = .error { cause, note := note₁ } ∧
      load layout base₂ note₂ d = .error { cause, note := note₂ }) ∨
    ∃ job₁ job₂, load layout base₁ note₁ d = .ok job₁ ∧ load layout base₂ note₂ d = .ok job₂ ∧
      (job₁.mapPaths fun _ => "") = (job₂.mapPaths fun _ => "") ∧
      ∀ key ∈ inputKeys, (job₁.data.input? key = none ∧ job₂.data.input? key = none) ∨
        ∃ n path mode, (key, n) ∈ d ∧ n.HoldsPath path ∧
          job₁.data.input? key = some { path := Location.resolve base₁ path, mode } ∧
          job₂.data.input? key = some { path := Location.resolve base₂ path, mode } ∧
          (Location.resolve base₁ path ≠ Location.resolve base₂ path →
            Binding.isBound path = false ∧ ¬ "://".toList <:+: path.toList ∧
              path.startsWith "azureml:" = false ∧ Location.isAbsolute path = false) := by
  have hload : ∀ base note, load layout base note d =
      noted note (Job.mapPaths (Location.resolve base) <$> loadTree layout "." d) := by
    intro base note
    rw [load, loadTree_eq_map]
  rw [hload, hload]
  cases h : loadTree layout "." d with
  | error cause => exact .inl ⟨cause, rfl, rfl⟩
  | ok job =>
    refine .inr ⟨_, _, rfl, rfl, ?_, fun key hk => ?_⟩
    · rw [Job.mapPaths_mapPaths, Job.mapPaths_mapPaths]
      rfl
    · have hinput : ∀ base, (job.mapPaths (Location.resolve base)).data.input? key =
          (job.data.input? key).map (DataInput.mapPath (Location.resolve base)) :=
        fun base => job.data.input?_mapPaths (Location.resolve base) key
      rw [hinput, hinput]
      cases hx : job.data.input? key with
      | none => exact .inl ⟨rfl, rfl⟩
      | some x =>
        obtain ⟨n, hn, hpath⟩ := exists_holdsPath_of_loadTree h hk hx
        refine .inr ⟨n, x.path, x.mode, hn, hpath, rfl, rfl, fun hne => ?_⟩
        rw [← Location.isFixed_eq_false_iff, ← Bool.not_eq_true]
        intro hfixed
        rw [Location.resolve_of_isFixed hfixed, Location.resolve_of_isFixed hfixed] at hne
        exact hne rfl

/-- A relative path is seen from either directory, a reference to an asset from neither. -/
theorem load_independent_relative :
    ∃ d job₁ job₂, d = [("target_column_name", .text "y"),
        ("training_data", .table [("path", .text "./d")]),
        ("validation_data", .list [.text "mltable", .text "azureml:v:1"])] ∧
      load .standalone "a" "" d = .ok job₁ ∧ load .standalone "b" "n" d = .ok job₂ ∧
      (job₁.mapPaths fun _ => "") = (job₂.mapPaths fun _ => "") ∧
      job₁.data.trainingData = some { path := "a/d" } ∧
      job₂.data.trainingData = some { path := "b/d" } ∧
      job₁.data.validationData = job₂.data.validationData := by
  obtain ⟨d, job₁, job₂, hd, h₁, h₂, ht₁, ht₂, hv₁, hv₂⟩ :
      ∃ d job₁ job₂, d = [("target_column_name", .text "y"),
          ("training_data", .table [("path", .text "./d")]),
          ("validation_data", .list [.text "mltable", .text "azureml:v:1"])] ∧
        load .standalone "a" "" d = .ok job₁ ∧ load .standalone "b" "n" d = .ok job₂ ∧
        job₁.data.trainingData = some { path := Location.resolve "a" "./d" } ∧
        job₂.data.trainingData = some { path := Location.resolve "b" "./d" } ∧
        job₁.data.validationData = some { path := Location.resolve "a" "azureml:v:1" } ∧
        job₂.data.validationData = some { path := Location.resolve "b" "azureml:v:1" } :=
    ⟨_, _, _, rfl, rfl, rfl, rfl, rfl, rfl, rfl⟩
  rcases load_independent .standalone "a" "b" "" "n" d with
    ⟨cause, herror, -⟩ | ⟨_, _, hjob₁, hjob₂, hsame, -⟩
  · cases herror.symm.trans h₁
  · cases hjob₁.symm.trans h₁
    cases hjob₂.symm.trans h₂
    have ha : Location.resolve "a" "./d" = "a/d" := by decide +kernel
    have hb : Location.resolve "b" "./d" = "b/d" := by decide +kernel
    have hasset : Location.isFixed "azureml:v:1" = true := by decide +kernel
    refine ⟨d, job₁, job₂, hd, h₁, h₂, hsame, ha ▸ ht₁, hb ▸ ht₂, ?_⟩
    rw [hv₁, hv₂, Location.resolve_of_isFixed hasset, Location.resolve_of_isFixed hasset]

end Schema

end ForecastJob
