import ForecastJob.Proofs.Schema.Leaves
import ForecastJob.Proofs.Schema.RoundTrip

/-!
# What is loaded can be dumped and loaded again

* `Location.resolve_resolve` : a path that was resolved from the current or an absolute directory is
  resolved to itself;
* `Schema.exists_documentOf?` : a value whose integers are short has a document;
* `Schema.exists_dump_load` : a loaded job can be dumped, and the document describes the job but for
  numbers that are not finite and for nulls;
* `Schema.exists_load_ne_reload` : an infinite exit score is lost.
-/

namespace ForecastJob

/-! ## Paths -/

namespace Location

theorem isAbsolute_append {p : String} (h : isAbsolute p = true) (r : String) :
    isAbsolute (p ++ r) = true := by
  simp only [isAbsolute, String.startsWith_string_iff, String.toList_append] at h ⊢
  exact h.trans (List.prefix_append _ _)

theorem isAbsolute_join {base : String} (h : isAbsolute base = true) (p : String) :
    isAbsolute (join base p) = true := by
  unfold join
  split
  · assumption
  · split
    · exact isAbsolute_append h p
    · exact isAbsolute_append (isAbsolute_append h "/") p

theorem resolve_of_isAbsolute {p : String} (h : isAbsolute p = true) (base : String) :
    resolve base p = p := by
  simp [resolve, isFixed, h]

/-- A path that was resolved is resolved to itself, but for one seen from a relative directory. -/
theorem resolve_resolve {base : String} (h : isCurrent base = true ∨ isAbsolute base = true)
    (p : String) : resolve base (resolve base p) = resolve base p := by
  rcases h with h | h
  · simp [resolve, h]
  · cases hp : isCurrent base || isFixed p with
    | true =>
      have hkept : resolve base p = p := if_pos hp
      rw [hkept, hkept]
    | false =>
      have hjoined : resolve base p = join base (withoutCurrent p) := if_neg (by simp [hp])
      rw [hjoined]
      exact resolve_of_isAbsolute (isAbsolute_join h _) base

end Location

namespace Schema

theorem Input.resolve_of_toDataInput {base : String}
    (hb : Location.isCurrent base = true ∨ Location.isAbsolute base = true) {i : Input}
    {input : DataInput} (h : i.toDataInput base = .ok input) :
    Location.resolve base input.path = input.path := by
  cases i with
  | text s =>
    simp only [toDataInput] at h
    split at h
    · next hs =>
      cases h
      simp [Location.resolve, Location.isFixed, hs]
    · cases h
  | table t =>
    obtain ⟨_, -, h⟩ := Except.bind_eq_ok.1 h
    cases h
    exact Location.resolve_resolve hb t.path

theorem JobDocument.resolve_of_toData {base : String}
    (hb : Location.isCurrent base = true ∨ Location.isAbsolute base = true) {d : JobDocument}
    {data : DataSettings} (h : d.toData base = .ok data) :
    ∀ i ∈ data.inputs, Location.resolve base i.path = i.path := by
  obtain ⟨_, i, training, validation, test, -, -, ht, hv, hte, rfl⟩ := toData_eq_ok_iff.1 h
  have hmap : ∀ {o : Option Input} {o' : Option DataInput},
      o.mapM (Input.toDataInput base) = .ok o' →
        ∀ i ∈ o', Location.resolve base i.path = i.path := by
    intro o o' ho i hi
    rcases Except.mapM_option_eq_ok.1 ho with ⟨-, rfl⟩ | ⟨_, _, -, hi', rfl⟩
    · cases hi
    · cases hi
      exact Input.resolve_of_toDataInput hb hi'
  simp only [DataSettings.inputs, List.forall_mem_append, Option.mem_toList,
    Option.some.injEq]
  exact ⟨⟨by rintro _ rfl; exact Input.resolve_of_toDataInput hb ht, hmap hv⟩, hmap hte⟩

end Schema

namespace Schema

/-- A record whose integers are short has a document. -/
theorem exists_documentOf? {ρ : Type} {r : Record ρ} {x : ρ} (h : (r.write x).Within Tree.Short) :
    ∃ d, documentOf? (r.write x) = some d := by
  obtain ⟨n, hn⟩ := Json.exists_toNode? (Json.within_normal h) rfl
  obtain ⟨es, -, rfl⟩ := Option.map_eq_some_iff.1 hn
  exact ⟨es, by rw [documentOf?, hn]⟩

variable {layout : Layout} {base note : String} {d : Document} {job : Job}

/-- A loaded job can be dumped. -/
theorem exists_dump (h : load layout base note d = .ok job) : ∃ d', dump layout job = .ok d' := by
  obtain ⟨fields, hread, hfields⟩ := load_eq_ok_iff.1 h
  have hd : d.toTree.Within Tree.Short := (Node.within_toTree (.table d)).mono fun _ _ hl => hl.1
  have hwritten := Codec.Keeps.within (c := (JobDocument.record layout).codec) hd hread
  obtain ⟨d', hd'⟩ := exists_documentOf? (JobDocument.within_ofJob hfields hwritten)
  exact ⟨d', dump_eq_ok_iff.2 ⟨hfields.known, hd'⟩⟩

/-- A job that is loaded from a document without infinite numbers has none, and no nulls. -/
theorem lossless_of_load (h : load layout base note d = .ok job)
    (hd : ∀ x, .float x ∈ d.toTree.leaves → Decimal.isFinite x = true) :
    (∀ x ∈ job.floats, Decimal.isFinite x = true) ∧
      ∀ v ∈ job.freeForms, v.json.Within (· ≠ .null) := by
  obtain ⟨fields, hread, hfields⟩ := load_eq_ok_iff.1 h
  have hd : d.toTree.Within Tree.Lossless := by
    refine (Node.within_toTree (.table d)).mono fun l hl hshort => ?_
    cases l with
    | null => exact (hshort.2 rfl).elim
    | float x => exact hd x hl
    | _ => exact hshort.1
  have hwritten := Codec.Keeps.within (c := (JobDocument.record layout).codec) hd hread
  obtain ⟨hf, hn, -⟩ :=
    JobDocument.within_write_ofJob_iff.1 (JobDocument.within_ofJob hfields hwritten)
  refine ⟨hf, fun v hv => (hn v hv).mono fun l _ hl => ?_⟩
  rintro rfl
  exact hl

/-- A loaded job has nothing that is never written, so that a document holds it as it is if all
numbers are finite and there are no nulls. -/
theorem documented_finite_of_load (h : load layout base note d = .ok job) :
    job.finite.documented layout = job ↔ (∀ x ∈ job.floats, Decimal.isFinite x = true) ∧
      ∀ v ∈ job.freeForms, v.json.Within (· ≠ .null) := by
  obtain ⟨fields, -, hfields⟩ := load_eq_ok_iff.1 h
  refine Job.documented_finite_eq_self_iff (fun hn => ?_) ?_ ?_ ?_
  · rw [hfields.metadata]
    exact (hfields.fields hn).2
  all_goals rw [hfields.metadata]; rfl

/-- A loaded job has what a document must have. -/
theorem isSome_of_load (h : load layout base note d = .ok job) :
    job.data.targetColumn.isSome = true ∧ job.data.trainingData.isSome = true := by
  obtain ⟨fields, -, hfields⟩ := load_eq_ok_iff.1 h
  obtain ⟨_, _, _, _, _, -, -, -, -, -, hdata⟩ := JobDocument.toData_eq_ok_iff.1 hfields.data
  rw [hdata]
  exact ⟨rfl, rfl⟩

/-- A loaded job can be dumped, and the document loaded again. The new job is what a document holds
of the first one, which is all of it just if its numbers are finite and it has no nulls. -/
theorem exists_dump_load
    (hb : Location.isCurrent base = true ∨ Location.isAbsolute base = true)
    (h : load layout base note d = .ok job) :
    ∃ d' job', dump layout job = .ok d' ∧ load layout base note d' = .ok job' ∧
      job' = job.finite.documented layout ∧
      (job' = job ↔ (∀ x ∈ job.floats, Decimal.isFinite x = true) ∧
        ∀ v ∈ job.freeForms, v.json.Within (· ≠ .null)) ∧
      ((∀ x, .float x ∈ d.toTree.leaves → Decimal.isFinite x = true) → job' = job) := by
  obtain ⟨fields, hread, hfields⟩ := load_eq_ok_iff.1 h
  obtain ⟨htarget, htraining⟩ := isSome_of_load h
  obtain ⟨d', hd'⟩ := exists_dump h
  have hload : load layout base note d' = .ok (job.finite.documented layout) :=
    load_of_dump (Job.sound_of_load h) htarget htraining
      (JobDocument.resolve_of_toData hb hfields.data) hd'
  have hself := documented_finite_of_load h
  exact ⟨d', _, hd', hload, rfl, hself, fun hf => hself.2 (lossless_of_load h hf)⟩

/-- A relative path is resolved once. -/
theorem exists_dump_load_absolute :
    ∃ d' job', dump .standalone {
        tabular := {
          data := {
            targetColumn := some "y"
            trainingData := some { path := "/data/d" }
            testSize := some 0.25 } } } = .ok d' ∧
      load .standalone "/data" "" d' = .ok job' ∧ job' = {
        tabular := {
          data := {
            targetColumn := some "y"
            trainingData := some { path := "/data/d" }
            testSize := some 0.25 } } } := by
  have hload : load .standalone "/data" "" [("target_column_name", .text "y"),
      ("test_data_size", .float 0.25), ("training_data", .table [("path", .text "./d")])] = .ok {
        tabular := {
          data := {
            targetColumn := some "y"
            trainingData := some { path := "/data/d" }
            testSize := some 0.25 } } } := by with_unfolding_all rfl
  have hbase : Location.isAbsolute "/data" = true := by decide +kernel
  obtain ⟨d', job', hd', hj', -, -, hsame⟩ := exists_dump_load (.inr hbase) hload
  refine ⟨d', job', hd', hj', hsame fun x hx => ?_⟩
  simp only [Document.toTree, entryTrees, Node.toTree, Tree.leaves, entryLeaves] at hx
  simp at hx
  subst hx
  decide +kernel

/-- An infinite exit score is lost when the job is dumped. -/
theorem exists_load_ne_reload :
    ∃ job d' job', load .standalone "." "" [
        ("limits", .table [("exit_score", .float (Float.ofBits 0x7FF0000000000000))]),
        ("target_column_name", .text "y"),
        ("training_data", .table [("path", .text "azureml:d:1")])] = .ok job ∧
      dump .standalone job = .ok d' ∧ load .standalone "." "" d' = .ok job' ∧
      job.tabular.limits = some { exitScore := some (Float.ofBits 0x7FF0000000000000) } ∧
      job'.tabular.limits = some {} ∧ job' ≠ job := by
  refine ⟨_, _, _, rfl, rfl, rfl, rfl, rfl, fun h => ?_⟩
  have hscore := congrArg (fun j : Job => j.tabular.limits.bind (·.exitScore)) h
  exact nomatch hscore

end Schema

end ForecastJob
