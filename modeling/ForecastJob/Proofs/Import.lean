import ForecastJob.Proofs.Schema.Reload
import ForecastJob.Proofs.Wire.RoundTrip

/-!
# What is rendered can be imported

A job that is loaded from a document without infinite numbers can be sent, read, written down and
loaded again, and is the same job at every stage.

* `Job.sent_eq_self_iff` : when a payload keeps all of a job;
* `Schema.exists_read_dump_load` : the way from a document through a payload to a document.
-/

namespace ForecastJob

/-- A payload keeps all of a job that has nothing that only the service sets and no validation data
with a blank path. -/
theorem Job.sent_eq_self_iff {job : Job} :
    job.sent = job ↔ job.metadata.status = none ∧ job.metadata.creationContext = none ∧
      ∀ i ∈ job.data.validationData, Text.isBlankText i.path = false := by
  have hfilter : (job.data.validationData.filter fun i => !Text.isBlankText i.path) =
      job.data.validationData ↔
      ∀ i ∈ job.data.validationData, Text.isBlankText i.path = false := by
    cases job.data.validationData with
    | none => simp
    | some i => cases hi : Text.isBlankText i.path <;> simp [hi]
  rw [← hfilter]
  constructor
  · intro h
    refine ⟨?_, ?_, ?_⟩
    · rw [← h]; rfl
    · rw [← h]; rfl
    · exact congrArg (·.data.validationData) h
  · rintro ⟨hs, hc, hv⟩
    rw [sent, hv]
    obtain ⟨⟨⟩, ⟨⟩, _, _⟩ := job
    simp only at hs hc
    rw [hs, hc]
    rfl

namespace Schema

variable {layout : Layout} {base note : String} {d : Document} {job : Job}

/-- A loaded job is not known to the service yet. -/
theorem sent_of_load (h : load layout base note d = .ok job)
    (hv : ∀ i ∈ job.data.validationData, Text.isBlankText i.path = false) : job.sent = job := by
  obtain ⟨fields, -, hfields⟩ := load_eq_ok_iff.1 h
  refine Job.sent_eq_self_iff.2 ⟨?_, ?_, hv⟩
  all_goals rw [hfields.metadata]; rfl

/-- A loaded job can be sent, read, written down and loaded again. It is the same job throughout if
the document has no infinite numbers and the validation data no blank path. -/
theorem exists_read_dump_load (h : load layout base note d = .ok job)
    (hd : ∀ x, .float x ∈ d.toTree.leaves → Decimal.isFinite x = true)
    (hv : ∀ i ∈ job.data.validationData, Text.isBlankText i.path = false) :
    ∃ p d', Wire.Payload.record.read job.toPayload.toJson.normal.toTree = .ok p ∧
      Job.ofPayload p = .ok job ∧ dump layout job = .ok d' ∧
      ∀ note', load layout "." note' d' = .ok job := by
  obtain ⟨hfinite, hnulls⟩ := lossless_of_load h hd
  have harguments : ∀ v ∈ job.arguments, v.json.isNull = false := by
    intro v hv
    have hn := hnulls v (List.mem_append_right _ hv)
    cases hj : v.json with
    | null => exact (Tree.within_null.1 (hj ▸ hn) rfl).elim
    | _ => rfl
  have hpayload : Job.ofPayload job.toPayload = .ok job := by
    rw [Job.ofPayload_toPayload (Job.sound_of_load h), sent_of_load h hv]
  obtain ⟨d', hd'⟩ := exists_dump h
  obtain ⟨htarget, htraining⟩ := isSome_of_load h
  have hsame := (documented_finite_of_load h).2 ⟨hfinite, hnulls⟩
  refine ⟨_, d', Job.read_toPayload hfinite harguments, hpayload, hd', fun note' => ?_⟩
  rw [load_of_dump (Job.sound_of_load h) htarget htraining
    (fun i _ => Location.resolve_current i.path) hd', hsame]

/-- A job with relative paths is sent and written down with the paths that they stand for. -/
theorem exists_read_dump_load_relative :
    ∃ job p d', load .standalone "/data" "" [("name", .text "j"), ("target_column_name", .text "y"),
        ("test_data_size", .float 0.25), ("training_data", .table [("path", .text "./d")]),
        ("validation_data", .table [("path", .text "./v")])] = .ok job ∧
      job.data.trainingData = some { path := "/data/d" } ∧
      Wire.Payload.record.read job.toPayload.toJson.normal.toTree = .ok p ∧
      Job.ofPayload p = .ok job ∧ dump .standalone job = .ok d' ∧
      load .standalone "." "" d' = .ok job := by
  have hload : load .standalone "/data" "" [("name", .text "j"), ("target_column_name", .text "y"),
      ("test_data_size", .float 0.25), ("training_data", .table [("path", .text "./d")]),
      ("validation_data", .table [("path", .text "./v")])] = .ok {
        metadata := { name := some "j" }
        tabular := {
          data := {
            targetColumn := some "y"
            trainingData := some { path := "/data/d" }
            validationData := some { path := "/data/v" }
            testSize := some 0.25 } } } := by with_unfolding_all rfl
  obtain ⟨p, d', hp, hj, hd', hagain⟩ := exists_read_dump_load hload
    (by
      intro x hx
      simp only [Document.toTree, entryTrees, Node.toTree, Tree.leaves, entryLeaves] at hx
      simp at hx
      subst hx
      decide +kernel)
    (by rintro _ ⟨⟩; decide +kernel)
  exact ⟨_, p, d', hload, rfl, hp, hj, hd', hagain ""⟩

end Schema

end ForecastJob
