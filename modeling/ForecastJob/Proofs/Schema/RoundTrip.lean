import ForecastJob.Proofs.Document
import ForecastJob.Proofs.Reachable
import ForecastJob.Proofs.Schema.Forms

/-!
# A job survives being written down

* `Schema.read_of_dump`, `Schema.load_of_dump` : the document of a job describes what it holds of the
  job;
* `Job.Reachable.load_dump` : which is the whole job, but for nulls and for what is never written.
-/

namespace ForecastJob

open Passage (document)

namespace Schema

theorem dump_eq_ok_iff {layout : Layout} {job : Job} {d : Document} :
    dump layout job = .ok d ↔ (layout = .standalone → job.metric.isDeferred = false) ∧
      documentOf? ((JobDocument.record layout).write (.ofJob layout job)) = some d := by
  rw [dump, noted, Except.mapError_eq_ok]
  unfold dumpTree
  split
  · next hm => simp [hm, Metric.isDeferred]
  · next l _ _ hne =>
    have hknown : l = .standalone → job.metric.isDeferred = false := by
      intro hl
      cases hm : job.metric with
      | concrete m => rfl
      | deferred e => exact (hne e hl hm).elim
    split
    · next hd => simpa [hd] using fun _ => hknown
    · next hn => simp [hn]

/-- A document is read as its JSON value is that has taken the way of a document. -/
theorem toTree_of_documentOf? {v : Json} {d : Document} (h : documentOf? v = some d) :
    document.pass v = some v.normal.withoutNulls ∧ d.toTree = v.normal.withoutNulls.toTree := by
  unfold documentOf? at h
  split at h
  · next entries hn =>
    cases h
    refine ⟨?_, Json.toTree_of_toNode? hn⟩
    have hnull : v.normal.isNull = false := by
      rw [← Json.isNull_withoutNulls]
      cases hv : v.normal.withoutNulls with
      | null => rw [hv] at hn; cases hn
      | _ => rfl
    simp [document, hnull]
  · cases h

/-- The document of a job is read as the fields of what it holds of the job. -/
theorem read_of_dump {layout : Layout} {job : Job} {d : Document} (h : dump layout job = .ok d) :
    (JobDocument.record layout).read d.toTree =
      .ok (.ofJob layout (job.finite.documented layout)) := by
  obtain ⟨hpass, htree⟩ := toTree_of_documentOf? (dump_eq_ok_iff.1 h).2
  obtain ⟨v, hv, -, hread⟩ := JobDocument.carries_ofJob layout job
  obtain rfl : _ = v := Option.some.inj (hpass.symm.trans hv)
  exact htree ▸ hread

/-- The document of a job describes what it holds of the job. -/
theorem load_of_dump {layout : Layout} {base note : String} {job : Job} {d : Document}
    (hm : job.metric.Sound) (ht : job.data.targetColumn.isSome = true)
    (hd : job.data.trainingData.isSome = true)
    (hp : ∀ i ∈ job.data.inputs, Location.resolve base i.path = i.path)
    (h : dump layout job = .ok d) :
    load layout base note d = .ok (job.finite.documented layout) := by
  have hk := (dump_eq_ok_iff.1 h).1
  refine load_eq_ok_iff.2 ⟨_, read_of_dump h, JobDocument.toJob_eq_ok_iff.1 ?_⟩
  have hjob : (JobDocument.ofJob layout (job.finite.documented layout)).toJob layout base = _ :=
    JobDocument.toJob_ofJob hm hk ht hd hp
  rw [hjob]
  cases layout <;> rfl

end Schema

theorem Location.resolve_current (path : String) : resolve "." path = path :=
  if_pos (by simp only [Bool.or_eq_true]; exact .inl (by decide))

namespace Job

/-- The document of a reachable job whose numbers are finite describes the job again, seen from any
directory that leaves its paths as they are, such as the current one. -/
theorem Reachable.load_dump {layout : Schema.Layout} {job : Job} {d : Document} (hr : job.Reachable)
    (ht : job.data.targetColumn.isSome = true) (hd : job.data.trainingData.isSome = true)
    (hf : ∀ x ∈ job.floats, Decimal.isFinite x = true) (h : Schema.dump layout job = .ok d) :
    (∀ base note, (∀ i ∈ job.data.inputs, Location.resolve base i.path = i.path) →
      Schema.load layout base note d = .ok (job.documented layout)) ∧
    ∀ note, Schema.load layout "." note d = .ok (job.documented layout) := by
  have hload : ∀ base note, (∀ i ∈ job.data.inputs, Location.resolve base i.path = i.path) →
      Schema.load layout base note d = .ok (job.documented layout) := by
    intro base note hp
    rw [Schema.load_of_dump hr.sound ht hd hp h, finite_eq_self_iff.2 hf]
  exact ⟨hload, fun note => hload "." note fun i _ => Location.resolve_current i.path⟩

/-- A node is not told its experiment, and a null among the arguments is lost. -/
theorem Reachable.load_dump_null :
    ∃ d, Schema.dump .node {
        metadata := { name := some "j", experimentName := some "e", status := some "Running" }
        tabular := {
          data := {
            targetColumn := some "y"
            trainingData := some { path := "./d" }
            testSize := some 0.25 }
          training := some { stackEnsembleSettings := some {
            arguments := some ⟨.object [("a", .null), ("b", .list [.null, .int 1])], by decide⟩ } } }
        metric := .deferred "$\x7b\x7bparent.inputs.m\x7d\x7d" } = .ok d ∧
      Schema.load .node "." "" d = .ok {
        metadata := { name := some "j" }
        tabular := {
          data := {
            targetColumn := some "y"
            trainingData := some { path := "./d" }
            testSize := some 0.25 }
          training := some { stackEnsembleSettings := some {
            arguments := some ⟨.object [("b", .list [.int 1])], by decide⟩ } } }
        metric := .deferred "$\x7b\x7bparent.inputs.m\x7d\x7d" } :=
  ⟨_, rfl, (Reachable.load_dump
    (@Reachable.new {
      metadata := { name := some "j", experimentName := some "e", status := some "Running" }
      data := {
        targetColumn := some "y"
        trainingData := some { path := "./d" }
        testSize := some 0.25 }
      training := some { stackEnsembleSettings := some {
        arguments := some ⟨.object [("a", .null), ("b", .list [.null, .int 1])], by decide⟩ } }
      metric := some "$\x7b\x7bparent.inputs.m\x7d\x7d" } _ rfl) rfl rfl
    (by simp only [floats, data, TrainingSettings.floats, Option.toList_none, Option.toList_some,
          Option.bind_none, Option.bind_some, List.flatMap_nil, List.flatMap_cons, List.append_nil,
          List.nil_append, List.forall_mem_singleton]
        decide +kernel) rfl).2 ""⟩

end Job

end ForecastJob
