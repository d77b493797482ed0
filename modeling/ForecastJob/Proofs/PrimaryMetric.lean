import ForecastJob.Proofs.Document
import ForecastJob.Proofs.Entries
import ForecastJob.Proofs.Reachable
import ForecastJob.Proofs.Schema.Forms
import ForecastJob.Proofs.Updates

/-!
# Where the metric of a job comes from

A deferred metric is kept as it was written, and its type would take any text. That it is a binding
to the enclosing pipeline, and can be read back from either form, is due to the ways into a job: on
all of them the metric is read from a text.

* `Metric.parse_eq_ok_deferred` : what is deferred is the text itself;
* `Document.texts` : the texts that a document has under a key;
* `Job.Given` : runs that build a job and update it, with the texts that were given for the metric;
* `Job.reachable_iff_exists_given` : every job that can be built is built by such a run;
* `Job.Given.metric_wellFormed` : after a run the metric is known, or one of the texts that were
  given.
-/

namespace ForecastJob

/-! ## Texts -/

/-- Only a binding to the enclosing pipeline is deferred, and it is kept as it is. -/
theorem Metric.parse_eq_ok_deferred {o : Option String} {e : String} :
    parse o = .ok (.deferred e) ↔ o = some e ∧ Binding.isParent e = true := by
  cases o with
  | none =>
    have hdefault : parse none = .ok (.concrete default) := rfl
    simp [hdefault]
  | some s =>
    rw [parse, ofText]
    by_cases hs : Binding.isParent s = true
    · rw [if_pos hs]
      constructor
      · intro h
        cases h
        exact ⟨rfl, hs⟩
      · rintro ⟨h, -⟩
        cases h
        rfl
    · rw [if_neg hs]
      constructor
      · intro h
        split at h <;> cases h
      · rintro ⟨h, he⟩
        cases h
        exact absurd he hs

/-- The texts that a document has under a key. -/
def Document.texts (key : String) (d : Document) : List String :=
  d.filterMap fun e => if e.1 = key then e.2.text? else none

theorem Document.mem_texts {key s : String} {d : Document} :
    s ∈ d.texts key ↔ (key, .text s) ∈ d := by
  rw [texts, List.mem_filterMap]
  constructor
  · rintro ⟨⟨k, n⟩, hm, hs⟩
    split at hs
    · next hk =>
      cases n with
      | text t =>
        cases hs
        cases hk
        exact hm
      | _ => cases hs
    · cases hs
  · intro hm
    exact ⟨_, hm, if_pos rfl⟩

namespace Schema

variable {layout : Layout} {base note : String} {d : Document} {job : Job}

/-- The text of the metric is the one that the document has. -/
theorem JobDocument.mem_texts_of_read {fields : JobDocument} {e : String}
    (h : (record layout).read d.toTree = .ok fields) (hm : fields.metric = some e)
    (he : Binding.isParent e = true) : e ∈ d.texts "primary_metric" := by
  have hfield : .optional "primary_metric" .text (·.metric) (fun v r => { r with metric := v }) ∈
      (record layout).fields := by
    simp [record]
  have hkey : "primary_metric" ∈ keysOf d := by
    by_contra hno
    rw [(Record.eq_none_iff_of_readTable hfield (fun _ _ => rfl) rfl h).2 hno] at hm
    cases hm
  obtain ⟨⟨key, n⟩, hn, rfl⟩ := List.mem_map.1 hkey
  obtain ⟨s, hs, hread⟩ := Record.exists_value_of_readTable hfield (fun _ _ => rfl) rfl h hn
  obtain rfl : s = e := Option.some.inj (hs.symm.trans hm)
  -- a date reads as a text too, but not as a binding
  have htree := Codec.text_read_eq_ok.1 hread
  have htext := Node.eq_text_of_toTree htree (Binding.dollar_mem_of_isExpression he) rfl
  exact Document.mem_texts.2 (htext ▸ hn)

theorem mem_texts_of_load {e : String} (h : load layout base note d = .ok job)
    (he : job.metric = .deferred e) : e ∈ d.texts "primary_metric" := by
  obtain ⟨fields, hread, hfields⟩ := load_eq_ok_iff.1 h
  have hmetric := hfields.metric
  rw [he] at hmetric
  obtain ⟨htext, hparent⟩ := Metric.parse_eq_ok_deferred.1 hmetric
  exact JobDocument.mem_texts_of_read hread htext hparent

/-- The metric of a job with a document of its own is known. -/
theorem exists_concrete_of_load (h : load .standalone base note d = .ok job) :
    ∃ m, job.metric = .concrete m := by
  obtain ⟨fields, -, hfields⟩ := load_eq_ok_iff.1 h
  have hknown := hfields.known rfl
  cases hm : job.metric with
  | concrete m => exact ⟨m, rfl⟩
  | deferred e =>
    rw [hm] at hknown
    cases hknown

end Schema

/-! ## Runs -/

namespace Job

/-- The text that an update gives for the metric. -/
def Update.metricText? : Update → Option String
  | metric value => value
  | _ => none

/-- The job was built and updated, and the texts were given for its metric, in the order that they
are listed. An update that fails counts too. -/
inductive Given : List String → Job → Prop
  | new {args : Args} {job : Job} (h : Job.new args = .ok job) : Given args.metric.toList job
  | load {layout : Schema.Layout} {base note : String} {d : Document} {job : Job}
      (h : Schema.load layout base note d = .ok job) : Given (d.texts "primary_metric") job
  | ofPayload {p : Wire.Payload} {job : Job} (h : Job.ofPayload p = .ok job) :
      Given p.properties.task.metric.toList job
  | update {texts : List String} {job : Job} (update : Update) (hg : Given texts job) :
      Given (texts ++ update.metricText?.toList) (update.apply job)
  | withMetadata {texts : List String} {job : Job} (metadata : Metadata) (hg : Given texts job) :
      Given texts { job with metadata }

/-- An update leads from a job that can be built to another one. -/
theorem Reachable.apply {job : Job} (hr : job.Reachable) (update : Update) :
    (update.apply job).Reachable := by
  cases update with
  | forecasting update => exact .setForecasting update hr
  | data update => exact .setData update hr
  | limits update => exact .setLimits update hr
  | featurization update => exact .setFeaturization update hr
  | training update => exact .setTraining update hr
  | logVerbosity verbosity => exact .setLogVerbosity verbosity hr
  | metric value => exact .setMetric value hr

theorem Given.reachable {texts : List String} {job : Job} (h : job.Given texts) :
    job.Reachable := by
  induction h with
  | new h => exact .new h
  | load h => exact .load h
  | ofPayload h => exact .ofPayload h
  | update update _ ih => exact ih.apply update
  | withMetadata metadata _ ih => exact .withMetadata metadata ih

/-- The runs lead to every job that can be built. -/
theorem reachable_iff_exists_given {job : Job} : job.Reachable ↔ ∃ texts, job.Given texts := by
  refine ⟨fun h => ?_, fun ⟨_, hg⟩ => hg.reachable⟩
  induction h with
  | new h => exact ⟨_, .new h⟩
  | load h => exact ⟨_, .load h⟩
  | ofPayload h => exact ⟨_, .ofPayload h⟩
  | setMetric value _ ih =>
    obtain ⟨texts, hg⟩ := ih
    exact ⟨_, hg.update (.metric value)⟩
  | setForecasting update _ ih =>
    obtain ⟨texts, hg⟩ := ih
    exact ⟨_, hg.update (.forecasting update)⟩
  | setTraining update _ ih =>
    obtain ⟨texts, hg⟩ := ih
    exact ⟨_, hg.update (.training update)⟩
  | setData update _ ih =>
    obtain ⟨texts, hg⟩ := ih
    exact ⟨_, hg.update (.data update)⟩
  | setLimits update _ ih =>
    obtain ⟨texts, hg⟩ := ih
    exact ⟨_, hg.update (.limits update)⟩
  | setFeaturization update _ ih =>
    obtain ⟨texts, hg⟩ := ih
    exact ⟨_, hg.update (.featurization update)⟩
  | setLogVerbosity verbosity _ ih =>
    obtain ⟨texts, hg⟩ := ih
    exact ⟨_, hg.update (.logVerbosity verbosity)⟩
  | withMetadata metadata _ ih =>
    obtain ⟨texts, hg⟩ := ih
    exact ⟨_, hg.withMetadata metadata⟩

/-- A metric cannot be set exactly if the text is none, and then the job stays as it is. -/
theorem run_setMetric_eq_error {value : Option String} {job job' : Job} {e : Metric.Invalid} :
    (setMetric value).run job = (.error e, job') ↔ Metric.parse value = .error e ∧ job' = job := by
  rw [run_setMetric]
  cases Metric.parse value with
  | ok m => exact iff_of_false nofun nofun
  | error e' => rw [Prod.mk.injEq, Except.error.injEq, Except.error.injEq, eq_comm (a := job)]

/-- An update leaves the metric as it is or gives it the text that is deferred. -/
theorem Update.deferred_of_apply {update : Update} {job : Job} {e : String}
    (h : (update.apply job).metric = .deferred e) :
    job.metric = .deferred e ∨ update.metricText? = some e := by
  cases update with
  | metric value =>
    rw [apply_metric] at h
    cases hm : Metric.parse value with
    | error _ =>
      rw [hm] at h
      exact .inl h
    | ok m =>
      rw [hm] at h
      obtain rfl : m = .deferred e := h
      exact .inr (Metric.parse_eq_ok_deferred.1 hm).1
  | _ => exact .inl h

namespace Given

variable {texts : List String} {job : Job}

/-- What is deferred after a run was given on it. -/
theorem mem_of_deferred (h : job.Given texts) {e : String} (he : job.metric = .deferred e) :
    e ∈ texts := by
  induction h with
  | @new args job h =>
    obtain ⟨m, hm, hj⟩ := Except.bind_eq_ok.1 h
    cases hj
    obtain rfl : m = .deferred e := he
    have htext : args.metric = some e := (Metric.parse_eq_ok_deferred.1 hm).1
    exact Option.mem_toList.2 htext
  | load h => exact Schema.mem_texts_of_load h he
  | ofPayload h =>
    have hmetric := (ofPayload_eq_ok_iff.1 h).metric
    rw [he] at hmetric
    exact Option.mem_toList.2 (Metric.parse_eq_ok_deferred.1 hmetric).1
  | update update _ ih =>
    rcases Update.deferred_of_apply he with he | htext
    · exact List.mem_append_left _ (ih he)
    · exact List.mem_append_right _ (Option.mem_toList.2 htext)
  | withMetadata _ _ ih => exact ih he

/-- After a run the metric is known, or it is one of the texts that were given, as it was written,
and a binding to the enclosing pipeline; it is read back from both of its forms. A metric that
cannot be set leaves the job as it is. A job with a document of its own has a known metric. -/
theorem metric_wellFormed (h : job.Given texts) :
    ((∃ m, job.metric = .concrete m) ∨
      ∃ e ∈ texts, job.metric = .deferred e ∧ Binding.isParent e = true) ∧
    Metric.parse (some job.metric.wire) = .ok job.metric ∧
    Metric.parse (some job.metric.doc) = .ok job.metric ∧
    (∀ value e job', (setMetric value).run job = (.error e, job') ↔
      Metric.parse value = .error e ∧ job' = job) ∧
    ∀ base note d loaded, Schema.load .standalone base note d = .ok loaded →
      ∃ m, loaded.metric = .concrete m := by
  have hsound : job.metric.Sound := h.reachable.sound
  refine ⟨?_, Metric.ofText_wire hsound, Metric.ofText_doc hsound,
    fun _ _ _ => run_setMetric_eq_error, fun _ _ _ _ => Schema.exists_concrete_of_load⟩
  cases hm : job.metric with
  | concrete m => exact .inl ⟨m, rfl⟩
  | deferred e =>
    rw [hm] at hsound
    exact .inr ⟨e, h.mem_of_deferred hm, rfl, hsound⟩

/-- A metric that cannot be set leaves the binding that was given before, blanks and all. -/
theorem metric_wellFormed_kept :
    ∃ job, Given ["r2_score", " $\x7b\x7b parent.inputs.m \x7d\x7d", "accuracy"] job ∧
      job.metric = .deferred " $\x7b\x7b parent.inputs.m \x7d\x7d" ∧
      Metric.parse (some job.metric.doc) = .ok job.metric := by
  obtain ⟨job, hg, hm⟩ : ∃ job,
      Given ["r2_score", " $\x7b\x7b parent.inputs.m \x7d\x7d", "accuracy"] job ∧
        job.metric = .deferred " $\x7b\x7b parent.inputs.m \x7d\x7d" :=
    ⟨_, .update (.metric (some "accuracy")) (.update
      (.metric (some " $\x7b\x7b parent.inputs.m \x7d\x7d"))
      (@Given.new { metric := some "r2_score" } _ rfl)), rfl⟩
  obtain ⟨-, -, hdoc, -, -⟩ := metric_wellFormed hg
  exact ⟨job, hg, hm, hdoc⟩

end Given

end Job

end ForecastJob
