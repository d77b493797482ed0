import ForecastJob.Proofs.Arrival
import ForecastJob.Proofs.Schema.RoundTrip
import ForecastJob.Proofs.Updates
import ForecastJob.Proofs.Wire.Forms
import ForecastJob.Wire.Text

/-!
# Whether a stack ensemble is built

Only updates of the training settings switch a stack ensemble off unasked; creating, loading and
importing a job does not, and neither do the ways of a job through a payload or a document.

* `Job.ensemble?` : the switch of a job, if it has training settings;
* `Job.States` : a job as it is created, loaded or imported, with the switch that this is done from;
* `Job.Leads` : runs of updates, with ways through payloads and documents in between;
* `Job.Leads.exists_stackEnsemble` : after a run the switch is that of the last update of the training
  settings, and the one from the start if there is none.
-/

namespace ForecastJob

/-! ## The switch -/

/-- Whether a stack ensemble is built, if there are training settings and they say so. -/
def Job.ensemble? (job : Job) : Option (Option Bool) :=
  job.tabular.training.map (·.stackEnsemble)

theorem Job.Update.ensemble?_apply (update : Update) (job : Job) :
    (update.apply job).ensemble? =
      update.training?.elim job.ensemble? fun u => some (some (u.stackEnsemble.getD false)) := by
  cases update with
  | training update =>
    show (job.setTraining update).ensemble? = _
    rw [setTraining_eq]
    rfl
  | metric value =>
    rw [apply_metric]
    rfl
  | _ => rfl

/-! ## Payloads -/

namespace Wire

theorem Training.stackEnsemble_of_toSettings {r : Training} {s : TrainingSettings}
    (h : r.toSettings = .ok s) : s.stackEnsemble = r.stackEnsemble := by
  simp only [toSettings, Except.bind_eq_ok, Except.pure_eq_ok] at h
  obtain ⟨_, -, _, -, _, -, rfl⟩ := h
  rfl

/-- The switch that a payload states. -/
def Payload.ensemble? (p : Payload) : Option (Option Bool) :=
  p.properties.task.training.map (·.stackEnsemble)

theorem Payload.ensemble?_toPayload (job : Job) : job.toPayload.ensemble? = job.ensemble? := by
  show (job.tabular.training.map TrainingSettings.toWire).map (·.stackEnsemble) = _
  rw [Option.map_map]
  rfl

theorem Payload.ensemble?_of_ofPayload {p : Payload} {job : Job} (h : Job.ofPayload p = .ok job) :
    job.ensemble? = p.ensemble? :=
  Except.map_of_mapM_option (Job.ofPayload_eq_ok_iff.1 h).training
    Training.stackEnsemble_of_toSettings

theorem Training.stackEnsemble_of_arrives {r s : Training}
    (h : Passage.payload.Arrives record.codec r s) : s.stackEnsemble = r.stackEnsemble :=
  (h.arrived (f := .optional "enableStackEnsemble" .bool (·.stackEnsemble) fun v r =>
    { r with stackEnsemble := v }) (by simp [record])).eq_of_optional (fun _ _ => rfl) rfl

/-- A payload that was sent and read states the same, whatever else was lost. -/
theorem Payload.ensemble?_of_arrives {p q : Payload}
    (h : Passage.payload.Arrives Payload.record.codec p q) : q.ensemble? = p.ensemble? := by
  have hproperties := (h.arrived (f := .mandatory "properties" Properties.record.codec
    (·.properties) fun v r => { r with properties := v }) (by simp [record])).of_mandatory
    fun _ _ => rfl
  have htask := (hproperties.arrived (f := .mandatory "taskDetails" Task.record.codec
    (·.task) fun v r => { r with task := v }) (by simp [Properties.record])).of_mandatory
    fun _ _ => rfl
  exact (htask.arrived (f := .optional "trainingSettings" Training.record.codec
    (·.training) fun v r => { r with training := v }) (by simp [Task.record])).map_of_optional
    (fun _ _ => rfl) rfl Training.stackEnsemble_of_arrives

end Wire

/-! ## Documents -/

theorem TrainingSettings.stackEnsemble_of_arrives {r s : TrainingSettings}
    (h : Passage.document.Arrives record.codec r s) : s.stackEnsemble = r.stackEnsemble :=
  (h.arrived (f := .optional "enable_stack_ensemble" .bool (·.stackEnsemble) fun v r =>
    { r with stackEnsemble := v }) (by simp [record])).eq_of_optional (fun _ _ => rfl) rfl

namespace Schema

/-- The switch that the fields of a document state. -/
def JobDocument.ensemble? (d : JobDocument) : Option (Option Bool) :=
  d.training.map (·.stackEnsemble)

theorem JobDocument.ensemble?_of_describes {layout : Layout} {base : String} {d : JobDocument}
    {job : Job} (h : d.Describes layout base job) : job.ensemble? = d.ensemble? := by
  rw [Job.ensemble?, h.training, ensemble?]

/-- The fields have one form in all layouts when they are written. -/
theorem JobDocument.write_record (layout layout' : Layout) :
    (record layout).write = (record layout').write := by
  cases layout <;> cases layout' <;> rfl

/-- The document of a job states its switch, whichever layout it is read in. -/
theorem JobDocument.ensemble?_of_dump {layout layout' : Layout} {job : Job} {d : Document}
    {fields : JobDocument} (hd : dump layout job = .ok d)
    (h : (record layout').read d.toTree = .ok fields) : fields.ensemble? = job.ensemble? := by
  obtain ⟨hpass, htree⟩ := toTree_of_documentOf? (dump_eq_ok_iff.1 hd).2
  rw [write_record layout layout'] at hpass htree
  have harrives : Passage.document.Arrives (record layout').codec (ofJob layout job) fields :=
    ⟨_, hpass, htree ▸ h⟩
  exact (harrives.arrived (f := .optional "training" TrainingSettings.record.codec
    (·.training) fun v r => { r with training := v }) (by simp [record])).map_of_optional
    (fun _ _ => rfl) rfl TrainingSettings.stackEnsemble_of_arrives

end Schema

/-! ## Starts -/

namespace Job

/-- The job was created, loaded or imported from something that states the switch. -/
inductive States : Option (Option Bool) → Job → Prop
  | new {args : Args} {job : Job} (h : Job.new args = .ok job) :
      States (args.training.map (·.stackEnsemble)) job
  | load {layout : Schema.Layout} {base note : String} {d : Document}
      {fields : Schema.JobDocument} {job : Job}
      (hf : (Schema.JobDocument.record layout).read d.toTree = .ok fields)
      (h : Schema.load layout base note d = .ok job) : States fields.ensemble? job
  | ofPayload {p : Wire.Payload} {job : Job} (h : Job.ofPayload p = .ok job) :
      States p.ensemble? job

/-- The job has the switch that is stated. -/
theorem States.ensemble?_eq {stated : Option (Option Bool)} {job : Job} (h : States stated job) :
    job.ensemble? = stated := by
  cases h with
  | new h =>
    obtain ⟨_, -, hj⟩ := Except.bind_eq_ok.1 h
    cases hj
    rfl
  | load hf h =>
    obtain ⟨fields', hf', hdescribes⟩ := Schema.load_eq_ok_iff.1 h
    obtain rfl := Except.ok.inj (hf.symm.trans hf')
    exact Schema.JobDocument.ensemble?_of_describes hdescribes
  | ofPayload h => exact Wire.Payload.ensemble?_of_ofPayload h

/-! ## Runs -/

/-- Updates lead from one job to another, in the order that they are listed, with ways through
payloads and documents in between. -/
inductive Leads (start : Job) : List Update → Job → Prop
  | refl : Leads start [] start
  | update {updates : List Update} {job : Job} (update : Update) (hl : Leads start updates job) :
      Leads start (updates ++ [update]) (update.apply job)
  | withMetadata {updates : List Update} {job : Job} (metadata : Metadata)
      (hl : Leads start updates job) : Leads start updates { job with metadata }
  | payload {updates : List Update} {job job' : Job} (hl : Leads start updates job)
      (h : Job.ofPayload job.toPayload = .ok job') : Leads start updates job'
  /-- The payload is sent as JSON and read, with what that loses. -/
  | sent {updates : List Update} {job job' : Job} {p : Wire.Payload}
      (hl : Leads start updates job)
      (hp : Wire.Payload.record.read job.toPayload.toJson.normal.toTree = .ok p)
      (h : Job.ofPayload p = .ok job') : Leads start updates job'
  /-- The document may be read in another layout than it was written in. -/
  | document {updates : List Update} {job job' : Job} {layout layout' : Schema.Layout}
      {base note : String} {d : Document} (hl : Leads start updates job)
      (hd : Schema.dump layout job = .ok d) (h : Schema.load layout' base note d = .ok job') :
      Leads start updates job'

namespace Leads

variable {start job : Job} {updates : List Update}

/-- The switch after a run: it is that of the last update of the training settings, where no switch
means off, and the one from the start without such an update. -/
theorem ensemble?_eq (h : start.Leads updates job) :
    job.ensemble? = (updates.filterMap Update.training?).getLast?.elim start.ensemble?
      fun u => some (some (u.stackEnsemble.getD false)) := by
  -- Only an update of the training settings touches the switch; every way keeps it.
  induction h with
  | refl => rfl
  | update update _ ih =>
    rw [Update.ensemble?_apply, ih, List.filterMap_append, List.getLast?_append]
    cases h : update.training? <;> simp [h]
  | withMetadata _ _ ih => exact ih
  | payload _ h ih =>
    rw [Wire.Payload.ensemble?_of_ofPayload h, Wire.Payload.ensemble?_toPayload, ih]
  | sent _ hp h ih =>
    have harrives : Passage.payload.Arrives Wire.Payload.record.codec _ _ := ⟨_, rfl, hp⟩
    rw [Wire.Payload.ensemble?_of_ofPayload h, Wire.Payload.ensemble?_of_arrives harrives,
      Wire.Payload.ensemble?_toPayload, ih]
  | document _ hd h ih =>
    obtain ⟨fields, hf, hdescribes⟩ := Schema.load_eq_ok_iff.1 h
    rw [Schema.JobDocument.ensemble?_of_describes hdescribes,
      Schema.JobDocument.ensemble?_of_dump hd hf, ih]

/-- After a run with updates of the training settings the switch is what the last of them says, and
off if it says nothing; without such updates the training settings are there just if they were
stated, with the switch that was stated. -/
theorem exists_stackEnsemble {stated : Option (Option Bool)} (hs : States stated start)
    (h : start.Leads updates job) :
    (∀ u, (updates.filterMap Update.training?).getLast? = some u →
      ∃ s, job.tabular.training = some s ∧ s.stackEnsemble = some (u.stackEnsemble.getD false)) ∧
    (updates.filterMap Update.training? = [] →
      job.ensemble? = start.ensemble? ∧ start.ensemble? = stated) := by
  constructor
  · intro u hu
    have hswitch := h.ensemble?_eq
    rw [hu] at hswitch
    exact Option.map_eq_some_iff.1 hswitch
  · intro hnone
    have hswitch := h.ensemble?_eq
    rw [hnone] at hswitch
    exact ⟨hswitch, hs.ensemble?_eq⟩

/-- A switch that is on from the start is off after an update that does not mention it, also when
the job has been sent and written down since. -/
theorem exists_stackEnsemble_reloaded :
    ∃ start sent d job, Job.new {
        data := { targetColumn := some "y", trainingData := some { path := "azureml:d:1" } }
        training := some { stackEnsemble := some true } } = .ok start ∧
      start.ensemble? = some (some true) ∧
      Job.ofPayload (start.setTraining { dnnTraining := some true }).toPayload = .ok sent ∧
      Schema.dump .standalone sent = .ok d ∧ Schema.load .node "." "" d = .ok job ∧
      ∃ s, job.tabular.training = some s ∧ s.stackEnsemble = some false := by
  have hnew : Job.new {
      data := { targetColumn := some "y", trainingData := some { path := "azureml:d:1" } }
      training := some { stackEnsemble := some true } } = .ok { tabular := {
        data := { targetColumn := some "y", trainingData := some { path := "azureml:d:1" } }
        training := some { stackEnsemble := some true } } } := rfl
  obtain ⟨d, hd, hload⟩ : ∃ d, Schema.dump .standalone { tabular := {
        data := { targetColumn := some "y", trainingData := some { path := "azureml:d:1" } }
        training := some { dnnTraining := some true, stackEnsemble := some false } } } = .ok d ∧
      Schema.load .node "." "" d = .ok { tabular := {
        data := { targetColumn := some "y", trainingData := some { path := "azureml:d:1" } }
        training := some { dnnTraining := some true, stackEnsemble := some false } } } :=
    ⟨_, rfl, rfl⟩
  refine ⟨_, _, d, _, hnew, ((exists_stackEnsemble (.new hnew) .refl).2 rfl).2, rfl, hd, hload, ?_⟩
  exact (exists_stackEnsemble (.new hnew) (.document (.payload (.update
    (.training { dnnTraining := some true }) .refl) rfl) hd hload)).1 _ rfl

end Leads

end Job

end ForecastJob
