import ForecastJob.Proofs.Rewriting
import ForecastJob.Proofs.Schema.Conversion
import ForecastJob.Proofs.Schema.Forms

/-!
# Documents that describe the same job

Each field of a document forgives in its own way how it is written. Choices, numbers and lists are
read as the same values from whatever they are written as; words and the metric are read as texts,
and only looked at when the job is built from them.

* `Schema.JobDocument.form` : where and how a document may be rewritten;
* `Schema.JobDocument.folded` : the fields as the job sees them, `Schema.JobDocument.forgives` :
  rewriting does not change them;
* `Schema.load_iff_of_rewrites` : rewriting does not change the job.
-/

namespace ForecastJob

open Choice (spellings)
open Codec (choice_forgives)

/-! ## Records without words -/

def JobOutput.form : Form :=
  .record [("type", .choice (spellings OutputType)), ("mode", .choice (spellings OutputMode))]
    [("type", .text "uri_folder")]

def QueueSettings.form : Form :=
  .record [("job_tier", .choice (spellings JobTier))] []

def FeaturizationSettings.form : Form :=
  .record [("mode", .choice (spellings FeaturizationMode))] []

def StackEnsembleSettings.form : Form :=
  .record [("stack_meta_learner_type", .choice (spellings StackMetaLearner))] []

def TrainingSettings.form : Form :=
  .record [
    ("stack_ensemble_settings", StackEnsembleSettings.form),
    ("training_mode", .choice (spellings TrainingMode))] []

def ForecastingSettings.form : Form :=
  .record [
    ("forecast_horizon", .auto),
    ("time_series_id_column_names", .texts),
    ("target_lags", .lags),
    ("feature_lags", .choice (spellings FeatureLags)),
    ("target_rolling_window_size", .auto),
    ("use_stl", .choice (spellings UseStl)),
    ("seasonality", .auto),
    ("short_series_handling_config", .choice (spellings ShortSeriesHandling)),
    ("target_aggregate_function", .choice (spellings TargetAggregateFunction)),
    ("features_unknown_at_forecast_time", .texts)] []

theorem JobOutput.forgives : record.codec.Forgives id form := by
  have htype : (Field.defaulted "type" .choice (·.type) fun v (r : JobOutput) =>
      { r with type := v }).Defaults id {} (.text "uri_folder") :=
    Field.defaults_defaulted id (v := .uriFolder) rfl rfl (fun _ _ => rfl) fun _ => rfl
  exact Record.forgives (fun f _ => f.respects_id) (by simp [record, choice_forgives])
    (by simp [record, htype])

theorem QueueSettings.forgives : record.codec.Forgives id form :=
  Record.forgives_id (by simp [record, choice_forgives])

theorem FeaturizationSettings.forgives : record.codec.Forgives id form :=
  Record.forgives_id (by simp [record, choice_forgives])

theorem StackEnsembleSettings.forgives : record.codec.Forgives id form :=
  Record.forgives_id (by simp [record, choice_forgives])

theorem TrainingSettings.forgives : record.codec.Forgives id form :=
  Record.forgives_id (by simp [record, choice_forgives, StackEnsembleSettings.forgives])

theorem ForecastingSettings.forgives : record.codec.Forgives id form :=
  Record.forgives_id (by simp [record, choice_forgives, Codec.auto_forgives, Codec.lags_forgives,
    Codec.texts_forgives])

/-! ## The metric -/

namespace Metric

/-- The text of the document for a metric, if the text that is written says one. -/
def folded (o : Option String) : Option String :=
  match parse o with
  | .ok m => some m.doc
  | .error _ => o

theorem parse_folded {o : Option String} {m : Metric} :
    parse (folded o) = .ok m ↔ parse o = .ok m := by
  rw [folded]
  cases h : parse o with
  | error e => simp [h]
  | ok m' =>
    show ofText m'.doc = .ok m ↔ _
    rw [ofText_doc (sound_of_parse h)]

theorem forgives : Codec.text.nullable.Forgives folded .metric := by
  intro n n' h
  cases h with
  | @metric s t m hm h =>
    have hm' : parse (some t) = .ok (.concrete m) :=
      ofText_eq_ok_concrete_iff.2 ((h.parse_iff m).1 (ofText_eq_ok_concrete_iff.1 hm))
    show some (folded (some s)) = some (folded (some t))
    rw [folded, folded, hm, hm']

end Metric

namespace Schema

variable {layout : Layout} {base note : String}

/-! ## Data inputs -/

namespace InputTable

def form : Form :=
  .record [("type", .word), ("mode", .choice (spellings InputMode))] [("type", .text "mltable")]

def folded (t : InputTable) : InputTable :=
  { t with type := Text.lower t.type }

theorem respects_folded : ∀ f ∈ record.fields, f.Respects folded := by
  refine List.forall_mem_cons.2 ⟨?type, List.forall_mem_cons.2 ⟨?path,
    List.forall_mem_cons.2 ⟨?mode, List.forall_mem_nil _⟩⟩⟩
  case type => exact Field.respects_of_set Text.lower (fun _ _ => rfl) fun _ _ => rfl
  case path | mode => exact Field.respects_of_set id (fun _ _ => rfl) fun _ _ => rfl

theorem forgives : record.codec.Forgives folded form := by
  have htype : (Field.defaulted "type" .text (·.type) fun v (r : InputTable) =>
      { r with type := v }).Forgives folded .word :=
    Field.forgives_of_set Codec.word_forgives (fun _ _ => rfl) fun _ _ => rfl
  have hmode : (Field.optional "mode" .choice (·.mode) fun v (r : InputTable) =>
      { r with mode := v }).Forgives folded (.choice (spellings InputMode)) :=
    Field.forgives_optional choice_forgives fun _ _ => rfl
  have hdefault : (Field.defaulted "type" .text (·.type) fun v (r : InputTable) =>
      { r with type := v }).Defaults folded {} (.text "mltable") :=
    Field.defaults_defaulted Text.lower rfl rfl (fun _ _ => rfl) fun _ => rfl
  exact Record.forgives respects_folded (by simp [record, htype, hmode])
    (by simp [record, hdefault])

end InputTable

namespace Input

def folded : Input → Input
  | .text s => .text s
  | .table t => .table t.folded

theorem forgives (layout : Layout) : (codec layout).Forgives folded InputTable.form := by
  intro n n' h
  have htable : Except.Alike folded ((InputTable.record.read n.toTree).map table)
      ((InputTable.record.read n'.toTree).map table) :=
    (InputTable.forgives h).map fun _ _ => congrArg table
  cases layout with
  | standalone => exact htable
  | node =>
    -- only tables are rewritten, so that neither value is a text
    cases h with
    | field => exact htable.mapError _
    | default => exact htable.mapError _

theorem toDataInput_folded {i : Input} {x : DataInput} :
    i.folded.toDataInput base = .ok x ↔ i.toDataInput base = .ok x := by
  cases i with
  | text s => rfl
  | table t =>
    simp only [folded, toDataInput, InputTable.toDataInput, Except.bind_eq_ok, require_eq_ok,
      InputTable.folded, Text.sameIgnoringCase_lower]

theorem mapM_toDataInput_folded {o : Option Input} {x : Option DataInput} :
    (o.map folded).mapM (toDataInput base) = .ok x ↔ o.mapM (toDataInput base) = .ok x := by
  cases o with
  | none => rfl
  | some i =>
    simp only [Option.map_some, Except.mapM_option_eq_ok, reduceCtorEq, false_and, false_or,
      Option.some.injEq, exists_and_left, exists_eq_left', toDataInput_folded]

end Input

/-! ## Documents -/

namespace JobDocument

/-- Where and how a document may be rewritten. The kind of an identity is no choice. -/
def form : Form :=
  .record [
    ("type", .word),
    ("task", .word),
    ("outputs", .dict JobOutput.form),
    ("queue_settings", QueueSettings.form),
    ("log_verbosity", .choice (spellings LogVerbosity)),
    ("primary_metric", .metric),
    ("training_data", InputTable.form),
    ("validation_data", InputTable.form),
    ("test_data", InputTable.form),
    ("n_cross_validations", .auto),
    ("featurization", FeaturizationSettings.form),
    ("training", TrainingSettings.form),
    ("forecasting", ForecastingSettings.form)] [
    ("type", .text "automl"),
    ("task", .text "forecasting"),
    ("log_verbosity", .text "info"),
    ("primary_metric", .text "normalized_root_mean_squared_error"),
    ("tags", .table []),
    ("properties", .table []),
    ("environment_variables", .table []),
    ("services", .table []),
    ("outputs", .table [])]

/-- The fields as the job sees them. -/
def folded (d : JobDocument) : JobDocument :=
  { d with
    type := Text.lower d.type
    task := Text.lower d.task
    metric := Metric.folded d.metric
    trainingData := d.trainingData.map Input.folded
    validationData := d.validationData.map Input.folded
    testData := d.testData.map Input.folded }

theorem respects_folded : ∀ f ∈ (record layout).fields, f.Respects folded := by
  -- field by field, each with what is folded in it: nothing, the case, the metric or the data input
  repeat' first
    | exact List.forall_mem_nil _
    | refine List.forall_mem_cons.2
        ⟨Field.respects_of_set id (fun _ _ => rfl) fun _ _ => rfl, ?_⟩
    | refine List.forall_mem_cons.2
        ⟨Field.respects_of_set Text.lower (fun _ _ => rfl) fun _ _ => rfl, ?_⟩
    | refine List.forall_mem_cons.2
        ⟨Field.respects_of_set Metric.folded (fun _ _ => rfl) fun _ _ => rfl, ?_⟩
    | refine List.forall_mem_cons.2
        ⟨Field.respects_of_set (Option.map Input.folded) (fun _ _ => rfl) fun _ _ => rfl, ?_⟩

theorem forgives : (record layout).codec.Forgives folded form := by
  have hinput := (Input.forgives layout).nullable
  refine Record.forgives respects_folded ?_ ?_
  · simp only [record, List.mem_cons, List.not_mem_nil, or_false, Prod.mk.injEq, forall_eq_or_imp,
      Field.name_optional, Field.name_defaulted, Field.name_dict, String.reduceEq, false_and,
      true_and, false_or, or_self, IsEmpty.forall_iff, implies_true, forall_eq]
    refine ⟨?type, ?task, ?outputs, ?queue, ?verbosity, ?metric, ?training_data, ?validation_data,
      ?test_data, ?validations, ?featurization, ?training, ?forecasting⟩
    case type | task =>
      exact Field.forgives_of_set Codec.word_forgives (fun _ _ => rfl) fun _ _ => rfl
    case outputs =>
      exact Field.forgives_of_set JobOutput.forgives.dictOf (fun _ _ => rfl) fun _ _ => rfl
    case metric => exact Field.forgives_of_set Metric.forgives (fun _ _ => rfl) fun _ _ => rfl
    case training_data | validation_data | test_data =>
      exact Field.forgives_of_set hinput (fun _ _ => rfl) fun _ _ => rfl
    case verbosity => exact Field.forgives_defaulted choice_forgives fun _ _ => rfl
    case validations => exact Field.forgives_optional Codec.auto_forgives fun _ _ => rfl
    case queue => exact Field.forgives_optional QueueSettings.forgives fun _ _ => rfl
    case featurization =>
      exact Field.forgives_optional FeaturizationSettings.forgives fun _ _ => rfl
    case training => exact Field.forgives_optional TrainingSettings.forgives fun _ _ => rfl
    case forecasting => exact Field.forgives_optional ForecastingSettings.forgives fun _ _ => rfl
  · simp only [record, List.mem_cons, List.not_mem_nil, or_false, exists_eq_or_imp,
      forall_eq_or_imp, Field.name_optional, Field.name_defaulted, Field.name_dict, String.reduceEq,
      false_and, true_and, false_or, or_self, forall_eq, ↓existsAndEq]
    refine ⟨?type, ?task, ?verbosity, ?metric, ?tags, ?properties, ?environment, ?services,
      ?outputs⟩
    case type | task =>
      exact Field.defaults_defaulted Text.lower rfl rfl (fun _ _ => rfl) fun _ => rfl
    case verbosity =>
      exact Field.defaults_defaulted id (v := .info) rfl rfl (fun _ _ => rfl) fun _ => rfl
    case metric =>
      exact Field.defaults_of_set (·.metric) (v := some "normalized_root_mean_squared_error") rfl
        (g := Metric.folded) (by decide +kernel) rfl (fun _ _ => rfl)
        (fun _ => Field.write_optional_inj.1) (fun _ _ => rfl) fun _ => rfl
    case tags | properties | environment | services | outputs =>
      exact Field.defaults_dict rfl (fun _ _ => rfl) fun _ => rfl

variable {d : JobDocument} {job : Job}

theorem toData_folded {data : DataSettings} :
    d.folded.toData base = .ok data ↔ d.toData base = .ok data := by
  simp only [toData_eq_ok_iff, folded, Input.mapM_toDataInput_folded, Option.map_eq_some_iff]
  constructor
  · rintro ⟨target, _, training, validation, test, ht, ⟨input, hi, rfl⟩, htr, h⟩
    exact ⟨target, input, training, validation, test, ht, hi, Input.toDataInput_folded.1 htr, h⟩
  · rintro ⟨target, input, training, validation, test, ht, hi, htr, h⟩
    exact ⟨target, _, training, validation, test, ht, ⟨input, hi, rfl⟩,
      Input.toDataInput_folded.2 htr, h⟩

/-- The job sees no more than the folded fields. -/
theorem describes_folded : d.folded.Describes layout base job ↔ d.Describes layout base job := by
  constructor
  · intro h
    exact { h with
      type := Text.sameIgnoringCase_lower ▸ h.type
      task := Text.sameIgnoringCase_lower ▸ h.task
      metric := Metric.parse_folded.1 h.metric
      data := toData_folded.1 h.data }
  · intro h
    exact { h with
      type := Text.sameIgnoringCase_lower.trans h.type
      task := Text.sameIgnoringCase_lower.trans h.task
      metric := Metric.parse_folded.2 h.metric
      data := toData_folded.2 h.data }

end JobDocument

/-! ## Jobs -/

variable {d d' : Document} {job : Job}

/-- A value of the document is written in another way. -/
def Rewrites (d d' : Document) : Prop :=
  Node.Rewrites JobDocument.form (.table d) (.table d')

/-- One step does not matter to the job. -/
theorem load_iff_of_step (h : Rewrites d d') :
    load layout base note d = .ok job ↔ load layout base note d' = .ok job := by
  have hload : ∀ d, load layout base note d = .ok job ↔ ∃ fields,
      (JobDocument.record layout).read d.toTree = .ok fields ∧
        fields.folded.Describes layout base job := by
    intro d
    rw [load_eq_ok_iff]
    exact exists_congr fun _ => and_congr_right fun _ => JobDocument.describes_folded.symm
  rw [hload, hload]
  exact (JobDocument.forgives h).exists_ok_iff fun fields => fields.Describes layout base job

/-- Documents that are rewritten into each other, in any number of steps, describe the same job. -/
theorem load_iff_of_rewrites (h : Relation.EqvGen Rewrites d d') :
    load layout base note d = .ok job ↔ load layout base note d' = .ok job := by
  induction h with
  | rel d d' h => exact load_iff_of_step h
  | refl d => rfl
  | symm d d' _ ih => exact ih.symm
  | trans d d' d'' _ _ ih ih' => exact ih.trans ih'

/-- A document that says what would be so anyway, and a shorter one. -/
theorem load_iff_of_rewrites_short :
    ∃ d d' job, d = [
        ("forecasting", .table [
          ("forecast_horizon", .text "auto"), ("target_lags", .list [.int 1])]),
        ("primary_metric", .text "r2_score"),
        ("tags", .table []),
        ("target_column_name", .text "y"),
        ("training_data", .table [("path", .text "azureml:d:1"), ("type", .text "mltable")])] ∧
      d' = [
        ("forecasting", .table [("forecast_horizon", .text " AUTO"), ("target_lags", .int 1)]),
        ("primary_metric", .text "R2Score"),
        ("target_column_name", .text "y"),
        ("training_data", .table [("path", .text "azureml:d:1")])] ∧
      load .standalone "." "" d = .ok job ∧ load .standalone "." "" d' = .ok job := by
  obtain ⟨d, job, hd, hload⟩ : ∃ d job, d = [
        ("forecasting", .table [
          ("forecast_horizon", .text "auto"), ("target_lags", .list [.int 1])]),
        ("primary_metric", .text "r2_score"),
        ("tags", .table []),
        ("target_column_name", .text "y"),
        ("training_data", .table [("path", .text "azureml:d:1"), ("type", .text "mltable")])] ∧
      load .standalone "." "" d = .ok job := ⟨_, _, rfl, rfl⟩
  refine ⟨d, _, job, hd, rfl, hload, (load_iff_of_rewrites ?_).1 hload⟩
  have hauto : Text.SaysAuto "auto" := ⟨"", "auto", "", by decide +kernel⟩
  have hblank : Text.SaysAuto " AUTO" := ⟨" ", "AUTO", "", by decide +kernel⟩
  rw [hd]
  -- the horizon, the lags, the metric, the tags and the type of the data input, one by one
  refine .trans _ _ _ (.rel _ _ (@Node.Rewrites.field _ _ [] [_, _, _, _] "forecasting"
    ForecastingSettings.form _ _ (by simp) (@Node.Rewrites.field _ _ [] [_] "forecast_horizon"
      _ _ _ (by simp) (.auto hauto hblank)))) ?_
  refine .trans _ _ _ (.rel _ _ (@Node.Rewrites.field _ _ [] [_, _, _, _] "forecasting"
    ForecastingSettings.form _ _ (by simp) (@Node.Rewrites.field _ _ [_] [] "target_lags"
      _ _ _ (by simp) .lag))) ?_
  refine .trans _ _ _ (.rel _ _ (@Node.Rewrites.field _ _ [_] [_, _, _] "primary_metric"
    _ _ _ (by simp) (@Node.Rewrites.metric "r2_score" "R2Score" .r2Score rfl
      (.wire (by decide +kernel))))) ?_
  refine .trans _ _ _ (.rel _ _ (@Node.Rewrites.default _ _ [_, _] [_, _] "tags"
    _ (by simp) (by decide +kernel))) ?_
  exact .rel _ _ (@Node.Rewrites.field _ _ [_, _, _] [] "training_data" InputTable.form _ _
    (by simp) (@Node.Rewrites.default _ _ [_] [] "type" _ (by simp) (by decide +kernel)))

end Schema

end ForecastJob
