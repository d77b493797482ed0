import ForecastJob.Proofs.Schema.LastEntry
import ForecastJob.Proofs.Toml.LastLine
import ForecastJob.Proofs.Yaml.LastLine

/-!
# Documents that are printed

* `Format.printed_write_iff` : which documents are printed as they are written;
* `Command.printed_importText_iff` : of a payload that is imported, this is known from the name of
  the weight column or, without one, from the validation data;
* `Command.exists_read_printed_ne` : a payload whose document is read as another one once it was
  printed.
-/

namespace ForecastJob

namespace Format

theorem printed_write_iff (format : Format) {d : Document} (h : d ≠ []) :
    Command.printed (format.write d) = format.write d ↔
      (format = .yaml → ∀ s ∈ lastEntryText? d, Yaml.isAtRisk s = false) := by
  cases format with
  | toml => exact iff_of_true (Toml.printed_write h) nofun
  | yaml => rw [write, Yaml.printed_write_iff h, forall_prop_of_true rfl]

end Format

namespace Command

open Schema (Layout)

theorem importText_eq_ok_iff {format : Format} {layout : Layout} {json text : String} :
    importText format layout json = .ok text ↔
      ∃ payload job d, Wire.Payload.ofText json = .ok payload ∧ Job.ofPayload payload = .ok job ∧
        Schema.dump layout job = .ok d ∧ format.write d = text := by
  simp only [importText, Except.bind_eq_ok, Except.mapError_eq_ok, Job.toText, Except.pure_eq_ok,
    exists_and_left]

/-- Blanks at the end of the document of a job do not count: in YAML the text that stands last is in
quotes, or does not end in a blank, but for one line end in a block. -/
def Survives (format : Format) (layout : Layout) (job : Job) : Prop :=
  format = .yaml → ∀ s ∈ (Schema.JobDocument.ofJob layout job).lastText?, Yaml.isAtRisk s = false

/-- A document that is imported is printed as it is written exactly if its last text survives. It is
then read as what was written. -/
theorem printed_importText_iff {format : Format} {layout : Layout} {json text : String}
    (h : importText format layout json = .ok text) :
    ∃ payload job d, Wire.Payload.ofText json = .ok payload ∧ Job.ofPayload payload = .ok job ∧
      Schema.dump layout job = .ok d ∧ format.write d = text ∧
      (printed text = text ↔ Survives format layout job) ∧
      (Survives format layout job → format.read (printed text) = format.read text) := by
  obtain ⟨payload, job, d, hpayload, hjob, hdump, rfl⟩ := importText_eq_ok_iff.1 h
  have hprinted : printed (format.write d) = format.write d ↔ Survives format layout job := by
    obtain ⟨d, k, n, rfl, hlast⟩ := Schema.exists_last_of_dump hdump
    rw [format.printed_write_iff (List.append_ne_nil_of_right_ne_nil d (List.cons_ne_nil _ _)),
      lastEntryText?_concat, hlast, Survives]
  exact ⟨payload, job, d, hpayload, hjob, hdump, rfl, hprinted, fun hjob => by
    rw [hprinted.2 hjob]⟩

/-- A weight column whose name ends in one line end is read as it was written. -/
theorem printed_importText_iff_line :
    ∃ text, importText .yaml .standalone
        "\x7b\"properties\": \x7b\"jobType\": \"AutoML\", \"taskDetails\":
          \x7b\"taskType\": \"Forecasting\", \"weightColumnName\": \"w\\n\"\x7d\x7d\x7d" = .ok text ∧
      Format.read .yaml (printed text) = Format.read .yaml text := by
  have h : importText .yaml .standalone
        "\x7b\"properties\": \x7b\"jobType\": \"AutoML\", \"taskDetails\":
          \x7b\"taskType\": \"Forecasting\", \"weightColumnName\": \"w\\n\"\x7d\x7d\x7d" =
      .ok ("log_verbosity: info\nprimary_metric: normalized_root_mean_squared_error\n" ++
        "task: forecasting\ntype: automl\nweight_column_name: |\n  w\n") := by decide +kernel
  obtain ⟨payload, job, d, -, -, -, -, hprinted, hread⟩ := printed_importText_iff h
  exact ⟨_, h, hread (hprinted.1 (by decide +kernel))⟩

/-- A weight column whose name ends in two line ends loses one of them when the document is
printed. -/
theorem exists_read_printed_ne :
    ∃ text, importText .yaml .standalone
        "\x7b\"properties\": \x7b\"jobType\": \"AutoML\", \"taskDetails\":
          \x7b\"taskType\": \"Forecasting\", \"weightColumnName\": \"w\\n\\n\"\x7d\x7d\x7d" =
        .ok text ∧
      Format.read .yaml (printed text) ≠ Format.read .yaml text := by
  let column : Schema.Outcome Document → Option String :=
    fun o => o.toOption.bind fun d => (d.lookup "weight_column_name").bind Node.text?
  obtain ⟨text, htext, hread, hprinted⟩ : ∃ text, importText .yaml .standalone
        "\x7b\"properties\": \x7b\"jobType\": \"AutoML\", \"taskDetails\":
          \x7b\"taskType\": \"Forecasting\", \"weightColumnName\": \"w\\n\\n\"\x7d\x7d\x7d" =
        .ok text ∧
      column (Format.read .yaml text) = some "w\n\n" ∧
      column (Format.read .yaml (printed text)) = some "w\n" :=
    ⟨"log_verbosity: info\nprimary_metric: normalized_root_mean_squared_error\n" ++
      "task: forecasting\ntype: automl\nweight_column_name: |+\n  w\n\n", by decide +kernel,
      by decide +kernel, by decide +kernel⟩
  refine ⟨text, htext, fun h => ?_⟩
  rw [h, hread] at hprinted
  exact absurd hprinted (by decide)

end Command

end ForecastJob
