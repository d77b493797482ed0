import ForecastJob.Proofs.Location

/-!
# Validation data without a path

Validation data without a path is not sent. Whether there is a path is asked of the job, in which
paths have been resolved: seen from the current directory a blank path stays blank, but from any
other one it is the directory itself, and sent as if it were data.

* `Location.isBlankText_resolve` : the paths that stay blank;
* `Schema.validationData_eq_none_iff` : the validation data of a document that is not sent;
* `Schema.exists_validationData_ne_none` : validation data without a path that is sent.
-/

namespace ForecastJob

/-! ## Blank paths -/

namespace Text

theorem isBlankText_eq_false_of_mem {s : String} {c : Char} (hc : c ∈ s.toList)
    (h : isBlank c = false) : isBlankText s = false := by
  rw [isBlankText, List.all_eq_false]
  exact ⟨c, hc, by rw [h]; exact Bool.false_ne_true⟩

theorem isBlankText_append (s t : String) :
    isBlankText (s ++ t) = (isBlankText s && isBlankText t) := by
  rw [isBlankText, String.toList_append, List.all_append]
  rfl

end Text

namespace Location

/-- A path that does not depend on a directory has a character that is no blank. -/
theorem isBlankText_of_isFixed {path : String} (h : isFixed path = true) :
    Text.isBlankText path = false := by
  simp only [isFixed, Bool.or_eq_true] at h
  rcases h with ((hbound | hscheme) | hasset) | habsolute
  · exact Text.isBlankText_eq_false_of_mem (Binding.dollar_mem_of_isExpression hbound) (by decide)
  · have hcolon : ':' ∈ path.toList := (hasScheme_iff.1 hscheme).subset (by decide)
    exact Text.isBlankText_eq_false_of_mem hcolon (by decide)
  · have hfront : "azureml:".toList <+: path.toList := (String.startsWith_string_iff).1 hasset
    exact Text.isBlankText_eq_false_of_mem (hfront.subset (by decide : 'a' ∈ _)) (by decide)
  · have hfront : "/".toList <+: path.toList := (String.startsWith_string_iff).1 habsolute
    exact Text.isBlankText_eq_false_of_mem (hfront.subset (by decide : '/' ∈ _)) (by decide)

theorem isAbsolute_of_isBlankText {path : String} (h : Text.isBlankText path = true) :
    isAbsolute path = false := by
  rw [← Bool.not_eq_true]
  intro habsolute
  rw [isBlankText_of_isFixed (by rw [isFixed, habsolute, Bool.or_true])] at h
  cases h

/-- There is a slash in a path within a directory. -/
theorem isBlankText_join (base path : String) : Text.isBlankText (join base path) = false := by
  have hslash : Text.isBlankText "/" = false := by decide
  unfold join
  split
  · next habsolute =>
    rw [← Bool.not_eq_true]
    intro hblank
    rw [isAbsolute_of_isBlankText hblank] at habsolute
    cases habsolute
  · split
    · next hend =>
      obtain ⟨a, rfl⟩ := exists_eq_append_slash hend
      simp only [Text.isBlankText_append, hslash, Bool.and_false, Bool.false_and]
    · simp only [Text.isBlankText_append, hslash, Bool.and_false, Bool.false_and]

/-- A path stays blank only if it is seen from the current directory. -/
theorem isBlankText_resolve (base path : String) :
    Text.isBlankText (resolve base path) = (Text.isBlankText path && isCurrent base) := by
  unfold resolve
  cases hcurrent : isCurrent base with
  | true => rw [Bool.true_or, if_pos rfl, Bool.and_true]
  | false =>
    rw [Bool.false_or, Bool.and_false]
    split
    · next hfixed => exact isBlankText_of_isFixed hfixed
    · exact isBlankText_join base _

/-- From any other directory a blank path is seen within the directory. -/
theorem resolve_of_isBlankText {base path : String} (hbase : isCurrent base = false)
    (h : Text.isBlankText path = true) : resolve base path = join base path ∧
      components (resolve base path) = components base ++ names path := by
  have hfixed : isFixed path = false := by
    rw [← Bool.not_eq_true]
    intro hfixed
    rw [isBlankText_of_isFixed hfixed] at h
    cases h
  have hfront : withoutCurrent path = path := by
    unfold withoutCurrent
    split
    · next cs hcs =>
      rw [Text.isBlankText_eq_false_of_mem (hcs ▸ List.mem_cons_self) (by decide)] at h
      cases h
    · rfl
  have hjoin : resolve base path = join base path := by
    rw [resolve, hbase, hfixed, hfront]
    rfl
  have hne : base ≠ "" := by
    rintro rfl
    cases hbase
  exact ⟨hjoin, hjoin ▸ components_join hne (isAbsolute_of_isBlankText h)⟩

end Location

namespace Schema

/-! ## Validation data -/

variable {layout : Layout} {base note : String} {d : Document} {job : Job}

/-- The validation data of a document is sent, with its path as it is seen from the base directory,
unless the path is still blank then. -/
theorem validationData_of_load (h : load layout base note d = .ok job) {n : Node}
    (hn : ("validation_data", n) ∈ d) {path : String} (hpath : n.HoldsPath path) :
    ∃ mode, job.toPayload.properties.task.validationData =
      if Text.isBlankText path && Location.isCurrent base then none
      else some (DataInput.toWire { path := Location.resolve base path, mode }) := by
  obtain ⟨i, x, hread, hx, hinput⟩ :=
    exists_read_of_loadTree (Except.mapError_eq_ok.1 h) (by decide) hn
  cases Input.path_eq_of_read hread hx hpath
  refine ⟨x.mode, ?_⟩
  show job.data.validationData.bind DataInput.toWireUnlessBlank? = _
  rw [← Location.isBlankText_resolve, show job.data.validationData = _ from hinput]
  rfl

/-- There is no validation data in a job without any in its document. -/
theorem exists_mem_of_validationData (h : load layout base note d = .ok job) {x : DataInput}
    (hx : job.data.validationData = some x) : ∃ n path, ("validation_data", n) ∈ d ∧
      n.HoldsPath path := by
  have h := Except.mapError_eq_ok.1 h
  rw [loadTree_eq_map] at h
  obtain ⟨current, hcurrent, rfl⟩ := Except.map_eq_ok.1 h
  obtain ⟨y, hy, -⟩ := Option.map_eq_some_iff.1 hx
  obtain ⟨n, hn, hpath⟩ :=
    exists_holdsPath_of_loadTree hcurrent (by decide : "validation_data" ∈ inputKeys) hy
  exact ⟨n, y.path, hn, hpath⟩

/-- The validation data of a document is not sent exactly if whatever path is written there is blank
and the document is seen from the current directory. From any other one, validation data without a
path is sent, and what is sent is the directory. -/
theorem validationData_eq_none_iff (h : load layout base note d = .ok job) :
    (job.toPayload.properties.task.validationData = none ↔
      ∀ n path, ("validation_data", n) ∈ d → n.HoldsPath path →
        Text.isBlankText path = true ∧ Location.isCurrent base = true) ∧
    ∀ n path, ("validation_data", n) ∈ d → n.HoldsPath path → Text.isBlankText path = true →
      Location.isCurrent base = false →
      ∃ input, job.toPayload.properties.task.validationData = some input ∧
        input.uri = Location.join base path ∧
        Location.components input.uri = Location.components base ++ Location.names path := by
  refine ⟨⟨fun hnone n path hn hpath => ?_, fun hblank => ?_⟩, ?_⟩
  · obtain ⟨mode, hmode⟩ := validationData_of_load h hn hpath
    rw [hnone] at hmode
    split at hmode
    · next hboth => exact Bool.and_eq_true_iff.1 hboth
    · cases hmode
  · cases hx : job.data.validationData with
    | none =>
      show job.data.validationData.bind DataInput.toWireUnlessBlank? = none
      rw [hx]
      rfl
    | some x =>
      obtain ⟨n, path, hn, hpath⟩ := exists_mem_of_validationData h hx
      obtain ⟨mode, hmode⟩ := validationData_of_load h hn hpath
      rw [hmode, if_pos (Bool.and_eq_true_iff.2 (hblank n path hn hpath))]
  · intro n path hn hpath hblank hbase
    obtain ⟨mode, hmode⟩ := validationData_of_load h hn hpath
    rw [hbase, Bool.and_false, if_neg Bool.false_ne_true] at hmode
    obtain ⟨hjoin, hcomponents⟩ := Location.resolve_of_isBlankText hbase hblank
    exact ⟨_, hmode, hjoin, hcomponents⟩

/-- Seen from the current directory, validation data without a path is not sent; seen from another
one it is. -/
theorem validationData_eq_none_iff_directories :
    ∃ d job₁ job₂, d = [("target_column_name", .text "y"),
        ("training_data", .table [("path", .text "./d")]),
        ("validation_data", .table [("path", .text " ")])] ∧
      load .standalone "." "" d = .ok job₁ ∧ load .standalone "jobs" "" d = .ok job₂ ∧
      job₁.toPayload.properties.task.validationData = none ∧
      ∃ input, job₂.toPayload.properties.task.validationData = some input ∧
        input.uri = "jobs/ " := by
  obtain ⟨d, job₁, job₂, hd, h₁, h₂⟩ : ∃ d job₁ job₂, d = [("target_column_name", .text "y"),
        ("training_data", .table [("path", .text "./d")]),
        ("validation_data", .table [("path", .text " ")])] ∧
      load .standalone "." "" d = .ok job₁ ∧ load .standalone "jobs" "" d = .ok job₂ :=
    ⟨_, _, _, rfl, rfl, rfl⟩
  have hmem : ("validation_data", .table [("path", .text " ")]) ∈ d := by simp [hd]
  have hpath : (Node.table [("path", .text " ")]).HoldsPath " " :=
    .table List.mem_cons_self rfl
  have hunique : ∀ n path, ("validation_data", n) ∈ d → n.HoldsPath path → path = " " := by
    intro n path hn hpath
    have hn : n = .table [("path", .text " ")] := by simpa [hd] using hn
    subst hn
    cases hpath with
    | text h => cases h
    | table hn h =>
      rw [List.mem_singleton] at hn
      cases hn
      cases h
      rfl
  refine ⟨d, job₁, job₂, hd, h₁, h₂, ?_, ?_⟩
  · refine (validationData_eq_none_iff h₁).1.2 fun n path hn hpath => ?_
    rw [hunique n path hn hpath]
    decide +kernel
  · obtain ⟨input, hinput, huri, -⟩ := (validationData_eq_none_iff h₂).2 _ _ hmem hpath
      (by decide) (by decide +kernel)
    exact ⟨input, hinput, huri.trans (by decide +kernel)⟩

/-- Validation data without a path is sent. -/
theorem exists_validationData_ne_none :
    ∃ job, load .standalone "jobs" "" [("target_column_name", .text "y"),
        ("training_data", .table [("path", .text "azureml:d:1")]),
        ("validation_data", .table [("path", .text "")])] = .ok job ∧
      Text.isBlankText "" = true ∧ job.toPayload.properties.task.validationData ≠ none := by
  obtain ⟨job, hload, hdata⟩ : ∃ job, load .standalone "jobs" "" [("target_column_name", .text "y"),
        ("training_data", .table [("path", .text "azureml:d:1")]),
        ("validation_data", .table [("path", .text "")])] = .ok job ∧
      job.data.validationData = some { path := Location.resolve "jobs" "" } := ⟨_, rfl, rfl⟩
  refine ⟨job, hload, by decide, ?_⟩
  show job.data.validationData.bind DataInput.toWireUnlessBlank? ≠ none
  rw [hdata]
  decide +kernel

end Schema

end ForecastJob
