import ForecastJob.Proofs.Schema.Reload

/-!
# Which jobs have a document

A document has integers of 64 bits with a sign, and no nulls. Nulls are left out when a job is
dumped, and so are numbers that are not finite. An integer that is too large can only stand in
free-form data or be the seconds that a model may take to download; all other ones are short.

* `Job.Oversized` : a job holds an integer that no document can hold;
* `Job.freeForms_documented` : what a document holds of free-form data;
* `Schema.not_oversized_of_dump` : a job that was dumped holds no such integer;
* `Schema.dump_outcomes` : the two reasons why a job has no document, and that there is no other.
-/

namespace ForecastJob

/-- An integer of the job does not fit into 64 bits with a sign: the seconds that a model may take
to download, or one that stands in free-form data at any depth. -/
def Job.Oversized (job : Job) : Prop :=
  (∃ s ∈ job.tabular.training, ∃ n ∈ s.modelDownloadTimeout, 2 ^ 63 - 1 < n.toNat) ∨
    ∃ v ∈ job.freeForms, ∃ i, .int i ∈ v.json.toTree.leaves ∧ 2 ^ 63 - 1 < i

/-! ## Integers -/

namespace Json

mutual

/-- An integer in free-form data is not too small for a document. -/
theorem minValue_le_of_mem_leaves {i : Int} : ∀ {v : Json}, v.isNormal = true →
    .int i ∈ v.toTree.leaves → Int64.minValue.toInt ≤ i
  | .null, _, hi => by simp [toTree, Tree.leaves] at hi
  | .bool _, _, hi => by simp [toTree, Tree.leaves] at hi
  | .int j, h, hi => by
    obtain rfl : i = j := by simpa [toTree, Tree.leaves] using hi
    simp only [isNormal, inRange, Bool.and_eq_true, decide_eq_true_eq] at h
    exact h.1
  | .float _, _, hi => by simp [toTree, Tree.leaves] at hi
  | .text _, _, hi => by simp [toTree, Tree.leaves] at hi
  | .list vs, h, hi => @minValue_le_of_mem_itemLeaves i vs h hi
  | .object ms, h, hi =>
    @minValue_le_of_mem_entryLeaves i ms (Bool.and_eq_true_iff.1 h).2 hi

theorem minValue_le_of_mem_itemLeaves {i : Int} : ∀ {vs : List Json}, areNormal vs = true →
    .int i ∈ itemLeaves (itemTrees vs) → Int64.minValue.toInt ≤ i
  | [], _, hi => absurd hi List.not_mem_nil
  | v :: vs, h, hi => by
    obtain ⟨hv, hvs⟩ := Bool.and_eq_true_iff.1 h
    rcases List.mem_append.1 hi with hi | hi
    · exact minValue_le_of_mem_leaves hv hi
    · exact minValue_le_of_mem_itemLeaves hvs hi

theorem minValue_le_of_mem_entryLeaves {i : Int} : ∀ {ms : List (String × Json)},
    membersAreNormal ms = true → .int i ∈ entryLeaves (memberTrees ms) →
      Int64.minValue.toInt ≤ i
  | [], _, hi => absurd hi List.not_mem_nil
  | (_, v) :: ms, h, hi => by
    obtain ⟨hv, hms⟩ := Bool.and_eq_true_iff.1 h
    rcases List.mem_append.1 hi with hi | hi
    · exact minValue_le_of_mem_leaves hv hi
    · exact minValue_le_of_mem_entryLeaves hms hi

end

end Json

/-- Free-form data has a place in a document if none of its integers is too large. -/
theorem FreeForm.within_short_iff {v : FreeForm} :
    v.json.Within Tree.Short ↔ ∀ i, .int i ∈ v.json.toTree.leaves → i ≤ 2 ^ 63 - 1 := by
  have hmax : Int64.maxValue.toInt = 2 ^ 63 - 1 := rfl
  constructor
  · intro h i hi
    exact hmax ▸ (h _ hi).2
  · intro h l hl
    cases l with
    | int i => exact ⟨Json.minValue_le_of_mem_leaves v.normal hl, hmax ▸ h i hl⟩
    | _ => trivial

theorem Job.not_oversized_iff {job : Job} : ¬job.Oversized ↔
    (∀ v ∈ job.freeForms, v.json.Within Tree.Short) ∧
      ∀ s ∈ job.tabular.training, ∀ n ∈ s.modelDownloadTimeout, Tree.Short (.int n.toNat) := by
  have hshort : ∀ n : UInt64, Tree.Short (.int n.toNat) ↔ n.toNat ≤ 2 ^ 63 - 1 := by
    intro n
    simp only [Tree.Short, Int64.toInt_minValue, Int64.toInt_maxValue]
    omega
  simp only [Oversized, not_or, not_exists, not_and, FreeForm.within_short_iff, hshort, not_lt]
  exact and_comm

/-! ## Nulls -/

namespace Json

variable {P : Tree → Prop}

theorem eq_null_of_isNull {v : Json} (h : v.isNull = true) : v = .null := by
  cases v with
  | null => rfl
  | _ => cases h

mutual

/-- What holds of the scalars but for nulls, and of null, holds of all of them. -/
theorem within_of_withoutNulls (hn : P .null) : ∀ {v : Json}, v.withoutNulls.Within P → v.Within P
  | .null, h => h
  | .bool _, h => h
  | .int _, h => h
  | .float _, h => h
  | .text _, h => h
  | .list _, h => within_list.2 (within_of_itemsWithoutNulls hn (within_list.1 h))
  | .object _, h => within_object.2 (within_of_membersWithoutNulls hn (within_object.1 h))

theorem within_of_itemsWithoutNulls (hn : P .null) : ∀ {vs : List Json},
    (∀ v ∈ itemsWithoutNulls vs, v.Within P) → ∀ v ∈ vs, v.Within P
  | [], _ => List.forall_mem_nil _
  | v :: vs, h => by
    rw [itemsWithoutNulls] at h
    split at h
    · next hv =>
      obtain rfl := eq_null_of_isNull hv
      exact List.forall_mem_cons.2 ⟨Tree.within_null.2 hn, within_of_itemsWithoutNulls hn h⟩
    · obtain ⟨hv, hvs⟩ := List.forall_mem_cons.1 h
      exact List.forall_mem_cons.2
        ⟨within_of_withoutNulls hn hv, within_of_itemsWithoutNulls hn hvs⟩

theorem within_of_membersWithoutNulls (hn : P .null) : ∀ {ms : List (String × Json)},
    (∀ m ∈ membersWithoutNulls ms, m.2.Within P) → ∀ m ∈ ms, m.2.Within P
  | [], _ => List.forall_mem_nil _
  | (k, v) :: ms, h => by
    rw [membersWithoutNulls] at h
    split at h
    · next hv =>
      obtain rfl := eq_null_of_isNull hv
      exact List.forall_mem_cons.2 ⟨Tree.within_null.2 hn, within_of_membersWithoutNulls hn h⟩
    · obtain ⟨hv, hms⟩ := List.forall_mem_cons.1 h
      exact List.forall_mem_cons.2
        ⟨within_of_withoutNulls hn hv, within_of_membersWithoutNulls hn hms⟩

end

end Json

/-- What holds of free-form data without its nulls, and of null, holds of the data. -/
theorem FreeForm.within_of_withoutNulls? {P : Tree → Prop} (hn : P .null) {v : FreeForm}
    (h : ∀ w ∈ v.withoutNulls?, w.json.Within P) : v.json.Within P := by
  unfold withoutNulls? at h
  split at h
  · next hv =>
    rw [Json.eq_null_of_isNull hv]
    exact Tree.within_null.2 hn
  · exact Json.within_of_withoutNulls hn (h _ rfl)

/-! ### Free-form data of a job -/

theorem toList_bind_eq_filterMap {α β : Type} (o : Option α) (f : α → Option β) :
    (o.bind f).toList = o.toList.filterMap f := by
  cases o with
  | none => rfl
  | some a => cases h : f a <;> simp [h]

theorem TrainingSettings.arguments_documented (s : TrainingSettings) :
    s.documented.arguments = s.arguments.filterMap FreeForm.withoutNulls? := by
  have hbind : s.documented.stackEnsembleSettings.bind (·.arguments) =
      (s.stackEnsembleSettings.bind (·.arguments)).bind FreeForm.withoutNulls? := by
    rw [Option.bind_assoc]
    exact Option.bind_map
  rw [arguments, hbind, toList_bind_eq_filterMap]
  rfl

theorem FeaturizationSettings.arguments_documented (s : FeaturizationSettings) :
    s.documented.arguments = s.arguments.filterMap FreeForm.withoutNulls? := by
  simp only [documented, arguments, Option.toList_map, List.flatMap_map, Dict.entries_map,
    List.filterMap_map, List.filterMap_flatMap, List.filterMap_filterMap]
  rfl

theorem Dict.map_entries_filterMap {α β : Type} (f : α → Option β) (d : Dict α) :
    (d.filterMap f).entries.map (·.2) = (d.entries.map (·.2)).filterMap f := by
  rw [filterMap, List.map_filterMap, List.filterMap_map]
  refine List.filterMap_congr fun e _ => ?_
  rw [Option.map_map]
  exact Option.map_id'

/-- A document holds the free-form data of a job without its nulls. -/
theorem Job.freeForms_documented (layout : Schema.Layout) (job : Job) :
    (job.documented layout).freeForms = job.freeForms.filterMap FreeForm.withoutNulls? := by
  simp only [freeForms, arguments, List.filterMap_append, List.filterMap_flatMap,
    ← FeaturizationSettings.arguments_documented, ← TrainingSettings.arguments_documented,
    ← Dict.map_entries_filterMap]
  simp only [documented, Option.toList_map, List.flatMap_map]

theorem TrainingSettings.arguments_finite (s : TrainingSettings) :
    s.finite.arguments = s.arguments := by
  obtain ⟨onnx, dnn, explain, stack, vote, settings, timeout, allowed, blocked, mode⟩ := s
  cases settings <;> rfl

theorem Job.freeForms_finite (job : Job) : job.finite.freeForms = job.freeForms := by
  simp only [freeForms, arguments, finite, Option.toList_map, List.flatMap_map,
    TrainingSettings.arguments_finite]

/-! ## Dumping -/

namespace Schema

variable {layout : Layout} {job : Job}

/-- A job that was dumped has no integer that its document could not hold. -/
theorem not_oversized_of_dump {d : Document} (h : dump layout job = .ok d) : ¬job.Oversized := by
  have hd : d.toTree.Within Tree.Short := (Node.within_toTree (.table d)).mono fun _ _ hl => hl.1
  have hwritten := Codec.Keeps.within (c := (JobDocument.record layout).codec) hd (read_of_dump h)
  obtain ⟨-, hfree, htimeout⟩ := JobDocument.within_write_ofJob_iff.1 hwritten
  rw [Job.freeForms_documented, Job.freeForms_finite] at hfree
  refine Job.not_oversized_iff.2 ⟨fun v hv => ?_, fun s hs => ?_⟩
  · exact FreeForm.within_of_withoutNulls? trivial fun w hw =>
      hfree w (List.mem_filterMap.2 ⟨v, hv, hw⟩)
  · exact htimeout s.finite.documented
      (Option.mem_map_of_mem _ (Option.mem_map_of_mem _ hs))

/-- A job without such an integer has a document, if its metric is one that the layout knows. -/
theorem exists_dump_of_not_oversized (hm : layout = .standalone → job.metric.isDeferred = false)
    (h : ¬job.Oversized) : ∃ d, dump layout job = .ok d := by
  obtain ⟨hfree, htimeout⟩ := Job.not_oversized_iff.1 h
  have hshort : ((JobDocument.record layout).write (.ofJob layout job)).Within Tree.Short :=
    JobDocument.within_write_ofJob_iff.2 ⟨fun _ _ => trivial, hfree, htimeout⟩
  obtain ⟨d, hd⟩ := exists_documentOf? hshort
  exact ⟨d, dump_eq_ok_iff.2 ⟨hm, hd⟩⟩

theorem dump_of_deferred {e : String} (h : job.metric = .deferred e) :
    dump .standalone job = .error { cause := .deferredMetric e } := by
  simp only [dump, dumpTree, h]
  rfl

/-- A job whose metric the layout knows either has a document or holds what none can hold. -/
theorem exists_dump_or_dump_eq_error (hm : layout = .standalone → job.metric.isDeferred = false) :
    (∃ d, dump layout job = .ok d) ∨ dump layout job = .error { cause := .serialize } := by
  unfold dump dumpTree
  split
  · next hdeferred =>
    have hknown := hm rfl
    rw [hdeferred] at hknown
    cases hknown
  · split
    · next d _ => exact .inl ⟨d, rfl⟩
    · exact .inr rfl

/-- A job has no document of its own if its metric is left to a pipeline, and no document at all if
it holds an integer that is too large. Every other job has one. -/
theorem dump_outcomes (layout : Layout) (job : Job) :
    (∀ e, dump layout job = .error { cause := .deferredMetric e } ↔
      layout = .standalone ∧ job.metric = .deferred e) ∧
    (dump layout job = .error { cause := .serialize } ↔
      ¬(layout = .standalone ∧ job.metric.isDeferred = true) ∧ job.Oversized) ∧
    ((∃ d, dump layout job = .ok d) ↔
      ¬(layout = .standalone ∧ job.metric.isDeferred = true) ∧ ¬job.Oversized) := by
  by_cases hm : layout = .standalone ∧ job.metric.isDeferred = true
  · obtain ⟨rfl, hdeferred⟩ := hm
    obtain ⟨e, he⟩ : ∃ e, job.metric = .deferred e := by
      cases hmetric : job.metric with
      | concrete m =>
        rw [hmetric] at hdeferred
        cases hdeferred
      | deferred e => exact ⟨e, rfl⟩
    simp [dump_of_deferred he, he, Metric.isDeferred, eq_comm]
  · have hknown : layout = .standalone → job.metric.isDeferred = false := by
      simpa using hm
    have hmetric : ∀ e, ¬(layout = .standalone ∧ job.metric = .deferred e) := by
      rintro e ⟨hl, he⟩
      exact hm ⟨hl, by rw [he]; rfl⟩
    rcases exists_dump_or_dump_eq_error hknown with ⟨d, hd⟩ | herror
    · have hfits := not_oversized_of_dump hd
      simp [hd, hm, hmetric, hfits]
    · have hlarge : job.Oversized := by
        by_contra hfits
        obtain ⟨d, hd⟩ := exists_dump_of_not_oversized hknown hfits
        cases herror.symm.trans hd
      simp [herror, hm, hmetric, hlarge]

/-- The greatest integer of a document stands next to a null, and one more is too large. -/
example : (dump .node { tabular := { training := some {
      modelDownloadTimeout := some (2 ^ 63 - 1)
      stackEnsembleSettings := some { arguments := some ⟨.list [.null], rfl⟩ } } } }).isOk = true ∧
    (dump .node { tabular := { training := some {
      modelDownloadTimeout := some (2 ^ 63) } } }).isOk = false := by
  decide +kernel

end Schema

end ForecastJob
