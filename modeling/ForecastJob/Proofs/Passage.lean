import ForecastJob.Proofs.Ordered
import ForecastJob.Json

/-!
# From a writer to a reader

What is written as JSON does not reach a reader as it stands: members are put in key order, numbers
that are not finite become null, and on the way to a document nulls are dropped.

* `Passage` : what becomes of a JSON value on its way, by its shape;
* `Passage.payload` : the way of a payload, which keeps nulls;
* `Passage.document` : the way of a document, which drops them;
* `FreeForm.withoutNulls?` : what of free-form data a document holds.
-/

namespace ForecastJob

/-! ## Normal forms, by shape -/

namespace Json

theorem normalItems_eq (vs : List Json) : normalItems vs = vs.map normal := by
  induction vs with
  | nil => rfl
  | cons v vs ih => rw [normalItems, ih, List.map_cons]

theorem itemsWithoutNulls_eq (vs : List Json) :
    itemsWithoutNulls vs =
      vs.filterMap fun v => if v.isNull then none else some v.withoutNulls := by
  induction vs with
  | nil => rfl
  | cons v vs ih =>
    rw [itemsWithoutNulls, ih, List.filterMap_cons]
    split <;> rfl

theorem membersWithoutNulls_eq (ms : List (String × Json)) :
    membersWithoutNulls ms =
      ms.filterMap fun m => (if m.2.isNull then none else some m.2.withoutNulls).map (m.1, ·) := by
  induction ms with
  | nil => rfl
  | cons m ms ih =>
    rw [membersWithoutNulls, ih, List.filterMap_cons]
    by_cases hm : m.2.isNull = true
    · rw [if_pos hm, if_pos hm, Option.map_none]
    · rw [if_neg hm, if_neg hm, Option.map_some]

theorem ascending_normalMembers (ms : List (String × Json)) : Ascending (normalMembers ms) := by
  induction ms with
  | nil => exact List.Pairwise.nil
  | cons m ms ih => exact ih.insertEntry

/-- Under keys that differ, every member keeps its normal form. -/
theorem normalMembers_perm {ms : List (String × Json)} (h : (keysOf ms).Nodup) :
    (normalMembers ms).Perm (ms.map fun m => (m.1, m.2.normal)) := by
  induction ms with
  | nil => exact List.Perm.refl _
  | cons m ms ih =>
    obtain ⟨k, v⟩ := m
    obtain ⟨hk, hms⟩ := List.nodup_cons.1 h
    have ih := ih hms
    have hk' : k ∉ keysOf (normalMembers ms) := by
      intro hmem
      refine hk ?_
      simpa [Function.comp_def] using (ih.map Prod.fst).mem_iff.1 hmem
    exact (insertEntry_perm hk').trans (ih.cons _)

/-! ### What is normal stays as it is -/

mutual

theorem normal_eq_self : ∀ {v : Json}, v.isNormal = true → v.normal = v
  | null, _ => rfl
  | bool _, _ => rfl
  | int _, _ => rfl
  | float x, h => by
    simp only [isNormal] at h
    simp [normal, ofFloat, h]
  | text _, _ => rfl
  | list vs, h => by
    simp only [isNormal] at h
    rw [normal, normalItems_eq_self h]
  | object ms, h => by
    simp only [isNormal, Bool.and_eq_true, decide_eq_true_eq] at h
    rw [normal, normalMembers_eq_self h.1 h.2]

theorem normalItems_eq_self : ∀ {vs : List Json}, areNormal vs = true → normalItems vs = vs
  | [], _ => rfl
  | v :: vs, h => by
    simp only [areNormal, Bool.and_eq_true] at h
    rw [normalItems, normal_eq_self h.1, normalItems_eq_self h.2]

theorem normalMembers_eq_self : ∀ {ms : List (String × Json)}, Ascending ms →
    membersAreNormal ms = true → normalMembers ms = ms
  | [], _, _ => rfl
  | (k, v) :: ms, ha, h => by
    simp only [membersAreNormal, Bool.and_eq_true] at h
    obtain ⟨hk, hms⟩ := List.pairwise_cons.1 ha
    rw [normalMembers, normal_eq_self h.1, normalMembers_eq_self hms h.2,
      insertEntry_of_lt hk]

end

/-! ### Without nulls it stays normal -/

mutual

theorem isNormal_withoutNulls : ∀ {v : Json}, v.isNormal = true → v.withoutNulls.isNormal = true
  | null, _ => rfl
  | bool _, _ => rfl
  | int _, h => h
  | float _, h => h
  | text _, _ => rfl
  | list vs, h => by
    simp only [isNormal] at h
    exact areNormal_itemsWithoutNulls h
  | object ms, h => by
    simp only [isNormal, Bool.and_eq_true, decide_eq_true_eq] at h
    simp only [withoutNulls, isNormal, Bool.and_eq_true, decide_eq_true_eq]
    exact ⟨membersWithoutNulls_eq ms ▸ h.1.filterMap, membersAreNormal_membersWithoutNulls h.2⟩

theorem areNormal_itemsWithoutNulls : ∀ {vs : List Json}, areNormal vs = true →
    areNormal (itemsWithoutNulls vs) = true
  | [], _ => rfl
  | v :: vs, h => by
    simp only [areNormal, Bool.and_eq_true] at h
    have ih := areNormal_itemsWithoutNulls h.2
    rw [itemsWithoutNulls]
    split
    · exact ih
    · simp [areNormal, isNormal_withoutNulls h.1, ih]

theorem membersAreNormal_membersWithoutNulls : ∀ {ms : List (String × Json)},
    membersAreNormal ms = true → membersAreNormal (membersWithoutNulls ms) = true
  | [], _ => rfl
  | (k, v) :: ms, h => by
    simp only [membersAreNormal, Bool.and_eq_true] at h
    have ih := membersAreNormal_membersWithoutNulls h.2
    rw [membersWithoutNulls]
    split
    · exact ih
    · simp [membersAreNormal, isNormal_withoutNulls h.1, ih]

end

end Json

/-- What of free-form data a document holds: nothing of null, else all but the nulls within. -/
def FreeForm.withoutNulls? (v : FreeForm) : Option FreeForm :=
  if v.json.isNull then none
  else some ⟨v.json.withoutNulls, Json.isNormal_withoutNulls v.normal⟩

theorem Json.isNull_withoutNulls (v : Json) : v.withoutNulls.isNull = v.isNull := by
  cases v <;> rfl

theorem FreeForm.isNull_of_withoutNulls? {v w : FreeForm} (h : v.withoutNulls? = some w) :
    w.json.isNull = false := by
  unfold withoutNulls? at h
  split at h
  · cases h
  · next hv =>
    cases h
    rw [Json.isNull_withoutNulls]
    simpa using hv

/-! ## Passages -/

/-- What becomes of a JSON value on its way from a writer to a reader; it can vanish. -/
structure Passage where
  /-- What arrives. -/
  pass : Json → Option Json
  pass_bool : ∀ b, pass (.bool b) = some (.bool b)
  pass_int : ∀ i, pass (.int i) = some (.int i)
  pass_text : ∀ s, pass (.text s) = some (.text s)
  pass_float : ∀ x, Decimal.isFinite x = true → pass (.float x) = some (.float x)
  /-- A number that is not finite arrives as null, if at all. -/
  pass_infinite : ∀ x, Decimal.isFinite x = false → ∀ v ∈ pass (.float x), v = .null
  pass_list : ∀ vs, pass (.list vs) = some (.list (vs.filterMap pass))
  /-- The members of an object arrive in key order. -/
  pass_object : ∀ ms, (keysOf ms).Nodup → ∃ es, pass (.object ms) = some (.object es) ∧
    Ascending es ∧ es.Perm (ms.filterMap fun m => (pass m.2).map (m.1, ·))

namespace Passage

/-- The way of a payload. -/
def payload : Passage where
  pass v := some v.normal
  pass_bool _ := rfl
  pass_int _ := rfl
  pass_text _ := rfl
  pass_float x h := by simp [Json.normal, Json.ofFloat, h]
  pass_infinite x h := by simp [Json.normal, Json.ofFloat, h]
  pass_list vs := by simp [Json.normal, Json.normalItems_eq]
  pass_object ms h := by
    refine ⟨Json.normalMembers ms, rfl, Json.ascending_normalMembers ms, ?_⟩
    simpa using Json.normalMembers_perm h

/-- The way of a document. -/
def document : Passage where
  pass v := if v.normal.isNull then none else some v.normal.withoutNulls
  pass_bool _ := rfl
  pass_int _ := rfl
  pass_text _ := rfl
  pass_float x h := by simp [Json.normal, Json.ofFloat, h, Json.isNull, Json.withoutNulls]
  pass_infinite x h := by simp [Json.normal, Json.ofFloat, h, Json.isNull]
  pass_list vs := by
    simp only [Json.normal, Json.isNull, Json.withoutNulls, Json.itemsWithoutNulls_eq,
      Json.normalItems_eq, List.filterMap_map, Function.comp_def, Bool.false_eq_true, if_false]
  pass_object ms h := by
    refine ⟨Json.membersWithoutNulls (Json.normalMembers ms), rfl, ?_, ?_⟩
    · rw [Json.membersWithoutNulls_eq]
      exact (Json.ascending_normalMembers ms).filterMap
    · rw [Json.membersWithoutNulls_eq]
      simpa only [List.filterMap_map, Function.comp_def] using
        (Json.normalMembers_perm h).filterMap
          fun m => (if m.2.isNull then none else some m.2.withoutNulls).map (m.1, ·)

end Passage

end ForecastJob
