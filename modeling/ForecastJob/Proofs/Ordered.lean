import Mathlib.Data.List.Sort
import ForecastJob.Dict

/-!
# Entries in key order

* `Ascending.eq_of_perm` : ascending entries are determined by which entries there are;
* `insertEntry_perm`, `insertEntry_of_lt`, `insertEntry_of_gt` : an entry under a new key is added,
  in front of greater keys and behind smaller ones;
* `Dict.entries_insert_next` : entries that are inserted in key order stand one behind the other;
* `Dict.filterMap` : changes or drops values.
-/

namespace ForecastJob

variable {α β : Type}

abbrev keysOf (entries : List (String × α)) : List String := entries.map Prod.fst

theorem keysOf_filterMap_sublist {γ : Type} (key : γ → String) (f : γ → Option α) (xs : List γ) :
    (keysOf (xs.filterMap fun x => (f x).map (key x, ·))).Sublist (xs.map key) := by
  induction xs with
  | nil => exact List.Sublist.slnil
  | cons x xs ih =>
    rw [List.filterMap_cons, List.map_cons]
    cases f x with
    | none => exact ih.cons _
    | some v => exact ih.cons_cons _

/-! ## Ascending entries -/

theorem Ascending.keys {es : List (String × α)} (h : Ascending es) : (keysOf es).Pairwise (· < ·) :=
  List.pairwise_map.2 h

theorem Ascending.nodup {es : List (String × α)} (h : Ascending es) : (keysOf es).Nodup := by
  refine List.pairwise_map.2 (h.imp fun {a b} hab heq => ?_)
  exact String.lt_irrefl _ (heq ▸ hab)

theorem Ascending.eq_of_perm {es fs : List (String × α)} (he : Ascending es) (hf : Ascending fs)
    (h : es.Perm fs) : es = fs :=
  h.eq_of_pairwise (fun _ _ _ _ hab hba => absurd (String.lt_trans hab hba) (String.lt_irrefl _))
    he hf

theorem Ascending.filterMap {es : List (String × α)} (he : Ascending es)
    {f : String × α → Option β} : Ascending (es.filterMap fun e => (f e).map (e.1, ·)) := by
  refine List.pairwise_filterMap.2 (he.imp fun {a b} hab x hx y hy => ?_)
  obtain ⟨_, _, rfl⟩ := Option.map_eq_some_iff.1 hx
  obtain ⟨_, _, rfl⟩ := Option.map_eq_some_iff.1 hy
  exact hab

/-! ## Insertion -/

theorem insertEntry_perm {k : String} {v : α} {es : List (String × α)} (h : k ∉ keysOf es) :
    (insertEntry k v es).Perm ((k, v) :: es) := by
  induction es with
  | nil => exact List.Perm.refl _
  | cons e es ih =>
    obtain ⟨k', v'⟩ := e
    simp only [List.map_cons, List.mem_cons, not_or] at h
    unfold insertEntry
    split
    · exact List.Perm.refl _
    · rw [if_neg h.1]
      exact ((ih h.2).cons _).trans (List.Perm.swap _ _ _)

theorem insertEntry_of_lt {k : String} {v : α} {es : List (String × α)}
    (h : ∀ e ∈ es, k < e.1) : insertEntry k v es = (k, v) :: es := by
  cases es with
  | nil => rfl
  | cons e es => simp [insertEntry, h e List.mem_cons_self]

theorem insertEntry_of_gt {k : String} {v : α} {es : List (String × α)}
    (h : ∀ e ∈ es, e.1 < k) : insertEntry k v es = es ++ [(k, v)] := by
  induction es with
  | nil => rfl
  | cons e es ih =>
    obtain ⟨k', v'⟩ := e
    have hlt : k' < k := h _ List.mem_cons_self
    have hne : k ≠ k' := by
      rintro rfl
      exact String.lt_irrefl _ hlt
    have hnlt : ¬ k < k' := fun hlt' => String.lt_irrefl _ (String.lt_trans hlt hlt')
    rw [insertEntry, if_neg hnlt, if_neg hne, ih fun e he => h e (List.mem_cons_of_mem _ he),
      List.cons_append]

/-- An entry that comes next in key order is added behind the others. -/
theorem insertEntry_next {es : List (String × α)} {k : String} {v : α} {ks : List String}
    (h : (keysOf es ++ k :: ks).Pairwise (· < ·)) : insertEntry k v es = es ++ [(k, v)] := by
  obtain ⟨-, -, hlt⟩ := List.pairwise_append.1 h
  exact insertEntry_of_gt fun e he => hlt e.1 (List.mem_map_of_mem he) k List.mem_cons_self

/-! ## Values that stay as they are -/

theorem option_map_eq_self_iff {f : α → α} {o : Option α} : o.map f = o ↔ ∀ a ∈ o, f a = a := by
  cases o <;> simp

theorem list_filterMap_eq_self_iff {f : α → Option α} {xs : List α} :
    xs.filterMap f = xs ↔ ∀ x ∈ xs, f x = some x := by
  induction xs with
  | nil => simp
  | cons x xs ih =>
    rw [List.filterMap_cons, List.forall_mem_cons]
    cases hx : f x with
    | none =>
      -- What is dropped makes the list shorter.
      refine iff_of_false (fun h => ?_) fun h => nomatch h.1
      have h : xs.filterMap f = x :: xs := h
      have hle := List.length_filterMap_le f xs
      rw [h, List.length_cons] at hle
      omega
    | some y => rw [List.cons.injEq, ih, Option.some.injEq]

theorem list_map_eq_self_iff {f : α → α} {xs : List α} : xs.map f = xs ↔ ∀ x ∈ xs, f x = x := by
  rw [← List.filterMap_eq_map, list_filterMap_eq_self_iff]
  simp

/-! ## Dictionaries -/

namespace Dict

/-- Changes every value, or drops it with its key. -/
def filterMap (f : α → Option β) (d : Dict α) : Dict β :=
  ⟨d.entries.filterMap fun e => (f e.2).map (e.1, ·), d.ascending.filterMap⟩

theorem filterMap_eq_self_iff {f : α → Option α} {d : Dict α} :
    d.filterMap f = d ↔ ∀ e ∈ d.entries, f e.2 = some e.2 := by
  have hentries : d.filterMap f = d ↔
      d.entries.filterMap (fun e => (f e.2).map (e.1, ·)) = d.entries :=
    ⟨fun h => congrArg entries h, fun h => ext h⟩
  rw [hentries, list_filterMap_eq_self_iff]
  simp [Prod.ext_iff]

@[simp] theorem filterMap_some (d : Dict α) : d.filterMap some = d :=
  filterMap_eq_self_iff.2 fun _ _ => rfl

theorem filterMap_some_comp (f : α → β) (d : Dict α) : d.filterMap (some ∘ f) = d.map f := by
  apply Dict.ext
  simp only [filterMap, map, Function.comp_apply, Option.map_some, List.filterMap_eq_map']

theorem map_eq_self_iff {f : α → α} {d : Dict α} : d.map f = d ↔ ∀ e ∈ d.entries, f e.2 = e.2 := by
  rw [← filterMap_some_comp, filterMap_eq_self_iff]
  simp

@[simp] theorem entries_empty : (empty : Dict α).entries = [] := rfl

/-- After the entry that comes next, the keys behind it still come next. -/
theorem entries_insert_next {d : Dict α} {k : String} (v : α) {ks : List String}
    (h : (keysOf d.entries ++ k :: ks).Pairwise (· < ·)) :
    (d.insert k v).entries = d.entries ++ [(k, v)] ∧
      (keysOf (d.insert k v).entries ++ ks).Pairwise (· < ·) := by
  have hlast : (d.insert k v).entries = d.entries ++ [(k, v)] := insertEntry_next h
  rw [hlast]
  exact ⟨rfl, by simpa using h⟩

theorem entries_map (f : α → β) (d : Dict α) :
    (d.map f).entries = d.entries.map fun e => (e.1, f e.2) := rfl

@[simp] theorem map_map {γ : Type} (g : β → γ) (f : α → β) (d : Dict α) :
    (d.map f).map g = d.map (g ∘ f) := by
  apply Dict.ext; simp [map, Function.comp_def]

@[simp] theorem map_id (d : Dict α) : d.map id = d := by
  apply Dict.ext; simp [map]

@[simp] theorem map_id' (d : Dict α) : (d.map fun x => x) = d :=
  d.map_id

theorem isEmpty_iff {d : Dict α} : d.isEmpty = true ↔ d = empty := by
  constructor
  · intro h
    exact Dict.ext (List.isEmpty_iff.1 h)
  · rintro rfl
    rfl

end Dict

end ForecastJob
