import ForecastJob.Proofs.Trimming
import ForecastJob.Yaml.Value

/-!
# Outlines of YAML values

A value is known from what stands at each place in it, place by place in the order of the text.

* `Yaml.Spot` : a place in a value, with the tags there and what they tag;
* `Yaml.Value.outline` : the places in a value;
* `Yaml.Value.outline_injective` : a value is known from its outline.
-/

namespace ForecastJob.Yaml

/-- A step into a value: to the value under a key, or to one of the items. -/
inductive Step where
  | item
  | key (k : Value)

/-- A place in a value. -/
structure Spot where
  /-- The steps that lead there. -/
  place : List Step
  /-- The tags there, the outermost first. -/
  tags : List String
  /-- What is tagged; a collection is there without what it holds. -/
  head : Value

/-- The place is seen from one step above. -/
def Spot.under (step : Step) (s : Spot) : Spot :=
  { s with place := step :: s.place }

namespace Value

/-- The tags of a value, the outermost first. -/
def tags : Value → List String
  | tagged t v => t :: v.tags
  | _ => []

/-- A value without its tags and without what it holds. -/
def head : Value → Value
  | sequence _ => sequence []
  | mapping _ => mapping []
  | tagged _ v => v.head
  | v => v

/-- The place where the value itself stands. -/
def top (v : Value) : Spot :=
  ⟨[], v.tags, v.head⟩

mutual

/-- The places within a value. -/
def within : Value → List Spot
  | sequence items => itemSpots items
  | mapping entries => entrySpots entries
  | tagged _ v => v.within
  | _ => []

def itemSpots : List Value → List Spot
  | [] => []
  | v :: vs => (v.top :: v.within).map (.under .item) ++ itemSpots vs

def entrySpots : List (Value × Value) → List Spot
  | [] => []
  | (k, v) :: es => (v.top :: v.within).map (.under (.key k)) ++ entrySpots es

end

/-- All places in a value, in the order of the text. -/
def outline (v : Value) : List Spot :=
  v.top :: v.within

end Value

/-! ## Values are known from their outlines -/

theorem Spot.under_inj {step step' : Step} {s s' : Spot} (h : s.under step = s'.under step') :
    step = step' ∧ s = s' := by
  obtain ⟨place, tags, head⟩ := s
  obtain ⟨place', tags', head'⟩ := s'
  simp only [under, mk.injEq, List.cons.injEq] at h
  obtain ⟨⟨rfl, rfl⟩, rfl, rfl⟩ := h
  exact ⟨rfl, rfl⟩

/-- The place is more than one step away. -/
def Spot.isDeep (s : Spot) : Bool :=
  decide (1 < s.place.length)

namespace Value

theorem place_ne_nil_of_mem_itemSpots {vs : List Value} : ∀ s ∈ itemSpots vs, s.place ≠ [] := by
  induction vs with
  | nil => exact fun _ h => absurd h List.not_mem_nil
  | cons v vs ih =>
    refine List.forall_mem_append.2 ⟨fun s hs => ?_, ih⟩
    obtain ⟨s, -, rfl⟩ := List.mem_map.1 hs
    exact List.cons_ne_nil _ _

theorem place_ne_nil_of_mem_entrySpots {es : List (Value × Value)} :
    ∀ s ∈ entrySpots es, s.place ≠ [] := by
  induction es with
  | nil => exact fun _ h => absurd h List.not_mem_nil
  | cons e es ih =>
    refine List.forall_mem_append.2 ⟨fun s hs => ?_, ih⟩
    obtain ⟨s, -, rfl⟩ := List.mem_map.1 hs
    exact List.cons_ne_nil _ _

theorem place_ne_nil_of_mem_within : ∀ {v : Value}, ∀ s ∈ v.within, s.place ≠ []
  | sequence _ => place_ne_nil_of_mem_itemSpots
  | mapping _ => place_ne_nil_of_mem_entrySpots
  | tagged _ v => place_ne_nil_of_mem_within (v := v)
  | null | bool _ | int _ | float _ | text _ => fun _ h => absurd h List.not_mem_nil

/-- The first of several values is told from the others. -/
theorem split_spots {v w : Value} {step step' : Step} {rest rest' : List Spot}
    (hrest : ∀ s ∈ rest.head?, s.isDeep = false) (hrest' : ∀ s ∈ rest'.head?, s.isDeep = false)
    (h : v.outline.map (.under step) ++ rest = w.outline.map (.under step') ++ rest') :
    step = step' ∧ v.outline = w.outline ∧ rest = rest' := by
  simp only [outline, List.map_cons, List.cons_append, List.cons.injEq] at h
  obtain ⟨htop, hwithin⟩ := h
  obtain ⟨rfl, htop'⟩ := Spot.under_inj htop
  have hdeep : ∀ {u : Value}, ∀ s ∈ u.within.map (Spot.under step), s.isDeep = true := by
    intro u _ hmem
    obtain ⟨s, hs, rfl⟩ := List.mem_map.1 hmem
    exact decide_eq_true (Nat.succ_lt_succ (List.length_pos_iff.2 (place_ne_nil_of_mem_within s hs)))
  have hsame : v.within.map (Spot.under step) = w.within.map (Spot.under step) := by
    rw [← takeWhile_append_of_head? hdeep hrest, hwithin, takeWhile_append_of_head? hdeep hrest']
  have hinj : Function.Injective (Spot.under step) := fun _ _ heq => (Spot.under_inj heq).2
  refine ⟨rfl, ?_, ?_⟩
  · rw [outline, outline, htop', (List.map_inj_right fun _ _ heq => hinj heq).1 hsame]
  · rwa [hsame, List.append_cancel_left_eq] at hwithin

theorem isDeep_of_mem_head?_itemSpots {vs : List Value} :
    ∀ s ∈ (itemSpots vs).head?, s.isDeep = false := by
  cases vs with
  | nil => exact nofun
  | cons v vs =>
    rintro _ ⟨⟩
    rfl

theorem isDeep_of_mem_head?_entrySpots {es : List (Value × Value)} :
    ∀ s ∈ (entrySpots es).head?, s.isDeep = false := by
  cases es with
  | nil => exact nofun
  | cons e es =>
    rintro _ ⟨⟩
    rfl

mutual

theorem outline_inj : ∀ {v w : Value}, v.outline = w.outline → v = w
  | sequence vs, w, h => by
    cases w <;> simp only [outline, top, tags, head, within, List.cons.injEq, Spot.mk.injEq,
      reduceCtorEq, true_and, false_and, and_false] at h
    rw [itemSpots_inj h]
  | mapping es, w, h => by
    cases w <;> simp only [outline, top, tags, head, within, List.cons.injEq, Spot.mk.injEq,
      reduceCtorEq, true_and, false_and, and_false] at h
    rw [entrySpots_inj h]
  | tagged t v, w, h => by
    cases w with
    | tagged u w =>
      simp only [outline, top, tags, head, within, List.cons.injEq, Spot.mk.injEq, true_and] at h
      obtain ⟨⟨⟨rfl, htags⟩, hhead⟩, hwithin⟩ := h
      have hv : v = w := outline_inj (by rw [outline, outline, top, top, htags, hhead, hwithin])
      rw [hv]
    | _ => simp [outline, top, tags] at h
  | null, w, h => by cases w <;> simp [outline, top, tags, head] at h ⊢
  | bool b, w, h => by cases w <;> simp [outline, top, tags, head] at h ⊢; exact h.1
  | int i, w, h => by cases w <;> simp [outline, top, tags, head] at h ⊢; exact h.1
  | float x, w, h => by cases w <;> simp [outline, top, tags, head] at h ⊢; exact h.1
  | text s, w, h => by cases w <;> simp [outline, top, tags, head] at h ⊢; exact h.1

theorem itemSpots_inj : ∀ {vs ws : List Value}, itemSpots vs = itemSpots ws → vs = ws
  | [], [], _ => rfl
  | [], _ :: _, h => by cases h
  | _ :: _, [], h => by cases h
  | v :: vs, w :: ws, h => by
    obtain ⟨-, hv, hvs⟩ :=
      split_spots isDeep_of_mem_head?_itemSpots isDeep_of_mem_head?_itemSpots h
    rw [outline_inj hv, itemSpots_inj hvs]

theorem entrySpots_inj : ∀ {es fs : List (Value × Value)}, entrySpots es = entrySpots fs → es = fs
  | [], [], _ => rfl
  | [], _ :: _, h => by cases h
  | _ :: _, [], h => by cases h
  | (k, v) :: es, (l, w) :: fs, h => by
    obtain ⟨hk, hv, hes⟩ :=
      split_spots isDeep_of_mem_head?_entrySpots isDeep_of_mem_head?_entrySpots h
    rw [Step.key.inj hk, outline_inj hv, entrySpots_inj hes]

end

theorem outline_injective : Function.Injective outline :=
  fun _ _ => outline_inj

end Value

end ForecastJob.Yaml
