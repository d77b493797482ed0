import Mathlib.Logic.Relation
import ForecastJob.Format
import ForecastJob.Proofs.Yaml.Outline

/-!
# Values without nulls

* `Yaml.Value.outline_withoutNulls` : of all places in a value, those are left where something other
  than null stands, and the tags there are gone;
* `Json.toValue_withoutNulls` : JSON values lose their nulls as YAML values do;
* `Yaml.Value.LeavesOut` : one null entry or item of a value is left out;
* `Yaml.withoutNulls_exact` : what is left of a value, and documents that leave out nulls.
-/

namespace ForecastJob

namespace Yaml

/-! ## What is left -/

namespace Spot

/-- The place is left: something other than null stands there, or it is the whole value. -/
def isKept (s : Spot) : Bool :=
  s.place.isEmpty || !s.head.isNull

/-- The place without the tags there. -/
def untagged (s : Spot) : Spot :=
  { s with tags := [] }

end Spot

/-- What is left of places within a value. -/
def kept (spots : List Spot) : List Spot :=
  (spots.filter fun s => !s.head.isNull).map Spot.untagged

@[simp] theorem kept_append (spots spots' : List Spot) :
    kept (spots ++ spots') = kept spots ++ kept spots' := by
  rw [kept, List.filter_append, List.map_append, kept, kept]

theorem kept_map_under (step : Step) (spots : List Spot) :
    kept (spots.map (.under step)) = (kept spots).map (.under step) := by
  rw [kept, List.filter_map, List.map_map, kept, List.map_map]
  rfl

namespace Value

@[simp] theorem isNull_head : ∀ v : Value, v.head.isNull = v.isNull
  | tagged _ v => isNull_head v
  | null | bool _ | int _ | float _ | text _ | sequence _ | mapping _ => rfl

theorem within_of_isNull : ∀ {v : Value}, v.isNull = true → v.within = []
  | tagged _ v, h => within_of_isNull (v := v) h
  | null, _ => rfl

@[simp] theorem tags_withoutNulls : ∀ v : Value, v.withoutNulls.tags = []
  | tagged _ v => tags_withoutNulls v
  | null | bool _ | int _ | float _ | text _ | sequence _ | mapping _ => rfl

@[simp] theorem head_withoutNulls : ∀ v : Value, v.withoutNulls.head = v.head
  | tagged _ v => head_withoutNulls v
  | null | bool _ | int _ | float _ | text _ | sequence _ | mapping _ => rfl

theorem top_withoutNulls (v : Value) : v.withoutNulls.top = v.top.untagged := by
  rw [top, tags_withoutNulls, head_withoutNulls, top, Spot.untagged]

theorem kept_outline_of_isNull {v : Value} (h : v.isNull = true) : kept v.outline = [] := by
  rw [outline, within_of_isNull h, kept, List.filter_cons_of_neg (by simp [top, h])]
  rfl

theorem kept_outline {v : Value} (h : ¬ v.isNull = true) :
    kept v.outline = v.top.untagged :: kept v.within := by
  rw [outline, kept, List.filter_cons_of_pos (by simp [top, h]), List.map_cons, kept]

mutual

theorem within_withoutNulls : ∀ v : Value, v.withoutNulls.within = kept v.within
  | sequence vs => itemSpots_itemsWithoutNulls vs
  | mapping es => entrySpots_entriesWithoutNulls es
  | tagged _ v => within_withoutNulls v
  | null | bool _ | int _ | float _ | text _ => rfl

theorem itemSpots_itemsWithoutNulls : ∀ vs : List Value,
    itemSpots (itemsWithoutNulls vs) = kept (itemSpots vs)
  | [] => rfl
  | v :: vs => by
    rw [itemsWithoutNulls, itemSpots, kept_append, ← outline, kept_map_under,
      ← itemSpots_itemsWithoutNulls vs]
    split
    · next h => rw [kept_outline_of_isNull h, List.map_nil, List.nil_append]
    · next h => rw [kept_outline h, itemSpots, top_withoutNulls, within_withoutNulls v]

theorem entrySpots_entriesWithoutNulls : ∀ es : List (Value × Value),
    entrySpots (entriesWithoutNulls es) = kept (entrySpots es)
  | [] => rfl
  | (k, v) :: es => by
    rw [entriesWithoutNulls, entrySpots, kept_append, ← outline, kept_map_under,
      ← entrySpots_entriesWithoutNulls es]
    split
    · next h => rw [kept_outline_of_isNull h, List.map_nil, List.nil_append]
    · next h => rw [kept_outline h, entrySpots, top_withoutNulls, within_withoutNulls v]

end

/-- Of all places in a value those are left where something other than null stands. -/
theorem outline_withoutNulls (v : Value) :
    v.withoutNulls.outline = (v.outline.filter Spot.isKept).map Spot.untagged := by
  have hkept : ∀ s ∈ v.within, s.isKept = !s.head.isNull := by
    intro s hs
    rw [Spot.isKept, List.isEmpty_eq_false_iff.2 (place_ne_nil_of_mem_within s hs), Bool.false_or]
  rw [outline, top_withoutNulls, within_withoutNulls, kept, outline, List.filter_cons_of_pos rfl,
    List.map_cons, List.filter_congr hkept]

/-- No null stands within the value, and no tags stand in it outside of its keys. -/
def IsBare (v : Value) : Prop :=
  ∀ s ∈ v.outline, s.isKept = true ∧ s.tags = []

theorem isBare_withoutNulls (v : Value) : v.withoutNulls.IsBare := by
  intro s hs
  rw [outline_withoutNulls] at hs
  obtain ⟨t, ht, rfl⟩ := List.mem_map.1 hs
  exact ⟨(List.mem_filter.1 ht).2, rfl⟩

theorem withoutNulls_eq_self {v : Value} (h : v.IsBare) : v.withoutNulls = v := by
  have huntagged : ∀ s ∈ v.outline, s.untagged = id s := fun s hs => by
    rw [Spot.untagged, ← (h s hs).2, id]
  refine outline_injective ?_
  rw [outline_withoutNulls, List.filter_eq_self.2 fun s hs => (h s hs).1,
    List.map_congr_left huntagged, List.map_id]

/-! ## Nulls that are left out -/

/-- One entry or item, of null, is left out of the value. -/
inductive LeavesOut : Value → Value → Prop
  | item {vs₁ vs₂ : List Value} {v : Value} (hv : v.isNull = true) :
      LeavesOut (sequence (vs₁ ++ v :: vs₂)) (sequence (vs₁ ++ vs₂))
  | entry {es₁ es₂ : List (Value × Value)} {v : Value} (k : Value) (hv : v.isNull = true) :
      LeavesOut (mapping (es₁ ++ (k, v) :: es₂)) (mapping (es₁ ++ es₂))
  | inItem {vs₁ vs₂ : List Value} {v w : Value} (h : LeavesOut v w) :
      LeavesOut (sequence (vs₁ ++ v :: vs₂)) (sequence (vs₁ ++ w :: vs₂))
  | inEntry {es₁ es₂ : List (Value × Value)} {k v w : Value} (h : LeavesOut v w) :
      LeavesOut (mapping (es₁ ++ (k, v) :: es₂)) (mapping (es₁ ++ (k, w) :: es₂))
  | inTagged {t : String} {v w : Value} (h : LeavesOut v w) :
      LeavesOut (tagged t v) (tagged t w)

theorem itemsWithoutNulls_append (vs ws : List Value) :
    itemsWithoutNulls (vs ++ ws) = itemsWithoutNulls vs ++ itemsWithoutNulls ws := by
  induction vs with
  | nil => rfl
  | cons v vs ih =>
    rw [List.cons_append, itemsWithoutNulls, itemsWithoutNulls, ih]
    split <;> rfl

theorem entriesWithoutNulls_append (es fs : List (Value × Value)) :
    entriesWithoutNulls (es ++ fs) = entriesWithoutNulls es ++ entriesWithoutNulls fs := by
  induction es with
  | nil => rfl
  | cons e es ih =>
    rw [List.cons_append, entriesWithoutNulls, entriesWithoutNulls, ih]
    split <;> rfl

/-- What holds an entry or an item is not null, and stays so. -/
theorem LeavesOut.isNull {v w : Value} (h : LeavesOut v w) : v.isNull = false ∧ w.isNull = false := by
  induction h with
  | inTagged _ ih => exact ih
  | _ => exact ⟨rfl, rfl⟩

theorem LeavesOut.withoutNulls_eq {v w : Value} (h : LeavesOut v w) :
    v.withoutNulls = w.withoutNulls := by
  induction h with
  | item hv =>
    rw [withoutNulls, withoutNulls, itemsWithoutNulls_append, itemsWithoutNulls_append,
      itemsWithoutNulls, if_pos hv]
  | entry k hv =>
    rw [withoutNulls, withoutNulls, entriesWithoutNulls_append, entriesWithoutNulls_append,
      entriesWithoutNulls, if_pos hv]
  | inItem h ih =>
    rw [withoutNulls, withoutNulls, itemsWithoutNulls_append, itemsWithoutNulls_append,
      itemsWithoutNulls, itemsWithoutNulls, h.isNull.1, h.isNull.2, ih]
  | inEntry h ih =>
    rw [withoutNulls, withoutNulls, entriesWithoutNulls_append, entriesWithoutNulls_append,
      entriesWithoutNulls, entriesWithoutNulls, h.isNull.1, h.isNull.2, ih]
  | inTagged h ih => exact ih

/-- Values that differ in nulls are the same document, if any. -/
theorem toDocument?_eq_of_leavesOut {v w : Value} (h : Relation.ReflTransGen LeavesOut v w) :
    w.toDocument? = v.toDocument? := by
  have hsame : w.withoutNulls = v.withoutNulls := by
    induction h with
    | refl => rfl
    | tail _ hstep ih => rw [← hstep.withoutNulls_eq, ih]
  rw [toDocument?, toDocument?, hsame]

end Value

/-- The value that a text is, if it is one. -/
def value? (s : String) : Option Value := do
  let ts ← tokens? s.toList
  let e ← Element.ofTokens? ts
  Value.ofElement? e

theorem read?_eq (s : String) : read? s = (value? s).bind Value.toDocument? := by
  simp only [read?, value?, Option.bind_eq_bind, Option.bind_assoc]

end Yaml

/-! ## JSON -/

namespace Json

mutual

/-- The YAML value that a JSON value is. -/
def toValue : Json → Yaml.Value
  | null => .null
  | bool b => .bool b
  | int i => .int i
  | float x => .float x
  | text s => .text s
  | list items => .sequence (itemValues items)
  | object members => .mapping (memberValues members)

def itemValues : List Json → List Yaml.Value
  | [] => []
  | v :: vs => v.toValue :: itemValues vs

def memberValues : List (String × Json) → List (Yaml.Value × Yaml.Value)
  | [] => []
  | (k, v) :: ms => (.text k, v.toValue) :: memberValues ms

end

mutual

theorem toValue_inj : ∀ {v w : Json}, v.toValue = w.toValue → v = w
  | list vs, w, h => by
    cases w <;> simp only [toValue, Yaml.Value.sequence.injEq, reduceCtorEq] at h
    rw [itemValues_inj h]
  | object ms, w, h => by
    cases w <;> simp only [toValue, Yaml.Value.mapping.injEq, reduceCtorEq] at h
    rw [memberValues_inj h]
  | null, w, h => by cases w <;> simp_all [toValue]
  | bool b, w, h => by cases w <;> simp_all [toValue]
  | int i, w, h => by cases w <;> simp_all [toValue]
  | float x, w, h => by cases w <;> simp_all [toValue]
  | text s, w, h => by cases w <;> simp_all [toValue]

theorem itemValues_inj : ∀ {vs ws : List Json}, itemValues vs = itemValues ws → vs = ws
  | [], [], _ => rfl
  | [], _ :: _, h => by cases h
  | _ :: _, [], h => by cases h
  | v :: vs, w :: ws, h => by
    obtain ⟨hv, hvs⟩ := List.cons.inj h
    rw [toValue_inj hv, itemValues_inj hvs]

theorem memberValues_inj : ∀ {ms ns : List (String × Json)}, memberValues ms = memberValues ns →
    ms = ns
  | [], [], _ => rfl
  | [], _ :: _, h => by cases h
  | _ :: _, [], h => by cases h
  | (k, v) :: ms, (l, w) :: ns, h => by
    obtain ⟨hm, hms⟩ := List.cons.inj h
    obtain ⟨hk, hv⟩ := Prod.mk.inj hm
    rw [Yaml.Value.text.inj hk, toValue_inj hv, memberValues_inj hms]

end

theorem isNull_toValue (v : Json) : v.toValue.isNull = v.isNull := by
  cases v <;> rfl

mutual

/-- JSON values lose their nulls as YAML values do. -/
theorem toValue_withoutNulls : ∀ v : Json, v.withoutNulls.toValue = v.toValue.withoutNulls
  | list vs => congrArg Yaml.Value.sequence (itemValues_itemsWithoutNulls vs)
  | object ms => congrArg Yaml.Value.mapping (memberValues_membersWithoutNulls ms)
  | null | bool _ | int _ | float _ | text _ => rfl

theorem itemValues_itemsWithoutNulls : ∀ vs : List Json,
    itemValues (itemsWithoutNulls vs) = Yaml.Value.itemsWithoutNulls (itemValues vs)
  | [] => rfl
  | v :: vs => by
    rw [itemsWithoutNulls, itemValues, Yaml.Value.itemsWithoutNulls, isNull_toValue,
      ← itemValues_itemsWithoutNulls vs]
    split
    · rfl
    · rw [itemValues, toValue_withoutNulls v]

theorem memberValues_membersWithoutNulls : ∀ ms : List (String × Json),
    memberValues (membersWithoutNulls ms) = Yaml.Value.entriesWithoutNulls (memberValues ms)
  | [] => rfl
  | (k, v) :: ms => by
    rw [membersWithoutNulls, memberValues, Yaml.Value.entriesWithoutNulls, isNull_toValue,
      ← memberValues_membersWithoutNulls ms]
    split
    · rfl
    · rw [memberValues, toValue_withoutNulls v]

end

theorem tags_toValue (v : Json) : v.toValue.tags = [] := by
  cases v <;> rfl

mutual

theorem tags_of_mem_within_toValue : ∀ {v : Json}, ∀ s ∈ v.toValue.within, s.tags = []
  | list _ => tags_of_mem_itemSpots_itemValues
  | object _ => tags_of_mem_entrySpots_memberValues
  | null | bool _ | int _ | float _ | text _ => fun _ h => absurd h List.not_mem_nil

theorem tags_of_mem_itemSpots_itemValues : ∀ {vs : List Json},
    ∀ s ∈ Yaml.Value.itemSpots (itemValues vs), s.tags = []
  | [] => fun _ h => absurd h List.not_mem_nil
  | v :: _ => List.forall_mem_append.2 ⟨List.forall_mem_map.2 (List.forall_mem_cons.2
      ⟨tags_toValue v, tags_of_mem_within_toValue⟩), tags_of_mem_itemSpots_itemValues⟩

theorem tags_of_mem_entrySpots_memberValues : ∀ {ms : List (String × Json)},
    ∀ s ∈ Yaml.Value.entrySpots (memberValues ms), s.tags = []
  | [] => fun _ h => absurd h List.not_mem_nil
  | (_, v) :: _ => List.forall_mem_append.2 ⟨List.forall_mem_map.2 (List.forall_mem_cons.2
      ⟨tags_toValue v, tags_of_mem_within_toValue⟩), tags_of_mem_entrySpots_memberValues⟩

end

/-- All places in a value, in the order of the text. -/
def outline (v : Json) : List Yaml.Spot :=
  v.toValue.outline

theorem outline_injective : Function.Injective outline :=
  fun _ _ h => toValue_inj (Yaml.Value.outline_injective h)

/-- No tags stand in a JSON value. -/
theorem tags_of_mem_outline {v : Json} : ∀ s ∈ v.outline, s.tags = [] :=
  List.forall_mem_cons.2 ⟨tags_toValue v, tags_of_mem_within_toValue⟩

theorem outline_withoutNulls (v : Json) :
    v.withoutNulls.outline = v.outline.filter Yaml.Spot.isKept := by
  have huntagged : ∀ s ∈ v.outline.filter Yaml.Spot.isKept, s.untagged = id s := fun s hs => by
    rw [Yaml.Spot.untagged, ← tags_of_mem_outline s (List.mem_filter.1 hs).1, id]
  rw [outline, toValue_withoutNulls, Yaml.Value.outline_withoutNulls, ← outline,
    List.map_congr_left huntagged, List.map_id]

theorem withoutNulls_eq_self {v : Json} (h : ∀ s ∈ v.outline, s.isKept = true) :
    v.withoutNulls = v := by
  refine toValue_inj ?_
  rw [toValue_withoutNulls]
  exact Yaml.Value.withoutNulls_eq_self fun s hs => ⟨h s hs, tags_of_mem_outline s hs⟩

end Json

/-- What is left of a value without its nulls are the places in it where something else stands, in
their order and under their keys, and without the tags there; no other value has that outline. So
nothing more is lost a second time, and nothing at all of a value that has neither nulls nor tags. A
YAML document may therefore leave out its nulls. -/
theorem Yaml.withoutNulls_exact :
    (∀ v : Value,
      (∀ w : Value, w.outline = (v.outline.filter Spot.isKept).map Spot.untagged ↔
        w = v.withoutNulls) ∧
      v.withoutNulls.IsBare ∧ v.withoutNulls.withoutNulls = v.withoutNulls ∧
      (v.IsBare → v.withoutNulls = v)) ∧
    (∀ v : Json,
      (∀ w : Json, w.outline = v.outline.filter Spot.isKept ↔ w = v.withoutNulls) ∧
      (∀ s ∈ v.withoutNulls.outline, s.isKept = true) ∧
      v.withoutNulls.withoutNulls = v.withoutNulls ∧
      ((∀ s ∈ v.outline, s.isKept = true) → v.withoutNulls = v)) ∧
    ∀ s t v w, value? s = some v → value? t = some w →
      Relation.ReflTransGen Value.LeavesOut v w → Format.read .yaml t = Format.read .yaml s := by
  refine ⟨fun v => ⟨fun w => ?_, ?_⟩, fun v => ⟨fun w => ?_, ?_⟩, ?_⟩
  · rw [← v.outline_withoutNulls, Value.outline_injective.eq_iff]
  · exact ⟨v.isBare_withoutNulls, Value.withoutNulls_eq_self v.isBare_withoutNulls,
      Value.withoutNulls_eq_self⟩
  · rw [← v.outline_withoutNulls, Json.outline_injective.eq_iff]
  · have hkept : ∀ s ∈ v.withoutNulls.outline, s.isKept = true := by
      rw [v.outline_withoutNulls]
      exact fun s hs => (List.mem_filter.1 hs).2
    exact ⟨hkept, Json.withoutNulls_eq_self hkept, Json.withoutNulls_eq_self⟩
  · intro s t v w hs ht h
    have hread : read? t = read? s := by
      rw [read?_eq, read?_eq, hs, ht, Option.bind_some, Option.bind_some,
        Value.toDocument?_eq_of_leavesOut h]
    rw [Format.read, Format.read, hread]

/-- A null with a tag can be left out of a document. -/
theorem Yaml.withoutNulls_exact_tagged :
    Format.read .yaml "{name: a}" = Format.read .yaml "{name: a, vcpus: !x }" := by
  have hv : value? "{name: a, vcpus: !x }" =
      some (.mapping [(.text "name", .text "a"), (.text "vcpus", .tagged "x" .null)]) := by
    have htokens : tokens? "{name: a, vcpus: !x }".toList = some [.flowMappingStart,
        .key, .scalar "name" true, .value, .scalar "a" true, .flowEntry,
        .key, .scalar "vcpus" true, .value, .tag "!" "x", .flowMappingEnd] := by
      decide +kernel
    have hvalue : Value.ofElement? (.mapping .none [
        (.scalar .none "name" true, .scalar .none "a" true),
        (.scalar .none "vcpus" true, .scalar ⟨none, some "!x"⟩ "" true)]) = some (.mapping
          [(.text "name", .text "a"), (.text "vcpus", .tagged "x" .null)]) := by
      -- `rfl` alone stops at the alias that might be there, which is looked at before the depth.
      delta Value.ofElement? Value.ofElement
      rfl
    rw [value?, htokens]
    exact hvalue
  have hw : value? "{name: a}" = some (.mapping [(.text "name", .text "a")]) := by
    have htokens : tokens? "{name: a}".toList = some [.flowMappingStart,
        .key, .scalar "name" true, .value, .scalar "a" true, .flowMappingEnd] := by
      decide +kernel
    have hvalue : Value.ofElement? (.mapping .none [
        (.scalar .none "name" true, .scalar .none "a" true)]) =
          some (.mapping [(.text "name", .text "a")]) := by
      delta Value.ofElement? Value.ofElement
      rfl
    rw [value?, htokens]
    exact hvalue
  have hleft : Value.LeavesOut
      (.mapping ([(.text "name", .text "a")] ++ (.text "vcpus", .tagged "x" .null) :: []))
      (.mapping ([(.text "name", .text "a")] ++ [])) :=
    .entry _ rfl
  exact withoutNulls_exact.2.2 _ _ _ _ hv hw (.single hleft)

end ForecastJob
