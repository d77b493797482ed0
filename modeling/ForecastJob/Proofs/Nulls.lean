import ForecastJob.Proofs.Fields

/-!
# Where nulls stand in what is sent

Null is sent where null is written, and for numbers that are not finite. Where these stand in a value
is known from where its parts stand.

* `Json.At` : a value stands somewhere in another one;
* `Json.NullsIn` : what is sent as null stands at certain places only;
* `Codec.NullFree` : nothing that is written with the codec is sent as null;
* `Record.nullsIn_write` : the places in a record are those in its fields.
-/

namespace ForecastJob

variable {α ρ : Type}

/-- A step into a value: to the member under a key, or to any of the items. -/
inductive Step where
  | key (k : String)
  | item
  deriving Repr, DecidableEq

/-- Some steps lead from one value to another. -/
inductive Json.At : Json → List Step → Json → Prop
  | here (v : Json) : At v [] v
  | member {ms : List (String × Json)} {k : String} {v w : Json} {path : List Step}
      (hm : (k, v) ∈ ms) (h : At v path w) : At (.object ms) (.key k :: path) w
  | item {vs : List Json} {v w : Json} {path : List Step} (hv : v ∈ vs) (h : At v path w) :
      At (.list vs) (.item :: path) w

/-- What is sent as null stands at places of this kind. -/
def Json.NullsIn (places : List Step → Prop) (v : Json) : Prop :=
  ∀ path w, v.At path w → w.normal = .null → places path

/-! ## Values -/

namespace Json

variable {places : List Step → Prop}

theorem at_nil_iff {v w : Json} : v.At [] w ↔ v = w := by
  constructor
  · rintro ⟨⟩
    rfl
  · rintro rfl
    exact .here v

theorem mem_normalMembers {ms : List (String × Json)} {k : String} {v : Json}
    (h : (k, v) ∈ normalMembers ms) : ∃ w, (k, w) ∈ ms ∧ w.normal = v := by
  induction ms with
  | nil => exact absurd h List.not_mem_nil
  | cons m ms ih =>
    obtain ⟨l, u⟩ := m
    rcases mem_insertEntry h with heq | h
    · cases heq
      exact ⟨u, List.mem_cons_self, rfl⟩
    · obtain ⟨w, hw, hn⟩ := ih h
      exact ⟨w, List.mem_cons_of_mem _ hw, hn⟩

theorem normal_eq_object {v : Json} {ms : List (String × Json)} (h : v.normal = .object ms) :
    ∃ ms', v = .object ms' ∧ normalMembers ms' = ms := by
  cases v with
  | object ms' => exact ⟨ms', rfl, Json.object.inj h⟩
  | float x =>
    simp only [normal, ofFloat] at h
    split at h <;> cases h
  | _ => cases h

theorem normal_eq_list {v : Json} {vs : List Json} (h : v.normal = .list vs) :
    ∃ vs', v = .list vs' ∧ normalItems vs' = vs := by
  cases v with
  | list vs' => exact ⟨vs', rfl, Json.list.inj h⟩
  | float x =>
    simp only [normal, ofFloat] at h
    split at h <;> cases h
  | _ => cases h

/-- Where something stands in what is sent, it stands in what was written. -/
theorem exists_at_of_normal {v n w : Json} {path : List Step} (hn : v.normal = n)
    (h : n.At path w) : ∃ u, v.At path u ∧ u.normal = w := by
  induction h generalizing v with
  | here n => exact ⟨v, .here v, hn⟩
  | member hm _ ih =>
    obtain ⟨ms, rfl, rfl⟩ := normal_eq_object hn
    obtain ⟨v', hm', hv'⟩ := mem_normalMembers hm
    obtain ⟨u, hu, hw⟩ := ih hv'
    exact ⟨u, .member hm' hu, hw⟩
  | item hv _ ih =>
    obtain ⟨vs, rfl, rfl⟩ := normal_eq_list hn
    rw [normalItems_eq] at hv
    obtain ⟨v', hmem, hv'⟩ := List.mem_map.1 hv
    obtain ⟨u, hu, hw⟩ := ih hv'
    exact ⟨u, .item hmem hu, hw⟩

theorem NullsIn.of_normal {v : Json} (h : v.NullsIn places) {path : List Step}
    (hp : v.normal.At path .null) : places path := by
  obtain ⟨u, hu, hn⟩ := exists_at_of_normal rfl hp
  exact h path u hu hn

theorem NullsIn.mono {v : Json} {places' : List Step → Prop} (h : v.NullsIn places)
    (hp : ∀ path, places path → places' path) : v.NullsIn places' :=
  fun path w hw hn => hp path (h path w hw hn)

@[simp] theorem nullsIn_bool {b : Bool} : (bool b).NullsIn places := by
  rintro _ _ ⟨⟩ ⟨⟩

@[simp] theorem nullsIn_int {i : Int} : (int i).NullsIn places := by
  rintro _ _ ⟨⟩ ⟨⟩

@[simp] theorem nullsIn_text {s : String} : (text s).NullsIn places := by
  rintro _ _ ⟨⟩ ⟨⟩

@[simp] theorem nullsIn_list {vs : List Json} :
    (list vs).NullsIn places ↔ ∀ v ∈ vs, v.NullsIn fun path => places (.item :: path) := by
  constructor
  · exact fun h v hv path w hw => h (.item :: path) w (.item hv hw)
  · rintro h _ w (_ | _ | ⟨hv, hw⟩) hn
    · cases hn
    · exact h _ hv _ w hw hn

@[simp] theorem nullsIn_object {ms : List (String × Json)} :
    (object ms).NullsIn places ↔ ∀ m ∈ ms, m.2.NullsIn fun path => places (.key m.1 :: path) := by
  constructor
  · exact fun h m hm path w hw => h (.key m.1 :: path) w (.member hm hw)
  · rintro h _ w (_ | ⟨hm, hw⟩ | _) hn
    · cases hn
    · exact h _ hm _ w hw hn

/-- A value that is not sent as null itself has all its nulls further in. -/
theorem nullsIn_of_ne_null {v : Json} (h : v.normal ≠ .null)
    (hp : ∀ step path, places (step :: path)) : v.NullsIn places := by
  rintro (_ | ⟨step, path⟩) w hw hn
  · obtain rfl := at_nil_iff.1 hw
    exact absurd hn h
  · exact hp step path

end Json

/-! ## Codecs -/

/-- Nothing that is written is sent as null. -/
class Codec.NullFree (c : Codec α) : Prop where
  nullsIn : ∀ x, (c.write x).NullsIn fun _ => False

namespace Codec

variable {places : List Step → Prop}

@[simp] theorem nullsIn_write (c : Codec α) [c.NullFree] (x : α) : (c.write x).NullsIn places :=
  (NullFree.nullsIn x).mono fun _ => False.elim

instance : text.NullFree := ⟨fun _ => Json.nullsIn_text⟩

instance : bool.NullFree := ⟨fun _ => Json.nullsIn_bool⟩

instance : uint32.NullFree := ⟨fun _ => Json.nullsIn_int⟩

instance : int32.NullFree := ⟨fun _ => Json.nullsIn_int⟩

instance : int64.NullFree := ⟨fun _ => Json.nullsIn_int⟩

theorem nullsIn_floats (places : List Step → Prop) {o : Option Float}
    (h : ∀ x ∈ o, Decimal.isFinite x = true) : ∀ x ∈ o, (float.write x).NullsIn places := by
  rintro x hx _ _ ⟨⟩ hn
  have hn : Json.ofFloat x = .null := hn
  rw [Json.ofFloat, if_pos (h x hx)] at hn
  cases hn

theorem nullsIn_freeForms {o : Option FreeForm} (h : ∀ v ∈ o, v.json.isNull = false)
    {k : String} (hp : ∀ step path, places (.key k :: step :: path)) :
    ∀ v ∈ o, (freeForm.write v).NullsIn fun path => places (.key k :: path) := by
  refine fun v hv => Json.nullsIn_of_ne_null (fun hn => ?_) hp
  have hnull : v.json = .null := (Json.normal_eq_self v.normal).symm.trans hn
  have hne := h v hv
  rw [hnull] at hne
  cases hne

theorem nullsIn_nullable_write {c : Codec α} [c.NullFree] {o : Option α}
    (h : o = none → places []) : (c.nullable.write o).NullsIn places := by
  cases o with
  | some x => exact c.nullsIn_write x
  | none =>
    rintro _ _ ⟨⟩ -
    exact h rfl

@[simp] theorem nullsIn_listOf_write {c : Codec α} {xs : List α} :
    (c.listOf.write xs).NullsIn places ↔
      ∀ x ∈ xs, (c.write x).NullsIn fun path => places (.item :: path) := by
  simp only [listOf, Json.nullsIn_list, List.forall_mem_map]

@[simp] theorem nullsIn_dictOf_write {c : Codec α} {d : Dict α} :
    (c.dictOf.write d).NullsIn places ↔
      ∀ e ∈ d.entries, (c.write e.2).NullsIn fun path => places (.key e.1 :: path) := by
  simp only [dictOf, Json.nullsIn_object, List.forall_mem_map]

instance {c : Codec α} [c.NullFree] : c.listOf.NullFree where
  nullsIn _ := nullsIn_listOf_write.2 fun x _ => c.nullsIn_write x

instance {c : Codec α} [c.NullFree] : c.dictOf.NullFree where
  nullsIn _ := nullsIn_dictOf_write.2 fun e _ => c.nullsIn_write e.2

end Codec

/-! ## Records -/

/-- What is sent as null in the field stands at these places of the record. -/
def Field.NullsIn (places : List Step → Prop) (f : Field ρ) (x : ρ) : Prop :=
  ∀ v ∈ f.write x, v.NullsIn fun path => places (.key f.name :: path)

namespace Field

variable {places : List Step → Prop} {x : ρ} {name : String} {c : Codec α}

@[simp] theorem nullsIn_mandatory {get : ρ → α} {set : α → ρ → ρ} :
    (mandatory name c get set).NullsIn places x ↔
      (c.write (get x)).NullsIn fun path => places (.key name :: path) := by
  simp [NullsIn, mandatory]

@[simp] theorem nullsIn_optional {get : ρ → Option α} {set : Option α → ρ → ρ} :
    (optional name c get set).NullsIn places x ↔
      ∀ a ∈ get x, (c.write a).NullsIn fun path => places (.key name :: path) := by
  simp [NullsIn, optional]

@[simp] theorem nullsIn_dict {get : ρ → Dict α} {set : Dict α → ρ → ρ} :
    (dict name c get set).NullsIn places x ↔ ∀ e ∈ (get x).entries,
      (c.write e.2).NullsIn fun path => places (.key name :: .key e.1 :: path) := by
  simp only [NullsIn, dict]
  split
  · next h => simp [Dict.isEmpty_iff.1 h, Dict.empty]
  · simp [Codec.nullsIn_dictOf_write]

end Field

theorem Record.nullsIn_write {r : Record ρ} {places : List Step → Prop} {x : ρ} :
    (r.write x).NullsIn places ↔ ∀ f ∈ r.fields, f.NullsIn places x := by
  simp only [write, members, Json.nullsIn_object, List.mem_filterMap, Option.map_eq_some_iff]
  constructor
  · exact fun h f hf v hv => h (f.name, v) ⟨f, hf, v, hv, rfl⟩
  · rintro h _ ⟨f, hf, v, hv, rfl⟩
    exact h f hf v hv

theorem Record.nullsIn_of_mem_members {r : Record ρ} [h : r.codec.NullFree]
    {places : List Step → Prop} {x : ρ} : ∀ m ∈ r.members x, m.2.NullsIn places :=
  fun m hm => (Json.nullsIn_object.1 (h.nullsIn x) m hm).mono fun _ => False.elim

@[simp] theorem Union.nullsIn_write {tag value : String} {ms : List (String × Json)}
    {places : List Step → Prop} : (Union.write tag value ms).NullsIn places ↔
      ∀ m ∈ ms, m.2.NullsIn fun path => places (.key m.1 :: path) := by
  rw [Union.write, Json.nullsIn_object, List.forall_mem_cons]
  exact and_iff_right Json.nullsIn_text

end ForecastJob
