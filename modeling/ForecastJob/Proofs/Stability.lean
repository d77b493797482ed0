import ForecastJob.Proofs.Leaves

/-!
# What was read is sent and read again

A value that was read from JSON is not just any value: its numbers are finite, and where null stands
for no value there is no null. So it is sent as it is.

* `Tree.Sendable` : the numbers that JSON has;
* `Codec.Stable` : what is read with the codec, from such numbers, is sent and read as it was;
* `Record.stable` : a record is stable if its fields are.
-/

namespace ForecastJob

variable {α ρ : Type}

/-! ## Numbers -/

/-- A number is one that JSON has. -/
def Tree.Sendable : Tree → Prop
  | .int i => Json.inRange i = true
  | .float x => Decimal.isFinite x = true
  | _ => True

namespace Json

mutual

theorem within_sendable : ∀ {v : Json}, v.isNormal = true → v.Within Tree.Sendable
  | .null, _ => Tree.within_null.2 trivial
  | .bool _, _ => Tree.within_bool.2 trivial
  | .int _, h => Tree.within_int.2 h
  | .float _, h => Tree.within_float.2 h
  | .text _, _ => Tree.within_text.2 trivial
  | .list _, h => within_list.2 (items_within_sendable h)
  | .object _, h => within_object.2 (members_within_sendable (Bool.and_eq_true_iff.1 h).2)

theorem items_within_sendable : ∀ {vs : List Json}, areNormal vs = true →
    ∀ v ∈ vs, v.Within Tree.Sendable
  | [], _ => List.forall_mem_nil _
  | _ :: _, h => by
    obtain ⟨hv, hvs⟩ := Bool.and_eq_true_iff.1 h
    exact List.forall_mem_cons.2 ⟨within_sendable hv, items_within_sendable hvs⟩

theorem members_within_sendable : ∀ {ms : List (String × Json)}, membersAreNormal ms = true →
    ∀ m ∈ ms, m.2.Within Tree.Sendable
  | [], _ => List.forall_mem_nil _
  | (_, _) :: _, h => by
    obtain ⟨hv, hms⟩ := Bool.and_eq_true_iff.1 h
    exact List.forall_mem_cons.2 ⟨within_sendable hv, members_within_sendable hms⟩

end

end Json

/-! ## Codecs -/

/-- What is read is sent and read as it was. -/
class Codec.Stable (c : Codec α) : Prop where
  carries : ∀ {t x}, t.Within Tree.Sendable → c.read t = .ok x → Passage.payload.Carries c x x

namespace Codec

instance {c : Codec α} [c.Exact] : c.Stable where
  carries _ _ := c.carries_self .payload _

instance : float.Stable where
  carries {t x} ht hx := by
    have hfinite : Decimal.isFinite x = true := by
      cases t with
      | float y =>
        cases hx
        exact Tree.within_float.1 ht
      | int i =>
        cases hx
        have hi : Json.inRange i = true := Tree.within_int.1 ht
        simp only [Json.inRange, Int64.toInt_minValue, UInt64.size, Bool.and_eq_true,
          decide_eq_true_eq] at hi
        exact Decimal.isFinite_ofInt (by omega)
      | _ => cases hx
    exact ⟨_, Passage.payload.pass_float x hfinite, rfl, rfl⟩

instance {c : Codec α} [c.Stable] : c.listOf.Stable where
  carries {t xs} ht hxs := by
    cases t with
    | list ts =>
      refine .listOf_self fun x hx => ?_
      obtain ⟨u, hu, hread⟩ := exists_tree_of_mapM hxs x hx
      exact Stable.carries (Tree.within_list.1 ht u hu) hread
    | _ => cases hxs

instance {c : Codec α} [c.Stable] : c.dictOf.Stable where
  carries {t d} ht hd := by
    cases t with
    | table es =>
      refine .dictOf_self fun e he => ?_
      rcases exists_tree_of_readEntries hd e he with he | ⟨f, hf, hread⟩
      · exact absurd he List.not_mem_nil
      · exact Stable.carries (Tree.within_table.1 ht f hf) hread
    | _ => cases hd

end Codec

theorem Tree.isNull_of_toJson? {t : Tree} {v : Json} (ht : t.Within Tree.Sendable)
    (hne : t ≠ .null) (h : t.toJson? = some v) : v.isNull = false := by
  cases t with
  | null => exact absurd rfl hne
  | float x =>
    have hx : Decimal.isFinite x = true := Tree.within_float.1 ht
    obtain rfl : .float x = v := by simpa only [toJson?, Json.ofFloat, hx, if_true,
      Option.some.injEq] using h
    rfl
  | int i =>
    simp only [toJson?] at h
    split at h
    · cases h
      rfl
    · cases h
  | list ts =>
    obtain ⟨vs, -, rfl⟩ := Option.map_eq_some_iff.1 (by simpa only [toJson?] using h)
    rfl
  | table es =>
    obtain ⟨ms, -, rfl⟩ := Option.map_eq_some_iff.1 (by simpa only [toJson?] using h)
    rfl
  | bool b =>
    cases h
    rfl
  | text s =>
    cases h
    rfl
  | unreadable => cases h
  | broken => cases h

/-- Free-form data that was read is null only if there was null. -/
theorem FreeForm.isNull_of_read {t : Tree} {v : FreeForm} (ht : t.Within Tree.Sendable)
    (hne : t ≠ .null) (h : FreeForm.read t = .ok v) : v.json.isNull = false := by
  unfold FreeForm.read at h
  split at h
  · next hw =>
    cases h
    exact Tree.isNull_of_toJson? ht hne hw
  · cases h

/-! ## Records -/

/-- A value that was read into the field is sent and read as it was. -/
def Field.Stable (blank : ρ) (f : Field ρ) : Prop :=
  ∀ t z z', t.Within Tree.Sendable → f.read t z = .ok z' → f.Delivers .payload blank z' z'

namespace Field

theorem Delivers.congr {p : Passage} {blank x y : ρ} {f : Field ρ} (hw : f.write x = f.write y)
    (h : f.Delivers p blank y y) : f.Delivers p blank x x := by
  unfold Delivers Yields at h ⊢
  rwa [hw]

variable {blank : ρ} {name : String} {c : Codec α}

@[simp] theorem stable_mandatory [c.Stable] {get : ρ → α} {set : α → ρ → ρ}
    (hs : ∀ v z, get (set v z) = v) : (mandatory name c get set).Stable blank := by
  intro t z z' ht hz
  obtain ⟨v, hv, rfl⟩ := Except.map_eq_ok.1 hz
  refine delivers_mandatory hs ?_
  rw [hs]
  exact Codec.Stable.carries ht hv

section Options

variable {get : ρ → Option α} {set : Option α → ρ → ρ}

/-- Where there is no value none is sent. -/
@[simp] theorem delivers_optional_of_none {p : Passage} (hb : get blank = none) :
    (optional name c get set).Delivers p blank blank blank := by
  simp [Delivers, optional, hb]

/-- Null was read as no value, so that a value was read from something else. -/
theorem stable_optional_of_ne_null (hs : ∀ v z, get (set v z) = v) (hb : get blank = none)
    (hc : ∀ {t x}, t ≠ .null → t.Within Tree.Sendable → c.read t = .ok x →
      Passage.payload.Carries c x x) : (optional name c get set).Stable blank := by
  intro t z z' ht hz
  obtain ⟨o, ho, rfl⟩ := Except.map_eq_ok.1 hz
  refine delivers_optional hs hb ?_
  rw [hs]
  refine .refl fun x hx => ?_
  obtain rfl : o = some x := hx
  refine hc ?_ ht (Codec.read_of_nullable_read ho)
  rintro rfl
  cases ho

@[simp] theorem stable_optional [c.Stable] (hs : ∀ v z, get (set v z) = v)
    (hb : get blank = none) : (optional name c get set).Stable blank :=
  stable_optional_of_ne_null hs hb fun _ => Codec.Stable.carries

end Options

@[simp] theorem stable_optional_freeForm {get : ρ → Option FreeForm}
    {set : Option FreeForm → ρ → ρ} (hs : ∀ v z, get (set v z) = v) (hb : get blank = none) :
    (optional name .freeForm get set).Stable blank :=
  stable_optional_of_ne_null hs hb fun hne ht hv =>
    Passage.payload_carries_freeForm (FreeForm.isNull_of_read ht hne hv)

section Dicts

variable {get : ρ → Dict α} {set : Dict α → ρ → ρ}

@[simp] theorem delivers_dict_self (hs : ∀ v z, get (set v z) = v) (hb : get blank = .empty)
    (hc : ∀ x, Passage.payload.deliver c x = some (.ok x)) (x : ρ) :
    (dict name c get set).Delivers .payload blank x x :=
  delivers_dict hs hb (.dictOf_of_deliver fun e _ => hc e.2)

@[simp] theorem stable_dict (hs : ∀ v z, get (set v z) = v) (hb : get blank = .empty)
    (hc : ∀ x, Passage.payload.deliver c x = some (.ok x)) :
    (dict name c get set).Stable blank :=
  fun _ _ z' _ _ => delivers_dict_self hs hb hc z'

end Dicts

end Field

/-- What was read as a record is sent and read as it was if this holds of its fields. -/
theorem Record.stable {r : Record ρ} [r.Lawful]
    (hb : ∀ f ∈ r.fields, f.Delivers .payload r.blank r.blank r.blank)
    (hf : ∀ f ∈ r.fields, f.Stable r.blank) : r.codec.Stable where
  carries ht hx := by
    have hensures : r.Ensures Tree.Sendable fun f x => f.Delivers .payload r.blank x x :=
      ⟨fun hw hy => hy.congr hw, hb, hf⟩
    exact Record.carries (hensures.of_read ht hx)

end ForecastJob
