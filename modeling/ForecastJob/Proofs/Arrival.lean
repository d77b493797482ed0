import ForecastJob.Proofs.Entries

/-!
# What a record that was read says about the one that was written

A record is carried if it is known what each of its fields is read as. Here it is only known that a
reader took what arrived. Then every field is what the reader made of that field alone.

* `Passage.Arrives p c x y` : the value `x`, written with the codec `c`, was read as `y`;
* `Field.Arrived` : the same for a field of a record;
* `Passage.Arrives.arrived` : each field of a record that was read has arrived;
* `Codec.Persists` : no value vanishes on its way;
* `Field.Arrived.of_mandatory`, `Field.Arrived.of_optional` : what a field that has arrived says
  about its value.
-/

namespace ForecastJob

variable {ρ α : Type}

/-- The value, written with the codec, arrived and was read as another one. -/
def Passage.Arrives (p : Passage) (c : Codec α) (x y : α) : Prop :=
  ∃ v, p.pass (c.write x) = some v ∧ c.read v.toTree = .ok y

/-- The field of `x` was read as the field of `y`, or it did not arrive and is that of the blank
record. -/
def Field.Arrived (p : Passage) (blank : ρ) (f : Field ρ) (x y : ρ) : Prop :=
  match (f.write x).bind p.pass with
  | none => f.write y = f.write blank
  | some v => ∃ z z', f.read v.toTree z = .ok z' ∧ f.write z' = f.write y

/-! ## Records -/

/-- Every field of a record that was read has arrived. -/
theorem Passage.Arrives.arrived {p : Passage} {r : Record ρ} [r.Lawful] {x y : ρ}
    (h : p.Arrives r.codec x y) {f : Field ρ} (hf : f ∈ r.fields) : f.Arrived p r.blank x y := by
  obtain ⟨v, hv, hread⟩ := h
  obtain ⟨es, hes, -, hperm⟩ := p.pass_object _ (r.nodup_keysOf_members x)
  obtain rfl : Json.object es = v := Option.some.inj (hes.symm.trans hv)
  rw [Record.filterMap_members] at hperm
  obtain ⟨hout, hin⟩ := Record.field_of_readTable hf hread
  unfold Field.Arrived
  cases hw : (f.write x).bind p.pass with
  | some w =>
    have hm : (f.name, w) ∈ es := hperm.mem_iff.2 (Record.mem_arrivals.2 ⟨f, hf, rfl, hw⟩)
    exact hin w.toTree (Json.mem_memberTrees.2 ⟨w, hm, rfl⟩)
  | none =>
    refine hout fun t ht => ?_
    obtain ⟨w, hm, -⟩ := Json.mem_memberTrees.1 ht
    obtain ⟨g, hg, hn, hgw⟩ := Record.mem_arrivals.1 (hperm.mem_iff.1 hm)
    obtain rfl := Record.eq_of_name_eq hg hf hn
    rw [hw] at hgw
    cases hgw

/-! ## Kinds of fields -/

/-- What is written arrives and is not null, whichever way it takes. -/
class Codec.Persists (c : Codec α) : Prop where
  exists_pass : ∀ (p : Passage) (x : α), ∃ v, p.pass (c.write x) = some v ∧ v.isNull = false

instance {c : Codec α} [c.Exact] : c.Persists where
  exists_pass p x := by
    obtain ⟨v, hv, hn, -⟩ := c.carries_self p x
    exact ⟨v, hv, hn⟩

instance {r : Record ρ} [r.Lawful] : r.codec.Persists where
  exists_pass p x := by
    obtain ⟨es, hes, -, -⟩ := p.pass_object _ (r.nodup_keysOf_members x)
    exact ⟨.object es, hes, rfl⟩

/-- What is written with an exact codec was read as it was. -/
theorem Passage.Arrives.eq {p : Passage} {c : Codec α} [c.Exact] {x y : α} (h : p.Arrives c x y) :
    y = x := by
  obtain ⟨v, hv, hy⟩ := h
  obtain ⟨w, hw, -, hx⟩ := c.carries_self p x
  obtain rfl := Option.some.inj (hw.symm.trans hv)
  exact Except.ok.inj (hy.symm.trans hx)

namespace Field.Arrived

variable {p : Passage} {blank x y : ρ} {name : String} {c : Codec α} [c.Persists] [c.Injective]

/-- A value that must be there was read. -/
theorem of_mandatory {get : ρ → α} {set : α → ρ → ρ}
    (h : (mandatory name c get set).Arrived p blank x y) (hs : ∀ v z, get (set v z) = v) :
    p.Arrives c (get x) (get y) := by
  obtain ⟨v, hv, -⟩ := Codec.Persists.exists_pass (c := c) p (get x)
  simp only [Arrived, mandatory, Option.bind_some, hv] at h
  obtain ⟨z, z', hz', hw⟩ := h
  obtain ⟨a, ha, rfl⟩ := Except.map_eq_ok.1 hz'
  simp only [hs, Option.some.injEq, Codec.write_inj] at hw
  exact ⟨v, hv, hw ▸ ha⟩

/-- A value that may not be there was read if it is there. -/
theorem of_optional {get : ρ → Option α} {set : Option α → ρ → ρ}
    (h : (optional name c get set).Arrived p blank x y) (hs : ∀ v z, get (set v z) = v)
    (hb : get blank = none) :
    (get x = none ∧ get y = none) ∨ ∃ a b, get x = some a ∧ get y = some b ∧ p.Arrives c a b := by
  unfold Arrived at h
  cases hx : get x with
  | none =>
    simp only [optional, hx, Option.map_none, Option.bind_none, hb, Option.map_eq_none_iff] at h
    exact .inl ⟨rfl, h⟩
  | some a =>
    obtain ⟨v, hv, hn⟩ := Codec.Persists.exists_pass (c := c) p a
    simp only [optional, hx, Option.map_some, Option.bind_some, hv] at h
    obtain ⟨z, z', hz', hw⟩ := h
    rw [Codec.nullable_read_toTree hn] at hz'
    obtain ⟨o, ho, rfl⟩ := Except.map_eq_ok.1 hz'
    obtain ⟨b, hb, rfl⟩ := Except.map_eq_ok.1 ho
    rw [hs, Codec.map_write_inj] at hw
    exact .inr ⟨a, b, rfl, hw.symm, v, hv, hb⟩

/-- What values keep on their way is kept by one that may not be there. -/
theorem map_of_optional {β : Type} {get : ρ → Option α} {set : Option α → ρ → ρ} {g : α → β}
    (h : (optional name c get set).Arrived p blank x y) (hs : ∀ v z, get (set v z) = v)
    (hb : get blank = none) (hg : ∀ {a b}, p.Arrives c a b → g b = g a) :
    (get y).map g = (get x).map g := by
  obtain ⟨hx, hy⟩ | ⟨a, b, hx, hy, hab⟩ := h.of_optional hs hb
  · rw [hx, hy]
  · rw [hx, hy, Option.map_some, Option.map_some, hg hab]

/-- A value that may not be there and is written with an exact codec was read as it was. -/
theorem eq_of_optional [c.Exact] {get : ρ → Option α} {set : Option α → ρ → ρ}
    (h : (optional name c get set).Arrived p blank x y) (hs : ∀ v z, get (set v z) = v)
    (hb : get blank = none) : get y = get x := by
  have hmap := h.map_of_optional (g := id) hs hb fun hab => hab.eq
  rwa [Option.map_id, id, id] at hmap

end Field.Arrived

end ForecastJob
