import Mathlib.Data.List.Pairwise
import ForecastJob.Proofs.Delivery
import ForecastJob.Proofs.Outcome

/-!
# Records from field to field

Members arrive in key order, whatever the order in which a record's fields are written; what a
record is read as follows field by field all the same, since no field is touched by another one.

* `Field.Delivers` : a field of one record is read as that field of another one;
* `Record.Lawful` : the fields have names of their own, spare each other and make up the record;
* `Record.carries` : a record is read as another one if each of its fields is;
* `Union.carries_unit`, `Union.carries_fields` : the same for the variants of a union.
-/

namespace ForecastJob

variable {ρ α : Type}

/-! ## Fields -/

namespace Field

/-- Read into any record, the tree makes the field what it is in `y`. -/
def Yields (f : Field ρ) (t : Tree) (y : ρ) : Prop :=
  ∀ z, ∃ z', f.read t z = .ok z' ∧ f.write z' = f.write y

/-- The field of `x` is read as the field of `y`, or not there as in the blank record. -/
def Delivers (p : Passage) (blank : ρ) (f : Field ρ) (x y : ρ) : Prop :=
  match (f.write x).bind p.pass with
  | none => f.required = false ∧ f.write blank = f.write y
  | some v => f.Yields v.toTree y

/-- Reading the field leaves another one as it is. -/
def Spares (f g : Field ρ) : Prop :=
  ∀ t z z', f.read t z = .ok z' → g.write z' = g.write z

section Kinds

variable {p : Passage} {blank x y : ρ} {name : String} {c : Codec α}

theorem yields_of_read {f : Field ρ} {t : Tree} {σ : Type} {read : Except Fault σ}
    {s : σ → ρ → ρ} {v : σ} (hf : ∀ z, f.read t z = read.map (s · z)) (hv : read = .ok v)
    (hw : ∀ z, f.write (s v z) = f.write y) : f.Yields t y := by
  intro z
  exact ⟨s v z, by rw [hf, hv]; rfl, hw z⟩

@[simp] theorem delivers_mandatory {get : ρ → α} {set : α → ρ → ρ} (hs : ∀ v z, get (set v z) = v)
    (h : p.Carries c (get x) (get y)) : (mandatory name c get set).Delivers p blank x y := by
  obtain ⟨v, hv, -, hy⟩ := h
  simp only [Delivers, mandatory, Option.bind_some, hv]
  exact yields_of_read (fun _ => rfl) hy fun z => by simp only [hs]

@[simp] theorem delivers_defaulted {get : ρ → α} {set : α → ρ → ρ} (hs : ∀ v z, get (set v z) = v)
    (h : p.Carries c (get x) (get y)) : (defaulted name c get set).Delivers p blank x y := by
  obtain ⟨v, hv, -, hy⟩ := h
  simp only [Delivers, defaulted, Option.bind_some, hv]
  exact yields_of_read (fun _ => rfl) hy fun z => by simp only [hs]

@[simp] theorem delivers_optional {get : ρ → Option α} {set : Option α → ρ → ρ}
    (hs : ∀ v z, get (set v z) = v) (hb : get blank = none)
    (h : p.CarriesOption c (get x) (get y)) : (optional name c get set).Delivers p blank x y := by
  unfold Passage.CarriesOption at h
  unfold Delivers optional
  cases hv : ((get x).map c.write).bind p.pass with
  | none =>
    simp only [hv] at h
    simp only [h, hb, and_self]
  | some v =>
    simp only [hv] at h
    exact yields_of_read (fun _ => rfl) h fun z => by simp only [hs]

@[simp] theorem delivers_given {get : ρ → Option α} {set : Option α → ρ → ρ}
    (hs : ∀ v z, get (set v z) = v) (hb : get blank = none) [c.Exact] (h : get x = get y) :
    (given name c get set).Delivers p blank x y := by
  simp only [Delivers, given, h]
  cases hy : get y with
  | none => simp only [Option.map_none, Option.bind_none, hb, and_self]
  | some a =>
    obtain ⟨v, hv, -, ha⟩ := c.carries_self p a
    simp only [Option.map_some, Option.bind_some, hv]
    exact yields_of_read (s := fun a => set (some a)) (fun _ => rfl) ha fun z => by
      simp only [hs, hy]

@[simp] theorem delivers_dict {get : ρ → Dict α} {set : Dict α → ρ → ρ}
    (hs : ∀ v z, get (set v z) = v) (hb : get blank = .empty)
    (h : p.Carries c.dictOf (get x) (get y)) : (dict name c get set).Delivers p blank x y := by
  simp only [Delivers, dict]
  cases he : (get x).isEmpty with
  | true =>
    rw [Dict.isEmpty_iff.1 he] at h
    simp only [Passage.eq_empty_of_carries_empty h, if_true, Option.bind_none, hb, and_self]
  | false =>
    obtain ⟨v, hv, -, hy⟩ := h
    simp only [Bool.false_eq_true, if_false, Option.bind_some, hv]
    exact yields_of_read (fun _ => rfl) hy fun z => by simp only [hs]

section Values

variable {get : ρ → α} {set : α → ρ → ρ}

@[simp] theorem name_mandatory : (mandatory name c get set).name = name := rfl

@[simp] theorem name_defaulted : (defaulted name c get set).name = name := rfl

@[simp] theorem write_mandatory_inj [c.Injective] :
    (mandatory name c get set).write x = (mandatory name c get set).write y ↔ get x = get y :=
  Option.some_inj.trans c.write_inj

@[simp] theorem write_defaulted_inj [c.Injective] :
    (defaulted name c get set).write x = (defaulted name c get set).write y ↔ get x = get y :=
  Option.some_inj.trans c.write_inj

end Values

section Options

variable {get : ρ → Option α} {set : Option α → ρ → ρ}

@[simp] theorem name_optional : (optional name c get set).name = name := rfl

@[simp] theorem name_given : (given name c get set).name = name := rfl

@[simp] theorem write_optional_inj [c.Injective] :
    (optional name c get set).write x = (optional name c get set).write y ↔ get x = get y :=
  c.map_write_inj

@[simp] theorem write_given_inj [c.Injective] :
    (given name c get set).write x = (given name c get set).write y ↔ get x = get y :=
  c.map_write_inj

end Options

section Dicts

variable {get : ρ → Dict α} {set : Dict α → ρ → ρ}

@[simp] theorem name_dict : (dict name c get set).name = name := rfl

@[simp] theorem write_dict_inj [c.Injective] :
    (dict name c get set).write x = (dict name c get set).write y ↔ get x = get y := by
  refine ⟨fun h => ?_, fun h => by simp only [dict, h]⟩
  simp only [dict] at h
  cases hx : (get x).isEmpty with
  | true =>
    cases hy : (get y).isEmpty with
    | true => rw [Dict.isEmpty_iff.1 hx, Dict.isEmpty_iff.1 hy]
    | false => simp [hx, hy] at h
  | false =>
    cases hy : (get y).isEmpty with
    | true => simp [hx, hy] at h
    | false => exact c.dictOf.write_inj.1 (by simpa [hx, hy] using h)

end Dicts

/-- A field that only sets a value spares the fields that do not depend on it. -/
theorem spares_of_set {f g : Field ρ} {σ : Type} {set : σ → ρ → ρ}
    {read : Tree → Except Fault σ} (hf : ∀ t z, f.read t z = (read t).map (set · z))
    (hg : ∀ v z, g.write (set v z) = g.write z) : f.Spares g := by
  intro t z z' h
  rw [hf] at h
  cases hr : read t with
  | error e => rw [hr] at h; cases h
  | ok v => rw [hr] at h; cases h; exact hg v z

end Kinds

end Field

/-! ## Records -/

/-- The fields have names of their own, spare each other and make up the record. -/
class Record.Lawful (r : Record ρ) : Prop where
  nodup : (r.fields.map (·.name)).Nodup := by decide +kernel
  spares : r.fields.Pairwise fun f g => f.Spares g ∧ g.Spares f := by
    repeat' first
      | exact List.Pairwise.nil
      | refine List.pairwise_cons.2 ⟨?_, ?_⟩
      | exact List.forall_mem_nil _
      | refine List.forall_mem_cons.2 ⟨⟨Field.spares_of_set (fun _ _ => rfl) fun _ _ => rfl,
          Field.spares_of_set (fun _ _ => rfl) fun _ _ => rfl⟩, ?_⟩
  ext : ∀ x y, (∀ f ∈ r.fields, f.write x = f.write y) → x = y

namespace Record

variable {r : Record ρ}

theorem eq_of_name_eq [h : r.Lawful] {f g : Field ρ} (hf : f ∈ r.fields) (hg : g ∈ r.fields)
    (hn : f.name = g.name) : f = g :=
  List.inj_on_of_nodup_map h.nodup hf hg hn

theorem find?_name [r.Lawful] {f : Field ρ} (hf : f ∈ r.fields) :
    r.fields.find? (·.name == f.name) = some f := by
  cases h : r.fields.find? (·.name == f.name) with
  | none => simpa using List.find?_eq_none.1 h f hf
  | some g =>
    have hn := List.find?_some h
    rw [eq_of_name_eq (List.mem_of_find?_eq_some h) hf (by simpa using hn)]

theorem spares_of_ne [h : r.Lawful] {f g : Field ρ} (hf : f ∈ r.fields) (hg : g ∈ r.fields)
    (hn : f ≠ g) : f.Spares g := by
  have : Std.Symm fun f g : Field ρ => f.Spares g ∧ g.Spares f := ⟨fun _ _ h => h.symm⟩
  exact (h.spares.forall hf hg hn).1

/-- The member holds a field, and is read as it is in `y`. -/
def Yields (r : Record ρ) (y : ρ) (m : String × Json) : Prop :=
  ∃ f ∈ r.fields, f.name = m.1 ∧ f.Yields m.2.toTree y

/-- Members in any order make the fields that they hold what they are in `y`, and no others. -/
theorem readEntries_memberTrees [r.Lawful] {y : ρ} {ms : List (String × Json)}
    (seen : List String) (z : ρ) (hk : (keysOf ms).Nodup) (hs : ∀ k ∈ keysOf ms, k ∉ seen)
    (hm : ∀ m ∈ ms, r.Yields y m) :
    ∃ seen' z', r.readEntries (Json.memberTrees ms) seen z = .ok (seen', z') ∧
      (∀ k, k ∈ seen' ↔ k ∈ keysOf ms ∨ k ∈ seen) ∧
      ∀ f ∈ r.fields, f.write z' = if f.name ∈ keysOf ms then f.write y else f.write z := by
  induction ms generalizing seen z with
  | nil => exact ⟨seen, z, rfl, by simp, by simp⟩
  | cons m ms ih =>
    obtain ⟨k, v⟩ := m
    obtain ⟨f, hf, rfl, hy⟩ := hm _ List.mem_cons_self
    obtain ⟨z₁, hz₁, hw₁⟩ := hy z
    obtain ⟨hk, hks⟩ := List.nodup_cons.1 hk
    have hs' : ∀ k ∈ keysOf ms, k ∉ f.name :: seen := by
      intro k hmem hor
      rcases List.mem_cons.1 hor with rfl | hor
      · exact hk hmem
      · exact hs k (List.mem_cons_of_mem _ hmem) hor
    obtain ⟨seen', z', hz', hseen, hw⟩ := ih (f.name :: seen) z₁ hks hs' fun m h =>
      hm m (List.mem_cons_of_mem _ h)
    refine ⟨seen', z', ?_, ?_, ?_⟩
    · have hnew : seen.contains f.name = false := by
        simpa using hs f.name List.mem_cons_self
      simp only [Json.memberTrees, readEntries, find?_name hf, hnew, Bool.false_eq_true, if_false,
        hz₁]
      exact hz'
    · intro k
      rw [hseen]
      simp only [List.map_cons, List.mem_cons]
      tauto
    · intro g hg
      rw [hw g hg]
      by_cases hfg : g = f
      · subst hfg
        simp [hw₁]
      · have hne : g.name ≠ f.name := fun h => hfg (eq_of_name_eq hg hf h)
        simp only [List.map_cons, List.mem_cons, hne, false_or,
          spares_of_ne hf hg (Ne.symm hfg) _ _ _ hz₁]

/-- What arrives of the fields of a record. -/
def arrivals (r : Record ρ) (p : Passage) (x : ρ) : List (String × Json) :=
  r.fields.filterMap fun f => ((f.write x).bind p.pass).map (f.name, ·)

theorem mem_arrivals {p : Passage} {x : ρ} {k : String} {v : Json} :
    (k, v) ∈ r.arrivals p x ↔
      ∃ f ∈ r.fields, f.name = k ∧ (f.write x).bind p.pass = some v := by
  simp only [arrivals, List.mem_filterMap, Option.map_eq_some_iff, Prod.mk.injEq]
  constructor
  · rintro ⟨f, hf, v', hv', rfl, rfl⟩
    exact ⟨f, hf, rfl, hv'⟩
  · rintro ⟨f, hf, rfl, hv⟩
    exact ⟨f, hf, v, hv, rfl, rfl⟩

theorem nodup_keysOf_members [h : r.Lawful] (x : ρ) : (keysOf (r.members x)).Nodup :=
  h.nodup.sublist (keysOf_filterMap_sublist _ _ _)

theorem nodup_keysOf_arrivals [h : r.Lawful] (p : Passage) (x : ρ) :
    (keysOf (r.arrivals p x)).Nodup :=
  h.nodup.sublist (keysOf_filterMap_sublist _ _ _)

theorem filterMap_members (r : Record ρ) (p : Passage) (x : ρ) :
    ((r.members x).filterMap fun m => (p.pass m.2).map (m.1, ·)) = r.arrivals p x := by
  rw [members, arrivals, List.filterMap_filterMap]
  refine List.filterMap_congr fun f _ => ?_
  cases f.write x <;> rfl

/-- The fields that arrive, in any order, are read as the record that they are delivered as. -/
theorem read_memberTrees [h : r.Lawful] {p : Passage} {x y : ρ} {ms : List (String × Json)}
    (hd : ∀ f ∈ r.fields, f.Delivers p r.blank x y) (hk : (keysOf ms).Nodup)
    (hms : ms.Perm (r.arrivals p x)) : r.read (.table (Json.memberTrees ms)) = .ok y := by
  have hmem : ∀ m, m ∈ ms ↔ m ∈ r.arrivals p x := fun _ => hms.mem_iff
  have hy : ∀ m ∈ ms, r.Yields y m := by
    rintro ⟨k, v⟩ hm
    obtain ⟨f, hf, rfl, hv⟩ := mem_arrivals.1 ((hmem _).1 hm)
    have hfd := hd f hf
    rw [Field.Delivers, hv] at hfd
    exact ⟨f, hf, rfl, hfd⟩
  -- a field that does not arrive need not be there, and is none in `y` either
  have hout : ∀ f ∈ r.fields, f.name ∉ keysOf ms →
      f.required = false ∧ f.write r.blank = f.write y := by
    intro f hf hn
    have hfd := hd f hf
    cases hv : (f.write x).bind p.pass with
    | none => rwa [Field.Delivers, hv] at hfd
    | some v => exact absurd (List.mem_map_of_mem ((hmem _).2 (mem_arrivals.2 ⟨f, hf, rfl, hv⟩))) hn
  obtain ⟨seen, z, hz, hseen, hw⟩ :=
    readEntries_memberTrees [] r.blank hk (by simp) hy
  have hzy : z = y := by
    refine h.ext z y fun f hf => ?_
    rw [hw f hf]
    split
    · rfl
    · next hn => exact (hout f hf hn).2
  have hfind : r.fields.find? (fun f => f.required && !seen.contains f.name) = none := by
    refine List.find?_eq_none.2 fun f hf => ?_
    by_cases hn : f.name ∈ keysOf ms
    · simp [hseen, hn]
    · simp [(hout f hf hn).1]
  subst hzy
  simp only [read, readTable, hz, bind, Except.bind, hfind]

theorem carries [r.Lawful] {p : Passage} {x y : ρ}
    (hd : ∀ f ∈ r.fields, f.Delivers p r.blank x y) : p.Carries r.codec x y := by
  obtain ⟨es, hes, -, hperm⟩ := p.pass_object _ (r.nodup_keysOf_members x)
  rw [filterMap_members] at hperm
  have hk : (keysOf es).Nodup := (hperm.map Prod.fst).nodup_iff.2 (r.nodup_keysOf_arrivals p x)
  exact ⟨_, hes, rfl, read_memberTrees hd hk hperm⟩

/-- The members tell a record apart. -/
theorem write_eq_of_mem_members [r.Lawful] {x y : ρ} (h : r.members x = r.members y) {f : Field ρ}
    (hf : f ∈ r.fields) : f.write x = f.write y := by
  have hm : ∀ z v, (f.name, v) ∈ r.members z ↔ f.write z = some v := by
    intro z v
    simp only [members, List.mem_filterMap, Option.map_eq_some_iff, Prod.mk.injEq]
    constructor
    · rintro ⟨g, hg, w, hw, hn, rfl⟩
      rwa [eq_of_name_eq hf hg hn.symm]
    · exact fun hv => ⟨f, hf, v, hv, rfl, rfl⟩
  ext v
  rw [← hm, ← hm, h]

instance [h : r.Lawful] : r.codec.Injective where
  eq_of_write_eq x y hw := h.ext x y fun _ hf => write_eq_of_mem_members (Json.object.inj hw) hf

end Record

/-! ## Unions -/

theorem Json.mem_memberTrees {k : String} {t : Tree} {ms : List (String × Json)} :
    (some k, t) ∈ memberTrees ms ↔ ∃ v, (k, v) ∈ ms ∧ v.toTree = t := by
  rw [memberTrees_eq, List.mem_map]
  constructor
  · rintro ⟨⟨l, v⟩, hm, he⟩
    cases he
    exact ⟨v, hm, rfl⟩
  · rintro ⟨v, hm, rfl⟩
    exact ⟨(k, v), hm, rfl⟩

namespace Json

mutual

theorem isReadable_toTree : ∀ v : Json, v.toTree.isReadable = true
  | null => rfl
  | bool _ => rfl
  | int _ => rfl
  | float _ => rfl
  | text _ => rfl
  | list vs => areReadable_itemTrees vs
  | object ms => entriesAreReadable_memberTrees ms

theorem areReadable_itemTrees : ∀ vs : List Json, areReadable (itemTrees vs) = true
  | [] => rfl
  | v :: vs => by
    rw [itemTrees, areReadable, isReadable_toTree v, areReadable_itemTrees vs, Bool.true_and]

theorem entriesAreReadable_memberTrees : ∀ ms : List (String × Json),
    entriesAreReadable (memberTrees ms) = true
  | [] => rfl
  | (k, v) :: ms => by
    rw [memberTrees, entriesAreReadable, isReadable_toTree v, entriesAreReadable_memberTrees ms]
    rfl

end

end Json

namespace Union

variable {u : Union ρ}

theorem split_append (es₁ es₂ : List (Option String × Tree))
    (found : Option (Tree → Except Fault ρ)) (rest : List (Option String × Tree)) :
    u.split (es₁ ++ es₂) found rest =
      u.split es₁ found rest >>= fun out => u.split es₂ out.1 out.2.reverse := by
  induction es₁ generalizing found rest with
  | nil => simp [split]
  | cons e es₁ ih =>
    obtain ⟨_ | k, t⟩ := e
    · rfl
    · simp only [List.cons_append, split]
      by_cases hk : k = u.tag
      · cases found with
        | some read => simp [hk, bind, Except.bind]
        | none => cases u.variant? t <;> simp [hk, ih, bind, Except.bind]
      · cases t.isReadable <;> simp [hk, ih, bind, Except.bind]

/-- Entries without the tag are all set aside. -/
theorem split_untagged {es : List (Option String × Tree)} (hr : entriesAreReadable es = true)
    (ht : ∀ t, (some u.tag, t) ∉ es) (found : Option (Tree → Except Fault ρ))
    (rest : List (Option String × Tree)) :
    u.split es found rest = .ok (found, rest.reverse ++ es) := by
  induction es generalizing rest with
  | nil => simp [split]
  | cons e es ih =>
    obtain ⟨k, t⟩ := e
    simp only [entriesAreReadable, Bool.and_eq_true] at hr
    obtain ⟨⟨hk, hread⟩, hrest⟩ := hr
    obtain ⟨k, rfl⟩ := Option.isSome_iff_exists.1 hk
    have hne : k ≠ u.tag := by
      rintro rfl
      exact ht t List.mem_cons_self
    have hlater := ih hrest (fun t' h' => ht t' (List.mem_cons_of_mem _ h')) ((some k, t) :: rest)
    simp [split, hne, hread, hlater]

/-- The tag is taken out of the entries wherever it stands. -/
theorem split_tag {read : Tree → Except Fault ρ} {t : Tree}
    {es es' : List (Option String × Tree)} (hv : u.variant? t = some read)
    (hr : entriesAreReadable es = true) (ht : ∀ t, (some u.tag, t) ∉ es)
    (hr' : entriesAreReadable es' = true) (ht' : ∀ t, (some u.tag, t) ∉ es')
    (rest : List (Option String × Tree)) :
    u.split (es ++ (some u.tag, t) :: es') none rest =
      .ok (some read, rest.reverse ++ (es ++ es')) := by
  rw [split_append, split_untagged hr ht]
  simp [split, hv, split_untagged hr' ht']

/-- A variant is read as the union's member if the members of its own are. -/
theorem carries_variant {p : Passage} {value : String} {read : Tree → Except Fault ρ}
    {ms : List (String × Json)} {y : ρ} (hv : u.variant? (.text value) = some read)
    (hk : (keysOf ms).Nodup) (ht : u.tag ∉ keysOf ms)
    (hread : ∀ es, es.Perm (ms.filterMap fun m => (p.pass m.2).map (m.1, ·)) →
      read (.table (Json.memberTrees es)) = .ok y) :
    ∃ v, p.pass (Union.write u.tag value ms) = some v ∧ v.isNull = false ∧
      u.read v.toTree = .ok y := by
  obtain ⟨es, hes, ha, hperm⟩ := p.pass_object ((u.tag, .text value) :: ms)
    (List.nodup_cons.2 ⟨ht, hk⟩)
  refine ⟨_, hes, rfl, ?_⟩
  simp only [List.filterMap_cons, p.pass_text, Option.map_some] at hperm
  -- the tag stands somewhere among the members that arrive
  obtain ⟨es₁, es₂, rfl⟩ := List.append_of_mem (hperm.mem_iff.2 List.mem_cons_self)
  have hperm' := (List.perm_middle.symm.trans hperm).cons_inv
  have hkeys := ha.nodup
  rw [keysOf, List.map_append, List.map_cons, List.nodup_middle] at hkeys
  obtain ⟨htag, -⟩ := List.nodup_cons.1 hkeys
  have hout : ∀ {ms : List (String × Json)}, u.tag ∉ keysOf ms →
      ∀ t, (some u.tag, t) ∉ Json.memberTrees ms := by
    intro ms hms t ht
    obtain ⟨v, hv, -⟩ := Json.mem_memberTrees.1 ht
    exact hms (List.mem_map_of_mem hv)
  simp only [List.mem_append, not_or] at htag
  have hsplit := split_tag hv (Json.entriesAreReadable_memberTrees es₁) (hout htag.1)
    (Json.entriesAreReadable_memberTrees es₂) (hout htag.2) []
  have htrees : Json.memberTrees (es₁ ++ (u.tag, .text value) :: es₂) =
      Json.memberTrees es₁ ++ (some u.tag, .text value) :: Json.memberTrees es₂ :=
    Json.memberTrees_append es₁ _
  simp only [Json.toTree, Union.read, htrees, hsplit, List.reverse_nil, List.nil_append,
    ← Json.memberTrees_append]
  exact hread _ hperm'

/-- A variant without fields is read as it is. -/
theorem carries_unit {p : Passage} {value : String} {x : ρ}
    (hv : u.variant? (.text value) = some (Union.unit x)) :
    ∃ v, p.pass (Union.write u.tag value []) = some v ∧ v.isNull = false ∧
      u.read v.toTree = .ok x :=
  carries_variant hv List.nodup_nil List.not_mem_nil fun _ _ => rfl

/-- A variant with fields is read as its record is. -/
theorem carries_fields {σ : Type} {r : Record σ} [r.Lawful] {make : σ → ρ} {p : Passage}
    {value : String} {x y : σ} (hv : u.variant? (.text value) = some (Union.fields r make))
    (ht : u.tag ∉ r.fields.map (·.name)) (hd : ∀ f ∈ r.fields, f.Delivers p r.blank x y) :
    ∃ v, p.pass (Union.write u.tag value (r.members x)) = some v ∧ v.isNull = false ∧
      u.read v.toTree = .ok (make y) := by
  refine carries_variant hv (r.nodup_keysOf_members x)
    (fun h => ht ((keysOf_filterMap_sublist _ _ _).subset h)) fun es hes => ?_
  rw [r.filterMap_members] at hes
  have hk : (keysOf es).Nodup := (hes.map Prod.fst).nodup_iff.2 (r.nodup_keysOf_arrivals p x)
  rw [Union.fields, Record.read_memberTrees hd hk hes]
  rfl

end Union

end ForecastJob
