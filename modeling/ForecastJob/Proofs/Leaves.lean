import ForecastJob.Job.Auto
import ForecastJob.Job.Uuid
import ForecastJob.Proofs.Fields
import ForecastJob.Proofs.Numbers
import ForecastJob.Proofs.Outcome

/-!
# What is read has the leaves of what it is read from

A value that is read from a tree is written with scalars that were in the tree, or with ones that
are harmless, such as short numbers. So what holds of all scalars of a tree holds of all scalars
that are written for the value.

* `Tree.Within P` : the predicate holds of every scalar in a tree;
* `Tree.Scalar P` : the predicate holds of harmless scalars, and reading a number keeps it;
* `Codec.Plain P c` : whatever is written with the codec is within the predicate;
* `Codec.Keeps P c` : what is read from a tree within the predicate is written within it;
* `Record.Ensures` : what reading a field ensures for it, reading a record ensures for all fields;
* `Record.keeps` : a record keeps a predicate if its fields do.
-/

namespace ForecastJob

/-! ## Leaves -/

mutual

/-- The scalars in a tree. -/
def Tree.leaves : Tree → List Tree
  | .list items => itemLeaves items
  | .table entries => entryLeaves entries
  | t => [t]

def itemLeaves : List Tree → List Tree
  | [] => []
  | t :: ts => t.leaves ++ itemLeaves ts

def entryLeaves : List (Option String × Tree) → List Tree
  | [] => []
  | (_, t) :: es => t.leaves ++ entryLeaves es

end

/-- The predicate holds of every scalar in the tree. -/
def Tree.Within (P : Tree → Prop) (t : Tree) : Prop :=
  ∀ l ∈ t.leaves, P l

variable {P : Tree → Prop}

theorem Tree.Within.mono {Q : Tree → Prop} {t : Tree} (h : t.Within P)
    (hPQ : ∀ l ∈ t.leaves, P l → Q l) : t.Within Q :=
  fun l hl => hPQ l hl (h l hl)

theorem mem_itemLeaves {l : Tree} {ts : List Tree} :
    l ∈ itemLeaves ts ↔ ∃ t ∈ ts, l ∈ t.leaves := by
  induction ts with
  | nil => simp [itemLeaves]
  | cons t ts ih => simp [itemLeaves, ih]

theorem mem_entryLeaves {l : Tree} {es : List (Option String × Tree)} :
    l ∈ entryLeaves es ↔ ∃ e ∈ es, l ∈ e.2.leaves := by
  induction es with
  | nil => simp [entryLeaves]
  | cons e es ih => simp [entryLeaves, ih]

namespace Tree

@[simp] theorem within_null : null.Within P ↔ P null := by simp [Within, leaves]

@[simp] theorem within_bool {b : Bool} : (bool b).Within P ↔ P (bool b) := by simp [Within, leaves]

@[simp] theorem within_int {i : Int} : (int i).Within P ↔ P (int i) := by simp [Within, leaves]

@[simp] theorem within_float {x : Float} : (float x).Within P ↔ P (float x) := by
  simp [Within, leaves]

@[simp] theorem within_text {s : String} : (text s).Within P ↔ P (text s) := by
  simp [Within, leaves]

@[simp] theorem within_list {ts : List Tree} : (list ts).Within P ↔ ∀ t ∈ ts, t.Within P := by
  simp only [Within, leaves, mem_itemLeaves]
  exact ⟨fun h t ht l hl => h l ⟨t, ht, hl⟩, fun h l ⟨t, ht, hl⟩ => h t ht l hl⟩

@[simp] theorem within_table {es : List (Option String × Tree)} :
    (table es).Within P ↔ ∀ e ∈ es, e.2.Within P := by
  simp only [Within, leaves, mem_entryLeaves]
  exact ⟨fun h e he l hl => h l ⟨e, he, hl⟩, fun h l ⟨e, he, hl⟩ => h e he l hl⟩

end Tree

/-- The predicate holds of every scalar in the value. -/
def Json.Within (P : Tree → Prop) (v : Json) : Prop :=
  v.toTree.Within P

/-- The predicate holds of harmless scalars, and of a number in all forms in which it is read. -/
class Tree.Scalar (P : Tree → Prop) : Prop where
  bool : ∀ b, P (.bool b)
  text : ∀ s, P (.text s)
  int : ∀ i : Int, i.natAbs < 2 ^ 32 → P (.int i)
  ofInt : ∀ i : Int, P (.int i) → P (.float (Float.ofInt i))
  ofFloat : ∀ x, P (.float x) → (Json.ofFloat x).Within P

namespace Json

@[simp] theorem within_text [Tree.Scalar P] {s : String} : (text s).Within P :=
  Tree.within_text.2 (Tree.Scalar.text s)

@[simp] theorem within_list {vs : List Json} : (list vs).Within P ↔ ∀ v ∈ vs, v.Within P := by
  simp only [Within, toTree, Tree.within_list, itemTrees_eq, List.forall_mem_map]

@[simp] theorem within_object {ms : List (String × Json)} :
    (object ms).Within P ↔ ∀ m ∈ ms, m.2.Within P := by
  simp only [Within, toTree, Tree.within_table, memberTrees_eq, List.forall_mem_map]

end Json

/-! ## Codecs -/

variable {α ρ : Type}

/-- Whatever is written is within the predicate. -/
class Codec.Plain (P : Tree → Prop) (c : Codec α) : Prop where
  within : ∀ x, (c.write x).Within P

/-- What is read from a tree within the predicate is written within it. -/
class Codec.Keeps (P : Tree → Prop) (c : Codec α) : Prop where
  within : ∀ {t x}, t.Within P → c.read t = .ok x → (c.write x).Within P

namespace Codec

@[simp] theorem within_write (c : Codec α) [c.Plain P] (x : α) : (c.write x).Within P :=
  Plain.within x

instance {c : Codec α} [c.Plain P] : c.Keeps P where
  within _ _ := c.within_write _

theorem read_of_nullable_read {c : Codec α} {t : Tree} {a : α}
    (h : c.nullable.read t = .ok (some a)) : c.read t = .ok a := by
  cases t with
  | null => cases h
  | _ =>
    obtain ⟨b, hb, heq⟩ := Except.map_eq_ok.1 h
    cases heq
    exact hb

/-! ### Scalars -/

@[simp] theorem within_float_write {x : Float} : (float.write x).Within P ↔ P (.float x) :=
  Tree.within_float

@[simp] theorem within_uint64_write {n : UInt64} : (uint64.write n).Within P ↔ P (.int n.toNat) :=
  Tree.within_int

@[simp] theorem within_freeForm_write {v : FreeForm} :
    (freeForm.write v).Within P ↔ v.json.Within P := Iff.rfl

section Scalars

variable [Tree.Scalar P]

instance : text.Plain P where
  within _ := Json.within_text

instance : bool.Plain P where
  within b := Tree.within_bool.2 (Tree.Scalar.bool b)

instance [Choice α] : (choice : Codec α).Plain P where
  within _ := Json.within_text

instance : uint32.Plain P where
  within n := by
    have h := n.toNat_lt
    exact Tree.within_int.2 (Tree.Scalar.int _ (by simpa using h))

instance : int32.Plain P where
  within n := by
    have h := n.minValue_le_toInt
    have h' := n.toInt_le
    refine Tree.within_int.2 (Tree.Scalar.int _ ?_)
    simp only [Int32.toInt_minValue, Int32.toInt_maxValue] at h h'
    omega

instance : float.Keeps P where
  within {t x} h hx := by
    cases t with
    | float y => cases hx; exact h
    | int i => cases hx; exact Tree.within_float.2 (Tree.Scalar.ofInt i (Tree.within_int.1 h))
    | _ => cases hx

instance : uint64.Keeps P where
  within {t x} h hx := by
    cases t with
    | int i =>
      simp only [uint64] at hx
      split at hx
      · next hi =>
        cases hx
        simp only [UInt64.size, Bool.and_eq_true, decide_eq_true_eq] at hi
        have hn : ((UInt64.ofNat i.toNat).toNat : Int) = i := by
          rw [UInt64.toNat_ofNat_of_lt' (by simp only [UInt64.size]; omega)]
          omega
        simpa only [uint64, Json.Within, Json.toTree, hn] using h
      · cases hx
    | _ => cases hx

end Scalars

/-! ### Collections -/

@[simp] theorem within_listOf_write {c : Codec α} {xs : List α} :
    (c.listOf.write xs).Within P ↔ ∀ x ∈ xs, (c.write x).Within P := by
  simp only [listOf, Json.within_list, List.forall_mem_map]

instance {c : Codec α} [c.Plain P] : c.listOf.Plain P where
  within _ := within_listOf_write.2 fun x _ => c.within_write x

@[simp] theorem within_dictOf_write {c : Codec α} {d : Dict α} :
    (c.dictOf.write d).Within P ↔ ∀ e ∈ d.entries, (c.write e.2).Within P := by
  simp only [dictOf, Json.within_object, List.forall_mem_map]

instance {c : Codec α} [c.Plain P] : c.dictOf.Plain P where
  within _ := within_dictOf_write.2 fun e _ => c.within_write e.2

/-- Each item of a list that was read comes from a tree of its own. -/
theorem exists_tree_of_mapM {c : Codec α} {ts : List Tree} {xs : List α}
    (h : ts.mapM c.read = .ok xs) : ∀ x ∈ xs, ∃ t ∈ ts, c.read t = .ok x := by
  induction ts generalizing xs with
  | nil =>
    cases h
    exact List.forall_mem_nil _
  | cons t ts ih =>
    rw [List.mapM_cons] at h
    obtain ⟨x, hx, h⟩ := Except.bind_eq_ok.1 h
    obtain ⟨xs, hxs, h⟩ := Except.bind_eq_ok.1 h
    cases h
    refine List.forall_mem_cons.2 ⟨⟨t, List.mem_cons_self, hx⟩, fun y hy => ?_⟩
    obtain ⟨u, hu, hread⟩ := ih hxs y hy
    exact ⟨u, List.mem_cons_of_mem _ hu, hread⟩

instance {c : Codec α} [c.Keeps P] : c.listOf.Keeps P where
  within {t xs} h hx := by
    cases t with
    | list ts =>
      refine within_listOf_write.2 fun x hmem => ?_
      obtain ⟨u, hu, hread⟩ := exists_tree_of_mapM hx x hmem
      exact Keeps.within (Tree.within_list.1 h u hu) hread
    | _ => cases hx

/-- Each value of a dictionary that was read was there before or comes from an entry. -/
theorem exists_tree_of_readEntries {c : Codec α} {es : List (Option String × Tree)} {d d' : Dict α}
    (h : c.readEntries es d = .ok d') :
    ∀ e ∈ d'.entries, e ∈ d.entries ∨ ∃ f ∈ es, c.read f.2 = .ok e.2 := by
  induction es generalizing d with
  | nil =>
    cases h
    exact fun e he => .inl he
  | cons f es ih =>
    obtain ⟨_ | k, t⟩ := f
    · cases h
    · obtain ⟨x, hx, h⟩ := Except.bind_eq_ok.1 h
      intro e he
      rcases ih h e he with he | ⟨g, hg, hread⟩
      · rcases mem_insertEntry he with rfl | he
        · exact .inr ⟨_, List.mem_cons_self, hx⟩
        · exact .inl he
      · exact .inr ⟨g, List.mem_cons_of_mem _ hg, hread⟩

instance {c : Codec α} [c.Keeps P] : c.dictOf.Keeps P where
  within {t d} h hx := by
    cases t with
    | table es =>
      refine within_dictOf_write.2 fun e he => ?_
      rcases exists_tree_of_readEntries hx e he with he | ⟨f, hf, hread⟩
      · exact absurd he List.not_mem_nil
      · exact Keeps.within (Tree.within_table.1 h f hf) hread
    | _ => cases hx

instance [Tree.Scalar P] : oneOrMany.Plain P where
  within xs := (listOf text).within_write xs

end Codec

instance [Tree.Scalar P] : Uuid.codec.Plain P where
  within _ := Json.within_text

instance [Tree.Scalar P] : AutoOr.codec.Plain P where
  within
    | .auto => Json.within_text
    | .value n => Codec.uint32.within_write n

instance [Tree.Scalar P] : TargetLags.codec.Plain P where
  within
    | .auto => Json.within_text
    | .values lags => (Codec.listOf Codec.int32).within_write lags

/-! ### Free-form data -/

theorem Json.within_insertEntry {k : String} {v : Json} {ms : List (String × Json)}
    (hv : v.Within P) (h : ∀ m ∈ ms, m.2.Within P) : ∀ m ∈ insertEntry k v ms, m.2.Within P := by
  intro m hm
  rcases mem_insertEntry hm with rfl | hm
  · exact hv
  · exact h m hm

mutual

theorem Tree.within_toJson? [Tree.Scalar P] : ∀ {t : Tree} {v : Json}, t.Within P →
    t.toJson? = some v → v.Within P
  | .null, _, h, hv => by cases hv; exact h
  | .bool _, _, h, hv => by cases hv; exact h
  | .int i, _, h, hv => by
    simp only [Tree.toJson?] at hv
    split at hv
    · cases hv; exact h
    · cases hv
  | .float x, _, h, hv => by
    cases hv
    exact Tree.Scalar.ofFloat x (Tree.within_float.1 h)
  | .text _, _, h, hv => by cases hv; exact h
  | .list ts, _, h, hv => by
    obtain ⟨vs, hvs, rfl⟩ := Option.map_eq_some_iff.1 (by simpa [Tree.toJson?] using hv)
    exact Json.within_list.2 (within_itemsToJson? (Tree.within_list.1 h) hvs)
  | .table es, _, h, hv => by
    obtain ⟨ms, hms, rfl⟩ := Option.map_eq_some_iff.1 (by simpa [Tree.toJson?] using hv)
    exact Json.within_object.2
      (within_entriesToJson? (Tree.within_table.1 h) (fun _ hm => absurd hm List.not_mem_nil) hms)
  | .unreadable, _, _, hv => nomatch hv
  | .broken, _, _, hv => nomatch hv

theorem within_itemsToJson? [Tree.Scalar P] : ∀ {ts : List Tree} {vs : List Json},
    (∀ t ∈ ts, t.Within P) → itemsToJson? ts = some vs → ∀ v ∈ vs, v.Within P
  | [], _, _, hv => by cases hv; exact fun _ h => absurd h List.not_mem_nil
  | t :: ts, _, h, hv => by
    simp only [itemsToJson?, Option.bind_eq_bind, Option.bind_eq_some_iff] at hv
    obtain ⟨v, hv, vs, hvs, heq⟩ := hv
    cases heq
    exact List.forall_mem_cons.2 ⟨Tree.within_toJson? (h t List.mem_cons_self) hv,
      within_itemsToJson? (fun t ht => h t (List.mem_cons_of_mem _ ht)) hvs⟩

theorem within_entriesToJson? [Tree.Scalar P] : ∀ {es : List (Option String × Tree)}
    {members ms : List (String × Json)}, (∀ e ∈ es, e.2.Within P) →
    (∀ m ∈ members, m.2.Within P) → entriesToJson? es members = some ms → ∀ m ∈ ms, m.2.Within P
  | [], _, _, _, hm, h => by cases h; exact hm
  | (none, _) :: _, _, _, _, _, h => nomatch h
  | (some k, t) :: es, _, _, he, hm, h => by
    simp only [entriesToJson?, Option.bind_eq_bind, Option.bind_eq_some_iff] at h
    obtain ⟨v, hv, h⟩ := h
    have hv := Tree.within_toJson? (he _ List.mem_cons_self) hv
    exact within_entriesToJson? (fun e h => he e (List.mem_cons_of_mem _ h))
      (Json.within_insertEntry hv hm) h

end

instance [Tree.Scalar P] : Codec.freeForm.Keeps P where
  within {t v} h hv := by
    have hv : FreeForm.read t = .ok v := hv
    unfold FreeForm.read at hv
    split at hv
    · next w hw =>
      cases hv
      exact Tree.within_toJson? h hw
    · cases hv

/-! ## Records -/

namespace Field

/-- What is written of the field is within the predicate. -/
def Within (P : Tree → Prop) (f : Field ρ) (x : ρ) : Prop :=
  ∀ v ∈ f.write x, v.Within P

/-- Reading the field from a tree within the predicate makes it one that is written within it. -/
def Keeps (P : Tree → Prop) (f : Field ρ) : Prop :=
  ∀ t z z', t.Within P → f.read t z = .ok z' → f.Within P z'

section Kinds

variable {x : ρ} {name : String} {c : Codec α}

section Values

variable {get : ρ → α} {set : α → ρ → ρ}

@[simp] theorem within_mandatory :
    (mandatory name c get set).Within P x ↔ (c.write (get x)).Within P := by
  simp [Within, mandatory]

@[simp] theorem within_defaulted :
    (defaulted name c get set).Within P x ↔ (c.write (get x)).Within P := by
  simp [Within, defaulted]

end Values

section Options

variable {get : ρ → Option α} {set : Option α → ρ → ρ}

@[simp] theorem within_optional :
    (optional name c get set).Within P x ↔ ∀ a ∈ get x, (c.write a).Within P := by
  simp [Within, optional]

@[simp] theorem within_given :
    (given name c get set).Within P x ↔ ∀ a ∈ get x, (c.write a).Within P := by
  simp [Within, given]

end Options

section Dicts

variable {get : ρ → Dict α} {set : Dict α → ρ → ρ}

@[simp] theorem within_dict :
    (dict name c get set).Within P x ↔ ∀ e ∈ (get x).entries, (c.write e.2).Within P := by
  simp only [Within, dict]
  split
  · next h => simp [Dict.isEmpty_iff.1 h, Dict.empty]
  · simp [Codec.within_dictOf_write]

end Dicts

/-- A field that only sets what it reads keeps what that is within. -/
theorem keeps_of_read {f : Field ρ} {σ : Type} {s : σ → ρ → ρ} {read : Tree → Except Fault σ}
    (hf : ∀ t z, f.read t z = (read t).map (s · z))
    (hw : ∀ t v z, t.Within P → read t = .ok v → f.Within P (s v z)) : f.Keeps P := by
  intro t z z' ht h
  rw [hf] at h
  obtain ⟨v, hv, rfl⟩ := Except.map_eq_ok.1 h
  exact hw t v z ht hv

section Values

variable {get : ρ → α} {set : α → ρ → ρ}

@[simp] theorem keeps_defaulted [c.Keeps P] (hs : ∀ v z, get (set v z) = v) :
    (defaulted name c get set).Keeps P :=
  keeps_of_read (fun _ _ => rfl) fun _ v z ht hv => by
    simpa only [within_defaulted, hs] using Codec.Keeps.within ht hv

end Values

section Options

variable {get : ρ → Option α} {set : Option α → ρ → ρ}

@[simp] theorem keeps_optional [c.Keeps P] (hs : ∀ v z, get (set v z) = v) :
    (optional name c get set).Keeps P :=
  keeps_of_read (fun _ _ => rfl) fun t o z ht ho => by
    simp only [within_optional, hs]
    intro a ha
    cases ha
    exact Codec.Keeps.within ht (Codec.read_of_nullable_read ho)

end Options

@[simp] theorem keeps_dict [c.Keeps P] {get : ρ → Dict α} {set : Dict α → ρ → ρ}
    (hs : ∀ v z, get (set v z) = v) : (dict name c get set).Keeps P :=
  keeps_of_read (fun _ _ => rfl) fun t d z ht hd => by
    simp only [within_dict, hs]
    exact Codec.within_dictOf_write.1 (Codec.Keeps.within ht hd)

end Kinds

end Field

namespace Record

variable {r : Record ρ}

theorem within_write {x : ρ} : (r.write x).Within P ↔ ∀ f ∈ r.fields, f.Within P x := by
  simp only [write, members, Json.within_object, List.mem_filterMap, Option.map_eq_some_iff]
  constructor
  · exact fun h f hf v hv => h (f.name, v) ⟨f, hf, v, hv, rfl⟩
  · rintro h _ ⟨f, hf, v, hv, rfl⟩
    exact h f hf v hv

/-- The fields of the blank record have a property, and reading a field makes it have the property. It
depends only on what is written of a field. -/
structure Ensures (r : Record ρ) (P : Tree → Prop) (Q : Field ρ → ρ → Prop) : Prop where
  congr : ∀ {f x y}, f.write x = f.write y → Q f y → Q f x
  blank : ∀ f ∈ r.fields, Q f r.blank
  read : ∀ f ∈ r.fields, ∀ t z z', t.Within P → f.read t z = .ok z' → Q f z'

namespace Ensures

variable {Q : Field ρ → ρ → Prop}

/-- A field that is read spares the others, so that they keep the property. -/
theorem of_read_field [r.Lawful] (h : r.Ensures P Q) {f : Field ρ} (hf : f ∈ r.fields) {t : Tree}
    {z z' : ρ} (ht : t.Within P) (hz : ∀ g ∈ r.fields, Q g z) (hread : f.read t z = .ok z') :
    ∀ g ∈ r.fields, Q g z' := by
  intro g hg
  by_cases hgf : g = f
  · subst hgf
    exact h.read g hg t z z' ht hread
  · exact h.congr (spares_of_ne hf hg (Ne.symm hgf) t z z' hread) (hz g hg)

theorem of_readEntries [r.Lawful] (h : r.Ensures P Q) {es : List (Option String × Tree)}
    {seen seen' : List String} {z z' : ρ} (hes : ∀ e ∈ es, e.2.Within P)
    (hz : ∀ f ∈ r.fields, Q f z) (hread : r.readEntries es seen z = .ok (seen', z')) :
    ∀ f ∈ r.fields, Q f z' := by
  induction es generalizing seen z with
  | nil =>
    cases hread
    exact hz
  | cons e es ih =>
    obtain ⟨_ | k, t⟩ := e
    · cases hread
    have ht : t.Within P := hes _ List.mem_cons_self
    have hes := fun e he => hes e (List.mem_cons_of_mem _ he)
    simp only [readEntries] at hread
    split at hread
    · next f hfind =>
      split at hread
      · cases hread
      · obtain ⟨z₁, hz₁, hread⟩ := Except.bind_eq_ok.1 hread
        have hf := List.mem_of_find?_eq_some hfind
        exact ih hes (h.of_read_field hf ht hz hz₁) hread
    · split at hread
      · cases hread
      · split at hread
        · exact ih hes hz hread
        · cases hread

theorem of_readItems [r.Lawful] (h : r.Ensures P Q) {fs : List (Field ρ)} {ts : List Tree}
    {z z' : ρ} (hfs : ∀ f ∈ fs, f ∈ r.fields) (hts : ∀ t ∈ ts, t.Within P)
    (hz : ∀ f ∈ r.fields, Q f z) (hread : readItems fs ts z = .ok z') :
    ∀ f ∈ r.fields, Q f z' := by
  induction fs generalizing ts z with
  | nil =>
    cases ts with
    | nil =>
      cases hread
      exact hz
    | cons t ts => cases hread
  | cons f fs ih =>
    obtain ⟨hf, hfs⟩ := List.forall_mem_cons.1 hfs
    cases ts with
    | nil =>
      simp only [readItems] at hread
      split at hread
      · cases hread
      · exact ih hfs hts hz hread
    | cons t ts =>
      obtain ⟨ht, hts⟩ := List.forall_mem_cons.1 hts
      obtain ⟨z₁, hz₁, hread⟩ := Except.bind_eq_ok.1 hread
      exact ih hfs hts (h.of_read_field hf ht hz hz₁) hread

/-- All fields of a record that was read have the property, be it read from a table or from a
list. -/
theorem of_read [r.Lawful] (h : r.Ensures P Q) {t : Tree} {x : ρ} (ht : t.Within P)
    (hread : r.read t = .ok x) : ∀ f ∈ r.fields, Q f x := by
  cases t with
  | table es =>
    obtain ⟨⟨seen, z⟩, hz, hrest⟩ := Except.bind_eq_ok.1 hread
    dsimp only at hrest
    split at hrest
    · cases hrest
    · cases hrest
      exact h.of_readEntries (Tree.within_table.1 ht) h.blank hz
  | list ts => exact h.of_readItems (fun _ hf => hf) (Tree.within_list.1 ht) h.blank hread
  | _ => cases hread

end Ensures

/-- A record keeps a predicate if its fields do. -/
theorem keeps [r.Lawful] (hb : ∀ f ∈ r.fields, f.Within P r.blank)
    (hk : ∀ f ∈ r.fields, f.Keeps P) : r.codec.Keeps P where
  within {t x} ht hx := by
    have hensures : r.Ensures P (Field.Within P) :=
      ⟨fun hw hy v hv => hy v (hw ▸ hv), hb, hk⟩
    exact within_write.2 (hensures.of_read ht hx)

end Record

end ForecastJob
