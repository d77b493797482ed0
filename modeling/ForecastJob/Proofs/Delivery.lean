import ForecastJob.Proofs.Passage
import ForecastJob.Record

/-!
# What a reader makes of what was written

* `Passage.Carries p c x y` : the value `x`, written with the codec `c`, is read as `y`;
* `Codec.Exact c` : every value is read as it was written, whichever way it takes;
* `Passage.carries_listOf_filterMap`, `Passage.carries_dictOf_filterMap` : the way of a list or a
  dictionary from the ways of what it holds;
* `Passage.CarriesOption` : the same as `Carries` for a value that may not be there.
-/

namespace ForecastJob

variable {α : Type}

/-! ## Codecs -/

/-- The value, written with the codec, arrives and is read as another one. -/
def Passage.Carries (p : Passage) (c : Codec α) (x y : α) : Prop :=
  ∃ v, p.pass (c.write x) = some v ∧ v.isNull = false ∧ c.read v.toTree = .ok y

/-- What was written is read back, whichever way it takes. -/
class Codec.Exact (c : Codec α) : Prop where
  carries : ∀ (p : Passage) (x : α), p.Carries c x x

/-- Different values are written differently. -/
class Codec.Injective (c : Codec α) : Prop where
  eq_of_write_eq : ∀ x y, c.write x = c.write y → x = y

namespace Codec

@[simp] theorem carries_self (c : Codec α) [c.Exact] (p : Passage) (x : α) : p.Carries c x x :=
  Exact.carries p x

theorem write_inj (c : Codec α) [c.Injective] {x y : α} : c.write x = c.write y ↔ x = y :=
  ⟨Injective.eq_of_write_eq x y, congrArg _⟩

@[simp] theorem map_write_inj (c : Codec α) [c.Injective] {o o' : Option α} :
    o.map c.write = o'.map c.write ↔ o = o' :=
  (Option.map_injective fun _ _ h => c.write_inj.1 h).eq_iff

instance {c : Codec α} [c.Exact] : c.Injective where
  eq_of_write_eq x y h := by
    obtain ⟨v, hv, -, hx⟩ := c.carries_self .payload x
    obtain ⟨w, hw, -, hy⟩ := c.carries_self .payload y
    rw [h, hw] at hv
    obtain rfl := Option.some.inj hv
    exact Except.ok.inj (hx.symm.trans hy)

theorem write_ne_null (c : Codec α) [c.Exact] (x : α) : c.write x ≠ .null := by
  obtain ⟨v, hv, hn, -⟩ := c.carries_self .payload x
  intro h
  rw [h] at hv
  obtain rfl := Option.some.inj hv
  cases hn

end Codec

/-! ## Scalars -/

instance : Codec.text.Exact where
  carries p s := ⟨_, p.pass_text s, rfl, rfl⟩

instance : Codec.bool.Exact where
  carries p b := ⟨_, p.pass_bool b, rfl, rfl⟩

instance : Codec.uint32.Exact where
  carries p n := by
    refine ⟨_, p.pass_int _, rfl, ?_⟩
    have h := n.toNat_lt
    simp only [Codec.uint32, Json.toTree, UInt32.size]
    rw [if_pos (by simp; omega)]
    simp

instance : Codec.uint64.Exact where
  carries p n := by
    refine ⟨_, p.pass_int _, rfl, ?_⟩
    have h := n.toNat_lt
    simp only [Codec.uint64, Json.toTree, UInt64.size]
    rw [if_pos (by simp; omega)]
    simp

instance : Codec.int32.Exact where
  carries p n := by
    refine ⟨_, p.pass_int _, rfl, ?_⟩
    have h := n.minValue_le_toInt
    have h' := n.toInt_le
    simp only [Codec.int32, Json.toTree]
    rw [if_pos (by simpa using ⟨h, h'⟩)]
    simp

instance : Codec.int64.Exact where
  carries p n := by
    refine ⟨_, p.pass_int _, rfl, ?_⟩
    have h := n.minValue_le_toInt
    have h' := n.toInt_le
    simp only [Codec.int64, Json.toTree]
    rw [if_pos (by simpa using ⟨h, h'⟩)]
    simp

instance : Codec.float.Injective where
  eq_of_write_eq _ _ h := Json.float.inj h

instance : Codec.freeForm.Injective where
  eq_of_write_eq
    | ⟨_, _⟩, ⟨_, _⟩, rfl => rfl

/-! ## Lists and dictionaries -/

theorem Json.itemTrees_eq (vs : List Json) : itemTrees vs = vs.map toTree := by
  induction vs with
  | nil => rfl
  | cons v vs ih => rw [itemTrees, ih, List.map_cons]

theorem Json.memberTrees_eq (ms : List (String × Json)) :
    memberTrees ms = ms.map fun m => (some m.1, m.2.toTree) := by
  induction ms with
  | nil => rfl
  | cons m ms ih => rw [memberTrees, ih, List.map_cons]

theorem Json.memberTrees_append (ms₁ ms₂ : List (String × Json)) :
    memberTrees (ms₁ ++ ms₂) = memberTrees ms₁ ++ memberTrees ms₂ := by
  simp only [memberTrees_eq, List.map_append]

namespace Passage

variable {p : Passage} {c : Codec α}

/-- What the reader makes of a value, unless it vanishes on its way. -/
def deliver (p : Passage) (c : Codec α) (x : α) : Option (Except Fault α) :=
  (p.pass (c.write x)).map fun v => c.read v.toTree

theorem Carries.deliver_eq {x y : α} (h : p.Carries c x y) : p.deliver c x = some (.ok y) := by
  obtain ⟨v, hv, -, hy⟩ := h
  rw [deliver, hv, Option.map_some, hy]

theorem mapM_deliver {g : α → Option α} {xs : List α}
    (h : ∀ x ∈ xs, p.deliver c x = (g x).map .ok) :
    (Json.itemTrees ((xs.map c.write).filterMap p.pass)).mapM c.read = .ok (xs.filterMap g) := by
  induction xs with
  | nil => rfl
  | cons x xs ih =>
    have ih := ih fun x hx => h x (List.mem_cons_of_mem _ hx)
    have hx := h x List.mem_cons_self
    rw [deliver] at hx
    rw [List.map_cons, List.filterMap_cons, List.filterMap_cons]
    cases hv : p.pass (c.write x) with
    | none =>
      cases hg : g x with
      | none => exact ih
      | some y => simp [hv, hg] at hx
    | some v =>
      cases hg : g x with
      | none => simp [hv, hg] at hx
      | some y =>
        rw [hv, hg, Option.map_some, Option.map_some, Option.some.injEq] at hx
        simp only [Json.itemTrees, List.mapM_cons, hx, ih]
        rfl

theorem carries_listOf_filterMap {g : α → Option α} {xs : List α}
    (h : ∀ x ∈ xs, p.deliver c x = (g x).map .ok) : p.Carries c.listOf xs (xs.filterMap g) :=
  ⟨_, p.pass_list _, rfl, mapM_deliver h⟩

/-- Entries in key order are read into a dictionary one behind the other. -/
theorem readEntries_deliver {g : α → Option α} {es : List (String × α)} {d : Dict α}
    (h : ∀ e ∈ es, p.deliver c e.2 = (g e.2).map .ok)
    (ha : (keysOf d.entries ++ keysOf es).Pairwise (· < ·)) :
    ∃ d', c.readEntries (Json.memberTrees
        (es.filterMap fun e => (p.pass (c.write e.2)).map (e.1, ·))) d = .ok d' ∧
      d'.entries = d.entries ++ es.filterMap fun e => (g e.2).map (e.1, ·) := by
  induction es generalizing d with
  | nil => exact ⟨d, rfl, by simp⟩
  | cons e es ih =>
    obtain ⟨k, x⟩ := e
    have hes := fun e he => h e (List.mem_cons_of_mem _ he)
    have hx := h _ List.mem_cons_self
    rw [deliver] at hx
    rw [List.filterMap_cons, List.filterMap_cons]
    cases hv : p.pass (c.write x) with
    | none =>
      cases hg : g x with
      | none =>
        have ha' : (keysOf d.entries ++ keysOf es).Pairwise (· < ·) :=
          ha.sublist ((List.sublist_cons_self _ _).append_left _)
        simpa using ih hes ha'
      | some y => simp [hv, hg] at hx
    | some v =>
      cases hg : g x with
      | none => simp [hv, hg] at hx
      | some y =>
        simp only [hv, hg, Option.map_some, Option.some.injEq] at hx
        obtain ⟨hlast, ha'⟩ := Dict.entries_insert_next y ha
        obtain ⟨d', hd', he⟩ := ih hes ha'
        refine ⟨d', ?_, ?_⟩
        · simp only [Option.map_some, Json.memberTrees, Codec.readEntries, hx]
          exact hd'
        · rw [he, hlast]
          simp

theorem carries_dictOf_filterMap {g : α → Option α} {d : Dict α}
    (h : ∀ e ∈ d.entries, p.deliver c e.2 = (g e.2).map .ok) :
    p.Carries c.dictOf d (d.filterMap g) := by
  have hkeys : keysOf (d.entries.map fun e => (e.1, c.write e.2)) = keysOf d.entries := by simp
  obtain ⟨es, hes, ha, hperm⟩ := p.pass_object _ (hkeys ▸ d.ascending.nodup)
  rw [List.filterMap_map] at hperm
  obtain rfl := ha.eq_of_perm d.ascending.filterMap hperm
  obtain ⟨d', hd', he⟩ := readEntries_deliver (d := .empty) h d.ascending.keys
  refine ⟨_, hes, rfl, ?_⟩
  rw [← Dict.ext (e := d.filterMap g) he]
  exact hd'

theorem carries_listOf_map {g : α → α} {xs : List α} (h : ∀ x ∈ xs, p.Carries c x (g x)) :
    p.Carries c.listOf xs (xs.map g) := by
  rw [← List.filterMap_eq_map]
  exact carries_listOf_filterMap fun x hx => (h x hx).deliver_eq

theorem carries_dictOf_map {g : α → α} {d : Dict α}
    (h : ∀ e ∈ d.entries, p.Carries c e.2 (g e.2)) : p.Carries c.dictOf d (d.map g) := by
  rw [← Dict.filterMap_some_comp]
  exact carries_dictOf_filterMap fun e he => (h e he).deliver_eq

theorem Carries.listOf_self {xs : List α} (h : ∀ x ∈ xs, p.Carries c x x) :
    p.Carries c.listOf xs xs := by
  simpa using carries_listOf_map (g := id) h

theorem Carries.dictOf_of_deliver {d : Dict α}
    (h : ∀ e ∈ d.entries, p.deliver c e.2 = some (.ok e.2)) : p.Carries c.dictOf d d := by
  have hd := carries_dictOf_filterMap (g := some) h
  rwa [Dict.filterMap_some] at hd

theorem Carries.dictOf_self {d : Dict α} (h : ∀ e ∈ d.entries, p.Carries c e.2 e.2) :
    p.Carries c.dictOf d d :=
  .dictOf_of_deliver fun e he => (h e he).deliver_eq

theorem eq_empty_of_carries_empty {d : Dict α} (h : p.Carries c.dictOf .empty d) : d = .empty := by
  obtain ⟨v, hv, -, hd⟩ := h
  have he : p.Carries c.dictOf .empty (Dict.empty.filterMap some) :=
    carries_dictOf_filterMap fun _ he => absurd he List.not_mem_nil
  obtain ⟨w, hw, -, he⟩ := he
  rw [hv] at hw
  obtain rfl := Option.some.inj hw
  exact Except.ok.inj (hd.symm.trans he)

end Passage

namespace Codec

variable {c : Codec α}

instance [c.Exact] : c.listOf.Exact where
  carries p _ := .listOf_self fun x _ => c.carries_self p x

instance [c.Exact] : c.dictOf.Exact where
  carries p _ := .dictOf_self fun e _ => c.carries_self p e.2

instance [c.Injective] : c.listOf.Injective where
  eq_of_write_eq _ _ h :=
    List.map_injective_iff.2 (fun _ _ => c.write_inj.1) (Json.list.inj h)

instance [c.Injective] : c.dictOf.Injective where
  eq_of_write_eq _ _ h := by
    refine Dict.ext (List.map_injective_iff.2 ?_ (Json.object.inj h))
    rintro ⟨k, x⟩ ⟨l, y⟩ he
    obtain ⟨hk, hxy⟩ := Prod.mk.inj he
    exact Prod.ext hk (c.write_inj.1 hxy)

instance [c.Exact] : c.nullable.Injective where
  eq_of_write_eq
    | none, none, _ => rfl
    | none, some y, h => absurd h.symm (c.write_ne_null y)
    | some x, none, h => absurd h (c.write_ne_null x)
    | some _, some _, h => congrArg some (c.write_inj.1 h)

theorem nullable_read_toTree {v : Json} (h : v.isNull = false) :
    c.nullable.read v.toTree = (c.read v.toTree).map some := by
  cases v <;> first | rfl | cases h

end Codec

/-! ## Free-form data -/

namespace Json

mutual

/-- What is in normal form is read as free-form data just as it is. -/
theorem toJson?_toTree : ∀ {v : Json}, v.isNormal = true → v.toTree.toJson? = some v
  | null, _ => rfl
  | bool _, _ => rfl
  | int _, h => if_pos h
  | float _, h => congrArg some (if_pos h)
  | text _, _ => rfl
  | list vs, h => by
    simp only [isNormal] at h
    rw [toTree, Tree.toJson?, itemsToJson?_itemTrees h, Option.map_some]
  | object ms, h => by
    simp only [isNormal, Bool.and_eq_true, decide_eq_true_eq] at h
    rw [toTree, Tree.toJson?, entriesToJson?_memberTrees [] h.1.keys h.2, Option.map_some,
      List.nil_append]

theorem itemsToJson?_itemTrees : ∀ {vs : List Json}, areNormal vs = true →
    itemsToJson? (itemTrees vs) = some vs
  | [], _ => rfl
  | v :: vs, h => by
    simp only [areNormal, Bool.and_eq_true] at h
    simp only [itemTrees, itemsToJson?, toJson?_toTree h.1, itemsToJson?_itemTrees h.2]
    rfl

theorem entriesToJson?_memberTrees : ∀ {ms : List (String × Json)} (members : List (String × Json)),
    (keysOf members ++ keysOf ms).Pairwise (· < ·) → membersAreNormal ms = true →
    entriesToJson? (memberTrees ms) members = some (members ++ ms)
  | [], members, _, _ => by simp [memberTrees, entriesToJson?]
  | (k, v) :: ms, members, ha, h => by
    simp only [membersAreNormal, Bool.and_eq_true] at h
    have ha' : (keysOf (members ++ [(k, v)]) ++ keysOf ms).Pairwise (· < ·) := by simpa using ha
    simp only [memberTrees, entriesToJson?, toJson?_toTree h.1, Option.bind_eq_bind,
      Option.bind_some, insertEntry_next ha, entriesToJson?_memberTrees _ ha' h.2]
    simp

end

end Json

theorem FreeForm.read_of_toJson? {t : Tree} {v : FreeForm} (h : t.toJson? = some v.json) :
    FreeForm.read t = .ok v := by
  unfold FreeForm.read
  split
  · next w hw =>
    obtain ⟨_, _⟩ := v
    cases Option.some.inj (hw.symm.trans h)
    rfl
  · next hn => rw [hn] at h; cases h

@[simp] theorem FreeForm.read_toTree (v : FreeForm) : FreeForm.read v.json.toTree = .ok v :=
  read_of_toJson? (Json.toJson?_toTree v.normal)

namespace Passage

/-- A payload holds free-form data as it is. -/
theorem payload_deliver_freeForm (v : FreeForm) :
    payload.deliver .freeForm v = some (.ok v) := by
  simp [deliver, payload, Codec.freeForm, Json.normal_eq_self v.normal]

/-- A payload holds null where there may be no value. -/
theorem payload_deliver_nullable {c : Codec α} [c.Exact] (o : Option α) :
    payload.deliver c.nullable o = some (.ok o) := by
  cases o with
  | none => rfl
  | some x =>
    obtain ⟨v, hv, hn, hx⟩ := c.carries_self .payload x
    have hv : payload.pass (c.nullable.write (some x)) = some v := hv
    rw [deliver, hv, Option.map_some, Codec.nullable_read_toTree hn, hx]
    rfl

theorem payload_carries_freeForm {v : FreeForm} (h : v.json.isNull = false) :
    payload.Carries .freeForm v v :=
  ⟨_, rfl, (Json.normal_eq_self v.normal).symm ▸ h,
    (Json.normal_eq_self v.normal).symm ▸ FreeForm.read_toTree v⟩

/-- A document holds free-form data without its nulls. -/
theorem document_pass_freeForm (v : FreeForm) :
    document.pass (Codec.freeForm.write v) = v.withoutNulls?.map (·.json) := by
  simp only [document, Codec.freeForm, Json.normal_eq_self v.normal, FreeForm.withoutNulls?]
  split <;> rfl

theorem document_deliver_freeForm (v : FreeForm) :
    document.deliver .freeForm v = v.withoutNulls?.map .ok := by
  rw [deliver, document_pass_freeForm, Option.map_map]
  exact congrArg (Option.map · _) (funext FreeForm.read_toTree)

end Passage

/-! ## Values that may not be there -/

namespace Passage

variable {p : Passage} {c : Codec α}

/-- A value that may not be there is read as another one; null stands for none. -/
def CarriesOption (p : Passage) (c : Codec α) (o o' : Option α) : Prop :=
  match (o.map c.write).bind p.pass with
  | none => o' = none
  | some v => c.nullable.read v.toTree = .ok o'

theorem CarriesOption.map {g : α → α} {o : Option α} (h : ∀ x ∈ o, p.Carries c x (g x)) :
    p.CarriesOption c o (o.map g) := by
  cases o with
  | none => exact rfl
  | some x =>
    obtain ⟨v, hv, hn, hx⟩ := h x rfl
    simp only [CarriesOption, Option.map_some, Option.bind_some, hv,
      Codec.nullable_read_toTree hn, hx]
    rfl

theorem CarriesOption.refl {o : Option α} (h : ∀ x ∈ o, p.Carries c x x) :
    p.CarriesOption c o o := by
  simpa using CarriesOption.map (g := id) h

@[simp] theorem carriesOption_self [c.Exact] (o : Option α) : p.CarriesOption c o o :=
  .refl fun x _ => c.carries_self p x

/-- No number is read where one was that is not finite. -/
theorem carriesOption_float (o : Option Float) :
    p.CarriesOption .float o (o.filter Decimal.isFinite) := by
  cases o with
  | none => exact rfl
  | some x =>
    simp only [CarriesOption, Codec.float, Option.map_some, Option.bind_some]
    cases hx : Decimal.isFinite x with
    | true =>
      rw [p.pass_float x hx, Option.filter_some_pos hx]
      rfl
    | false =>
      rw [Option.filter_some_neg (by simp [hx])]
      cases hv : p.pass (.float x) with
      | none => rfl
      | some v =>
        cases p.pass_infinite x hx v hv
        rfl

theorem carriesOption_float_self {o : Option Float} (h : ∀ x ∈ o, Decimal.isFinite x = true) :
    p.CarriesOption .float o o := by
  refine .refl fun x hx => ?_
  exact ⟨_, p.pass_float x (h x hx), rfl, rfl⟩

theorem document_carriesOption_freeForm (o : Option FreeForm) :
    document.CarriesOption .freeForm o (o.bind FreeForm.withoutNulls?) := by
  cases o with
  | none => exact rfl
  | some v =>
    simp only [CarriesOption, Option.map_some, Option.bind_some, document_pass_freeForm]
    cases hv : v.withoutNulls? with
    | none => rfl
    | some w =>
      simp only [Option.map_some]
      rw [Codec.nullable_read_toTree (FreeForm.isNull_of_withoutNulls? hv)]
      exact congrArg (Except.map some) (FreeForm.read_toTree w)

end Passage

end ForecastJob
