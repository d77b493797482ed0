import Mathlib.Logic.Relation
import ForecastJob.Proofs.Keys

/-!
# Records that gain keys

A record that is not closed skips the keys that it does not know. A value can therefore gain such
keys in any of its records, and is still read as it was before.

* `Json.GainsKey` : a record somewhere in the value, which is written as an object, gains a key that
  is none of its fields;
* `Codec.Tolerant` : a value is read as before when it gains a key, whether this succeeds or fails;
* `Record.tolerant` : an open record is tolerant if its fields are;
* `Union.tolerant` : a union is tolerant if the readers of its kinds skip the keys, which have been
  set aside with the other entries until the tag was found.
-/

namespace ForecastJob

/-- A record of the value gains a key that is no field of it, with any value and at any place. -/
inductive Json.GainsKey : Shape → Json → Json → Prop
  | key {names : List String} {parts : List (String × Shape)} {ms₁ ms₂ : List (String × Json)}
      {k : String} (hk : k ∉ names) (v : Json) :
      GainsKey (.record names parts) (.object (ms₁ ++ ms₂)) (.object (ms₁ ++ (k, v) :: ms₂))
  | kindKey {tag kind : String} {kinds : List (String × List String)} {names : List String}
      {ms₁ ms₂ : List (String × Json)} {k : String} (htag : (tag, .text kind) ∈ ms₁ ++ ms₂)
      (hkind : (kind, names) ∈ kinds) (hk : k ∉ tag :: names) (v : Json) :
      GainsKey (.tagged tag kinds) (.object (ms₁ ++ ms₂)) (.object (ms₁ ++ (k, v) :: ms₂))
  | field {names : List String} {parts : List (String × Shape)} {ms₁ ms₂ : List (String × Json)}
      {k : String} {v v' : Json} {s : Shape} (hp : (k, s) ∈ parts) (h : GainsKey s v v') :
      GainsKey (.record names parts) (.object (ms₁ ++ (k, v) :: ms₂))
        (.object (ms₁ ++ (k, v') :: ms₂))
  | value {ms₁ ms₂ : List (String × Json)} {k : String} {v v' : Json} {s : Shape}
      (h : GainsKey s v v') :
      GainsKey (.dict s) (.object (ms₁ ++ (k, v) :: ms₂)) (.object (ms₁ ++ (k, v') :: ms₂))
  | item {vs₁ vs₂ : List Json} {v v' : Json} {s : Shape} (h : GainsKey s v v') :
      GainsKey (.list s) (.list (vs₁ ++ v :: vs₂)) (.list (vs₁ ++ v' :: vs₂))

variable {ρ α : Type}

/-- A value that gains a key is read as before. -/
def Codec.Tolerant (c : Codec α) (s : Shape) : Prop :=
  ∀ ⦃v v' : Json⦄, Json.GainsKey s v v' → c.read v'.toTree = c.read v.toTree

/-- A value that gains a key is read into the field as before. -/
def Field.Tolerant (f : Field ρ) (s : Shape) : Prop :=
  ∀ ⦃v v' : Json⦄, Json.GainsKey s v v' → ∀ z, f.read v'.toTree z = f.read v.toTree z

/-! ## Trees -/

/-- What gains a key is an object or a list. -/
theorem Json.GainsKey.toTree_ne_null {s : Shape} {v v' : Json} (h : GainsKey s v v') :
    v.toTree ≠ .null ∧ v'.toTree ≠ .null := by
  cases h <;> exact ⟨nofun, nofun⟩

mutual

/-- What stands for a value can be skipped. -/
theorem Tree.isIntact_of_isReadable : ∀ {t : Tree}, t.isReadable = true → t.isIntact = true
  | .null, _ => rfl
  | .bool _, _ => rfl
  | .int _, _ => rfl
  | .float _, _ => rfl
  | .text _, _ => rfl
  | .list _, h => areIntact_of_areReadable h
  | .table _, h => entriesAreIntact_of_entriesAreReadable h

theorem areIntact_of_areReadable : ∀ {ts : List Tree}, areReadable ts = true → areIntact ts = true
  | [], _ => rfl
  | t :: ts, h => by
    obtain ⟨ht, hts⟩ := Bool.and_eq_true_iff.1 h
    rw [areIntact, t.isIntact_of_isReadable ht, areIntact_of_areReadable hts, Bool.true_and]

theorem entriesAreIntact_of_entriesAreReadable : ∀ {es : List (Option String × Tree)},
    entriesAreReadable es = true → entriesAreIntact es = true
  | [], _ => rfl
  | (k, t) :: es, h => by
    obtain ⟨ht, hes⟩ := Bool.and_eq_true_iff.1 h
    rw [entriesAreIntact, t.isIntact_of_isReadable (Bool.and_eq_true_iff.1 ht).2,
      entriesAreIntact_of_entriesAreReadable hes, Bool.true_and]

end

/-! ## Lists and dictionaries -/

namespace Codec

variable {c : Codec α}

theorem readEntries_congr {k : String} {t t' : Tree} (h : c.read t = c.read t')
    (es₁ es₂ : List (Option String × Tree)) (d : Dict α) :
    c.readEntries (es₁ ++ (some k, t) :: es₂) d = c.readEntries (es₁ ++ (some k, t') :: es₂) d := by
  induction es₁ generalizing d with
  | nil => simp only [List.nil_append, readEntries, h]
  | cons e es₁ ih =>
    obtain ⟨_ | l, u⟩ := e
    · rfl
    · simp only [List.cons_append, readEntries, ih]

namespace Tolerant

variable {s : Shape}

theorem nullable (h : c.Tolerant s) : c.nullable.Tolerant s := by
  intro v v' hv
  obtain ⟨hne, hne'⟩ := hv.toTree_ne_null
  rw [nullable_read_of_ne_null hne, nullable_read_of_ne_null hne', h hv]

theorem listOf (h : c.Tolerant s) : c.listOf.Tolerant (.list s) := by
  intro v v' hv
  cases hv with
  | @item vs₁ vs₂ v v' _ hv =>
    show (Json.itemTrees (vs₁ ++ v' :: vs₂)).mapM c.read =
      (Json.itemTrees (vs₁ ++ v :: vs₂)).mapM c.read
    simp only [Json.itemTrees_eq, List.map_append, List.map_cons, List.mapM_append,
      List.mapM_cons, h hv]

theorem dictOf (h : c.Tolerant s) : c.dictOf.Tolerant (.dict s) := by
  intro v v' hv
  cases hv with
  | @value ms₁ ms₂ k v v' _ hv =>
    show c.readEntries (Json.memberTrees (ms₁ ++ (k, v') :: ms₂)) .empty =
      c.readEntries (Json.memberTrees (ms₁ ++ (k, v) :: ms₂)) .empty
    rw [Json.memberTrees_append, Json.memberTrees_append]
    exact readEntries_congr (h hv) _ _ _

end Tolerant

end Codec

/-! ## Records -/

namespace Field

variable {name : String} {c : Codec α} {s : Shape}

@[simp] theorem tolerant_mandatory {get : ρ → α} {set : α → ρ → ρ} (h : c.Tolerant s) :
    (mandatory name c get set).Tolerant s :=
  fun _ _ hv z => congrArg (Except.map (set · z)) (h hv)

@[simp] theorem tolerant_optional {get : ρ → Option α} {set : Option α → ρ → ρ}
    (h : c.Tolerant s) : (optional name c get set).Tolerant s :=
  fun _ _ hv z => congrArg (Except.map (set · z)) (h.nullable hv)

@[simp] theorem tolerant_dict {get : ρ → Dict α} {set : Dict α → ρ → ρ} (h : c.Tolerant s) :
    (dict name c get set).Tolerant (.dict s) :=
  fun _ _ hv z => congrArg (Except.map (set · z)) (h.dictOf hv)

end Field

namespace Record

variable {r : Record ρ} {k : String} {t : Tree}

/-- An open record skips an entry that it does not know, wherever it stands. -/
theorem readEntries_insert (hc : r.closed = false) (hk : k ∉ r.names) (ht : t.isIntact = true)
    (es₁ es₂ : List (Option String × Tree)) (seen : List String) (x : ρ) :
    r.readEntries (es₁ ++ (some k, t) :: es₂) seen x = r.readEntries (es₁ ++ es₂) seen x := by
  induction es₁ generalizing seen x with
  | nil =>
    simp only [List.nil_append, readEntries, find?_eq_none_iff.2 hk, hc, ht, if_true,
      Bool.false_eq_true, if_false]
  | cons e es₁ ih =>
    obtain ⟨_ | l, u⟩ := e
    · rfl
    · simp only [List.cons_append, readEntries, ih]

theorem readTable_insert (hc : r.closed = false) (hk : k ∉ r.names) (ht : t.isIntact = true)
    (es₁ es₂ : List (Option String × Tree)) :
    r.readTable (es₁ ++ (some k, t) :: es₂) = r.readTable (es₁ ++ es₂) := by
  rw [readTable, readTable, readEntries_insert hc hk ht]

/-- An open record skips the keys that its objects gain, and is read as before if its fields are. -/
theorem tolerant (hc : r.closed = false) {parts : List (String × Shape)}
    (hf : ∀ f ∈ r.fields, ∀ s, (f.name, s) ∈ parts → f.Tolerant s) :
    r.codec.Tolerant (.record r.names parts) := by
  have hintact : ∀ v : Json, v.toTree.isIntact = true :=
    fun v => Tree.isIntact_of_isReadable v.isReadable_toTree
  intro v v' hv
  cases hv with
  | @key _ _ ms₁ ms₂ k hk v =>
    show r.readTable (Json.memberTrees (ms₁ ++ (k, v) :: ms₂)) =
      r.readTable (Json.memberTrees (ms₁ ++ ms₂))
    rw [Json.memberTrees_append, Json.memberTrees_append]
    exact readTable_insert hc hk (hintact v) _ _
  | @field _ _ ms₁ ms₂ k v v' s hp hv =>
    show r.readTable (Json.memberTrees (ms₁ ++ (k, v') :: ms₂)) =
      r.readTable (Json.memberTrees (ms₁ ++ (k, v) :: ms₂))
    rw [Json.memberTrees_append, Json.memberTrees_append, Json.memberTrees, Json.memberTrees]
    cases hfind : r.fields.find? (·.name == k) with
    | none =>
      have hk := find?_eq_none_iff.1 hfind
      rw [readTable_insert hc hk (hintact v), readTable_insert hc hk (hintact v')]
    | some f =>
      obtain rfl : f.name = k := by simpa using List.find?_some hfind
      exact readTable_congr hfind (hf f (List.mem_of_find?_eq_some hfind) s hp hv) _ _

end Record

/-! ## Unions -/

namespace Union

variable {u : Union ρ} {k : String} {t : Tree}

/-- The reader skips an entry of this name. -/
def Skips (read : Tree → Except Fault ρ) (k : String) : Prop :=
  ∀ ⦃t⦄, t.isReadable = true → ∀ es₁ es₂,
    read (.table (es₁ ++ (some k, t) :: es₂)) = read (.table (es₁ ++ es₂))

@[simp] theorem skips_unit (x : ρ) (k : String) : Skips (unit x) k :=
  fun _ _ _ _ => rfl

theorem skips_fields {σ : Type} {r : Record σ} (hc : r.closed = false) (make : σ → ρ) :
    ∀ k ∉ r.names, Skips (fields r make) k :=
  fun _ hk _ ht es₁ es₂ => congrArg (Except.map make)
    (r.readTable_insert hc hk (Tree.isIntact_of_isReadable ht) es₁ es₂)

/-- The entries that were set aside before stand in front. -/
theorem split_rest (es : List (Option String × Tree)) (found : Option (Tree → Except Fault ρ))
    (rest : List (Option String × Tree)) :
    u.split es found rest =
      (u.split es found []).map fun out => (out.1, rest.reverse ++ out.2) := by
  induction es generalizing found rest with
  | nil => simp [split]
  | cons e es ih =>
    obtain ⟨_ | l, w⟩ := e
    · rfl
    · simp only [split]
      by_cases hl : l = u.tag
      · cases found with
        | some read => simp [hl, Except.map]
        | none =>
          cases u.variant? w with
          | none => simp [hl, Except.map]
          | some read => simpa [hl] using ih (some read) rest
      · cases w.isReadable with
        | false => simp [hl, Except.map]
        | true =>
          -- the entry itself is set aside behind the ones before it
          simp only [beq_iff_eq, hl, if_false, if_true]
          rw [ih found ((some l, w) :: rest), ih found [(some l, w)]]
          cases u.split es found [] with
          | error e => rfl
          | ok out => simp

/-- An entry is set aside with the other ones and given to the reader that the tag selects, which
skips it. -/
theorem read_insert {kind : String} {read : Tree → Except Fault ρ}
    {es₁ es₂ : List (Option String × Tree)} (hv : u.variant? (.text kind) = some read)
    (htag : (some u.tag, .text kind) ∈ es₁ ++ es₂) (hk : k ≠ u.tag) (ht : t.isReadable = true)
    (hskips : Skips read k) :
    u.read (.table (es₁ ++ (some k, t) :: es₂)) = u.read (.table (es₁ ++ es₂)) := by
  have hnext : ∀ found rest, u.split ((some k, t) :: es₂) found rest =
      u.split es₂ found ((some k, t) :: rest) := by
    intro found rest
    simp [split, hk, ht]
  rw [Union.read, Union.read]
  cases hsplit₁ : u.split es₁ none [] with
  | error e => simp only [split_append, hsplit₁, bind, Except.bind]
  | ok out₁ =>
    obtain ⟨found₁, rest₁⟩ := out₁
    have hlong : u.split (es₁ ++ (some k, t) :: es₂) none [] =
        (u.split es₂ found₁ []).map fun out => (out.1, rest₁ ++ (some k, t) :: out.2) := by
      rw [split_append, hsplit₁, Except.ok_bind, hnext, split_rest]
      simp
    have hshort : u.split (es₁ ++ es₂) none [] =
        (u.split es₂ found₁ []).map fun out => (out.1, rest₁ ++ out.2) := by
      rw [split_append, hsplit₁, Except.ok_bind, split_rest, List.reverse_reverse]
    rw [hlong, hshort]
    cases hsplit₂ : u.split es₂ found₁ [] with
    | error e => rfl
    | ok out₂ =>
      obtain ⟨found₂, rest₂⟩ := out₂
      rw [hsplit₂] at hshort
      obtain rfl : some read = found₂ := hv.symm.trans (variant?_of_split hshort htag)
      exact hskips ht rest₁ rest₂

/-- A union skips the keys that its objects gain if the readers of their kinds do. -/
theorem tolerant {kinds : List (String × List String)} {write : ρ → Json}
    (hkinds : ∀ e ∈ kinds, ∃ read, u.variant? (.text e.1) = some read ∧ ∀ k ∉ e.2, Skips read k) :
    Codec.Tolerant ⟨u.read, write⟩ (.tagged u.tag kinds) := by
  intro v v' hv
  cases hv with
  | @kindKey _ kind _ names ms₁ ms₂ k htag hkind hk v =>
    obtain ⟨hne, hno⟩ := not_or.1 (mt List.mem_cons.2 hk)
    obtain ⟨read, hread, hskips⟩ := hkinds _ hkind
    have htree := Json.mem_memberTrees.2 ⟨_, htag, rfl⟩
    rw [Json.memberTrees_append] at htree
    show u.read (.table (Json.memberTrees (ms₁ ++ (k, v) :: ms₂))) =
      u.read (.table (Json.memberTrees (ms₁ ++ ms₂)))
    rw [Json.memberTrees_append, Json.memberTrees_append]
    exact read_insert hread htree hne v.isReadable_toTree (hskips k hno)

end Union

end ForecastJob
