import ForecastJob.Proofs.Document
import ForecastJob.Proofs.Entries

/-!
# Keys that no record knows

A record can be written as a table or as a list of its values, and can hold other records, alone, in
dictionaries or in lists. Where a value has records is its shape.

* `Shape` : what the records of a value are, and where they are;
* `Node.HasUnknownKey` : a record somewhere in the value is a table with a key that is none of its
  fields;
* `Codec.Strict` : what is read has no unknown key;
* `Record.strict`, `Union.strict` : a closed record is strict if its fields are, and a union if its
  kinds are.
-/

namespace ForecastJob

/-- Where a value has records. -/
inductive Shape where
  /-- A record with fields of these names, some of which hold records. -/
  | record (names : List String) (parts : List (String × Shape))
  /-- A record whose fields depend on a tag. Only the names for some of its kinds are fixed. -/
  | tagged (tag : String) (kinds : List (String × List String))
  /-- A dictionary of values with records. -/
  | dict (values : Shape)
  /-- A list of values with records. -/
  | list (items : Shape)

/-- A record of the value is written as a table and has a key that is no field of it. -/
inductive Node.HasUnknownKey : Node → Shape → Prop
  | key {names : List String} {parts : List (String × Shape)} {es : List (String × Node)}
      {k : String} {n : Node} (hm : (k, n) ∈ es) (hk : k ∉ names) :
      HasUnknownKey (.table es) (.record names parts)
  | kindKey {tag kind : String} {kinds : List (String × List String)} {names : List String}
      {es : List (String × Node)} {k : String} {n : Node} (htag : (tag, .text kind) ∈ es)
      (hkind : (kind, names) ∈ kinds) (hm : (k, n) ∈ es) (hk : k ∉ tag :: names) :
      HasUnknownKey (.table es) (.tagged tag kinds)
  | field {names : List String} {parts : List (String × Shape)} {es : List (String × Node)}
      {k : String} {n : Node} {s : Shape} (hp : (k, s) ∈ parts) (hm : (k, n) ∈ es)
      (h : HasUnknownKey n s) : HasUnknownKey (.table es) (.record names parts)
  | place {names : List String} {parts : List (String × Shape)} {ns : List Node}
      {k : String} {n : Node} {s : Shape} (hp : (k, s) ∈ parts) (hm : (k, n) ∈ names.zip ns)
      (h : HasUnknownKey n s) : HasUnknownKey (.list ns) (.record names parts)
  | value {es : List (String × Node)} {k : String} {n : Node} {s : Shape} (hm : (k, n) ∈ es)
      (h : HasUnknownKey n s) : HasUnknownKey (.table es) (.dict s)
  | item {ns : List Node} {n : Node} {s : Shape} (hm : n ∈ ns) (h : HasUnknownKey n s) :
      HasUnknownKey (.list ns) (.list s)

variable {ρ α : Type}

/-- A value that was read has no unknown key. -/
def Codec.Strict (c : Codec α) (s : Shape) : Prop :=
  ∀ ⦃n : Node⦄ ⦃x : α⦄, c.read n.toTree = .ok x → ¬n.HasUnknownKey s

/-- A value that was read into the field has no unknown key. -/
def Field.Strict (f : Field ρ) (s : Shape) : Prop :=
  ∀ ⦃n : Node⦄ ⦃z z' : ρ⦄, f.read n.toTree z = .ok z' → ¬n.HasUnknownKey s

/-! ## Lists and dictionaries -/

namespace Codec

variable {c : Codec α}

theorem exists_read_of_mapM {ts : List Tree} {xs : List α} (h : ts.mapM c.read = .ok xs) {t : Tree}
    (ht : t ∈ ts) : ∃ x, c.read t = .ok x := by
  induction ts generalizing xs with
  | nil => exact absurd ht List.not_mem_nil
  | cons u ts ih =>
    rw [List.mapM_cons] at h
    obtain ⟨x, hx, h⟩ := Except.bind_eq_ok.1 h
    obtain ⟨xs', hxs, -⟩ := Except.bind_eq_ok.1 h
    rcases List.mem_cons.1 ht with rfl | ht
    · exact ⟨x, hx⟩
    · exact ih hxs ht

theorem exists_read_of_readEntries {es : List (Option String × Tree)} {d d' : Dict α}
    (h : c.readEntries es d = .ok d') {k : Option String} {t : Tree} (ht : (k, t) ∈ es) :
    ∃ x, c.read t = .ok x := by
  induction es generalizing d with
  | nil => exact absurd ht List.not_mem_nil
  | cons e es ih =>
    obtain ⟨_ | l, u⟩ := e
    · cases h
    · obtain ⟨x, hx, h⟩ := Except.bind_eq_ok.1 h
      rcases List.mem_cons.1 ht with heq | ht
      · cases heq
        exact ⟨x, hx⟩
      · exact ih h ht

theorem Strict.listOf {s : Shape} (h : c.Strict s) : c.listOf.Strict (.list s) := by
  intro n x hx hn
  cases hn with
  | item hm hn =>
    have ht := List.mem_map_of_mem (f := Node.toTree) hm
    rw [← nodeTrees_eq] at ht
    obtain ⟨y, hy⟩ := exists_read_of_mapM hx ht
    exact h hy hn

theorem Strict.dictOf {s : Shape} (h : c.Strict s) : c.dictOf.Strict (.dict s) := by
  intro n x hx hn
  cases hn with
  | value hm hn =>
    obtain ⟨y, hy⟩ := exists_read_of_readEntries hx (mem_entryTrees.2 ⟨_, hm, rfl⟩)
    exact h hy hn

end Codec

/-! ## Records -/

namespace Field

variable {name : String} {c : Codec α} {s : Shape}

@[simp] theorem strict_optional {get : ρ → Option α} {set : Option α → ρ → ρ} (h : c.Strict s) :
    (optional name c get set).Strict s := by
  intro n z z' hz
  obtain ⟨o, ho, -⟩ := Except.map_eq_ok.1 hz
  -- a document has no nulls, so that there is a value
  rcases Codec.nullable_read_eq_ok ho with ⟨hnull, -⟩ | ⟨x, -, hx⟩
  · exact absurd hnull n.toTree_ne_null
  · exact h hx

@[simp] theorem strict_dict {get : ρ → Dict α} {set : Dict α → ρ → ρ} (h : c.Strict s) :
    (dict name c get set).Strict (.dict s) := by
  intro n z z' hz
  obtain ⟨d, hd, -⟩ := Except.map_eq_ok.1 hz
  exact h.dictOf hd

end Field

/-- A closed record knows the keys of its tables, and its fields the ones further in. -/
theorem Record.strict {r : Record ρ} (hc : r.closed = true) {parts : List (String × Shape)}
    (hf : ∀ f ∈ r.fields, ∀ s, (f.name, s) ∈ parts → f.Strict s) :
    r.codec.Strict (.record r.names parts) := by
  intro n x hx hn
  cases hn with
  | key hm hk =>
    obtain ⟨f, hfm, rfl, -⟩ := exists_read_of_readTable hc hx (mem_entryTrees.2 ⟨_, hm, rfl⟩)
    exact hk (List.mem_map_of_mem hfm)
  | field hp hm hn =>
    obtain ⟨f, hfm, rfl, z, z', hz⟩ :=
      exists_read_of_readTable hc hx (mem_entryTrees.2 ⟨_, hm, rfl⟩)
    exact hf f hfm _ hp hz hn
  | @place _ _ ns k m s hp hm hn =>
    have hzip : (k, m.toTree) ∈ r.names.zip (nodeTrees ns) := by
      rw [nodeTrees_eq, List.zip_map_right]
      exact List.mem_map_of_mem (f := Prod.map id Node.toTree) hm
    rw [names, List.zip_map_left, List.mem_map] at hzip
    obtain ⟨⟨f, t⟩, hft, heq⟩ := hzip
    cases heq
    obtain ⟨z, z', hz⟩ := exists_read_of_readItems hx hft
    exact hf f (List.of_mem_zip hft).1 _ hp hz hn

/-! ## Unions -/

namespace Union

variable {u : Union ρ}

theorem split_cons_eq_ok {k : String} {t : Tree} {es rest : List (Option String × Tree)}
    {found : Option (Tree → Except Fault ρ)}
    {out : Option (Tree → Except Fault ρ) × List (Option String × Tree)} :
    u.split ((some k, t) :: es) found rest = .ok out ↔
      (k = u.tag ∧ found = none ∧
        ∃ read, u.variant? t = some read ∧ u.split es (some read) rest = .ok out) ∨
      (k ≠ u.tag ∧ t.isReadable = true ∧ u.split es found ((some k, t) :: rest) = .ok out) := by
  rw [split]
  by_cases hk : k = u.tag
  · cases found with
    | some read => simp [hk]
    | none => cases hv : u.variant? t <;> simp [hk]
  · cases ht : t.isReadable <;> simp [hk]

section Split

variable {es rest out : List (Option String × Tree)} {found found' : Option (Tree → Except Fault ρ)}

theorem exists_key_of_split {k : Option String} {t : Tree}
    (h : u.split ((k, t) :: es) found rest = .ok (found', out)) : ∃ name, k = some name := by
  cases k with
  | none => cases h
  | some name => exact ⟨name, rfl⟩

/-- There is one tag only. -/
theorem found_of_split {read : Tree → Except Fault ρ}
    (h : u.split es (some read) rest = .ok (found', out)) :
    found' = some read ∧ ∀ t, (some u.tag, t) ∉ es := by
  induction es generalizing rest with
  | nil =>
    cases h
    exact ⟨rfl, fun _ => List.not_mem_nil⟩
  | cons e es ih =>
    obtain ⟨k, t⟩ := e
    obtain ⟨k, rfl⟩ := exists_key_of_split h
    rcases split_cons_eq_ok.1 h with ⟨-, hnone, -⟩ | ⟨hk, -, h⟩
    · cases hnone
    · obtain ⟨hfound, hno⟩ := ih h
      refine ⟨hfound, fun t' ht' => ?_⟩
      rcases List.mem_cons.1 ht' with heq | ht'
      · cases heq
        exact hk rfl
      · exact hno t' ht'

/-- The tag selects the reader, wherever it stands. -/
theorem variant?_of_split (h : u.split es found rest = .ok (found', out)) {t : Tree}
    (ht : (some u.tag, t) ∈ es) : u.variant? t = found' := by
  induction es generalizing found rest with
  | nil => exact absurd ht List.not_mem_nil
  | cons e es ih =>
    obtain ⟨k, t'⟩ := e
    obtain ⟨k, rfl⟩ := exists_key_of_split h
    rcases split_cons_eq_ok.1 h with ⟨rfl, -, read, hread, h⟩ | ⟨hk, -, h⟩
    · obtain ⟨rfl, hno⟩ := found_of_split h
      rcases List.mem_cons.1 ht with heq | ht
      · cases heq
        exact hread
      · exact absurd ht (hno t)
    · rcases List.mem_cons.1 ht with heq | ht
      · cases heq
        exact absurd rfl hk
      · exact ih h ht

/-- No entry but the tag is lost. -/
theorem mem_of_split (h : u.split es found rest = .ok (found', out)) {k : String} {t : Tree}
    (hm : (some k, t) ∈ rest ∨ k ≠ u.tag ∧ (some k, t) ∈ es) : (some k, t) ∈ out := by
  induction es generalizing found rest with
  | nil =>
    cases h
    rcases hm with hm | ⟨-, hm⟩
    · exact List.mem_reverse.2 hm
    · exact absurd hm List.not_mem_nil
  | cons e es ih =>
    obtain ⟨l, u⟩ := e
    obtain ⟨l, rfl⟩ := exists_key_of_split h
    rcases split_cons_eq_ok.1 h with ⟨hl, -, read, -, h⟩ | ⟨-, -, h⟩
    · refine ih h (hm.imp_right fun ⟨hk, hm⟩ => ⟨hk, ?_⟩)
      rcases List.mem_cons.1 hm with heq | hm
      · cases heq
        exact absurd hl hk
      · exact hm
    · refine ih h ?_
      rcases hm with hm | ⟨hk, hm⟩
      · exact .inl (List.mem_cons_of_mem _ hm)
      · rcases List.mem_cons.1 hm with heq | hm
        · exact .inl (heq ▸ List.mem_cons_self)
        · exact .inr ⟨hk, hm⟩

end Split

/-- A union knows the keys of the kinds that are read as closed records. -/
theorem strict {kinds : List (String × List String)} {write : ρ → Json}
    (hk : ∀ kind names, (kind, names) ∈ kinds → ∃ (σ : Type) (r : Record σ) (make : σ → ρ),
      r.closed = true ∧ r.names = names ∧ u.variant? (.text kind) = some (fields r make)) :
    Codec.Strict ⟨u.read, write⟩ (.tagged u.tag kinds) := by
  intro n x hx hn
  cases hn with
  | kindKey htag hkind hm hkey =>
    obtain ⟨hne, hno⟩ := not_or.1 (mt List.mem_cons.2 hkey)
    obtain ⟨σ, r, make, hc, rfl, hv⟩ := hk _ _ hkind
    obtain ⟨⟨found, out⟩, hsplit, hread⟩ := Except.bind_eq_ok.1 hx
    have hfound := variant?_of_split hsplit (mem_entryTrees.2 ⟨_, htag, rfl⟩)
    rw [Node.toTree, hv] at hfound
    subst hfound
    obtain ⟨y, hy, -⟩ := Except.map_eq_ok.1 hread
    -- the other entries are all read into the record of the kind
    have hout := mem_of_split hsplit (.inr ⟨hne, mem_entryTrees.2 ⟨_, hm, rfl⟩⟩)
    obtain ⟨f, hf, hname, -⟩ := Record.exists_read_of_readTable hc hy hout
    exact hno (List.mem_map.2 ⟨f, hf, hname⟩)

end Union

end ForecastJob
