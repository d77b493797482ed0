import ForecastJob.Proofs.Fields
import ForecastJob.Proofs.Outcome

/-!
# Records that were read from a table

A record is read from the entries of a table, one behind the other. What is known of the entries
once this has succeeded, whatever they are:

* `Record.readEntries_cons_eq_ok` : what reading can do with an entry;
* `Record.field_of_readTable` : a field is what was made of the entry of its name;
* `Record.exists_read_of_readTable` : a closed record has an entry for each of its fields only;
* `Record.mandatory_of_readTable`, `Record.optional_of_readTable` : the value of a field that must be
  there, and of one that may not be;
* `Record.exists_read_of_readItems` : the same for a list of values;
* `Record.readTable_congr`, `Record.readTable_of_extends` : other entries, or another record, of
  which as much is made.
-/

namespace ForecastJob

variable {ρ α : Type}

def Record.names (r : Record ρ) : List String :=
  r.fields.map (·.name)

/-! ## Values -/

namespace Codec

theorem text_read_eq_ok {t : Tree} {s : String} : text.read t = .ok s ↔ t = .text s := by
  cases t <;> simp [text]

theorem nullable_read_of_ne_null {c : Codec α} {t : Tree} (h : t ≠ .null) :
    c.nullable.read t = (c.read t).map some := by
  cases t with
  | null => exact absurd rfl h
  | _ => rfl

theorem nullable_read_eq_ok {c : Codec α} {t : Tree} {o : Option α}
    (h : c.nullable.read t = .ok o) :
    (t = .null ∧ o = none) ∨ ∃ x, o = some x ∧ c.read t = .ok x := by
  cases t with
  | null =>
    cases h
    exact .inl ⟨rfl, rfl⟩
  | _ =>
    obtain ⟨x, hx, rfl⟩ := Except.map_eq_ok.1 h
    exact .inr ⟨x, rfl, hx⟩

end Codec

namespace Record

variable {r : Record ρ} {es : List (Option String × Tree)} {seen : List String} {x y : ρ}
  {out : List String × ρ}

/-! ## One entry behind the other -/

/-- An entry is read into the field of its name, which has not been read before; one that names no
field is skipped unless the record is closed. -/
theorem readEntries_cons_eq_ok {k : String} {t : Tree} :
    r.readEntries ((some k, t) :: es) seen x = .ok out ↔
      (∃ f x', r.fields.find? (·.name == k) = some f ∧ k ∉ seen ∧ f.read t x = .ok x' ∧
        r.readEntries es (k :: seen) x' = .ok out) ∨
      (r.fields.find? (·.name == k) = none ∧ r.closed = false ∧ t.isIntact = true ∧
        r.readEntries es seen x = .ok out) := by
  rw [readEntries]
  cases hf : r.fields.find? (·.name == k) with
  | some f =>
    by_cases hs : k ∈ seen
    · simp [hs]
    · simp [hs, Except.bind_eq_ok]
  | none =>
    cases hc : r.closed with
    | true => simp
    | false => cases ht : t.isIntact <;> simp

theorem exists_key_of_readEntries {k : Option String} {t : Tree}
    (h : r.readEntries ((k, t) :: es) seen x = .ok out) : ∃ name, k = some name := by
  cases k with
  | none => cases h
  | some name => exact ⟨name, rfl⟩

theorem find?_eq_none_iff {k : String} :
    r.fields.find? (·.name == k) = none ↔ k ∉ r.names := by
  simp [names]

theorem find?_ne_none_of_mem {f : Field ρ} (hf : f ∈ r.fields) :
    r.fields.find? (·.name == f.name) ≠ none :=
  fun h => find?_eq_none_iff.1 h (List.mem_map_of_mem hf)

/-- A field that has been read does not come again. -/
theorem notMem_of_mem_seen {f : Field ρ} (hf : f ∈ r.fields) (hs : f.name ∈ seen)
    (h : r.readEntries es seen x = .ok out) (t : Tree) : (some f.name, t) ∉ es := by
  induction es generalizing seen x with
  | nil => exact List.not_mem_nil
  | cons e es ih =>
    obtain ⟨k, u⟩ := e
    obtain ⟨k, rfl⟩ := exists_key_of_readEntries h
    intro hmem
    rcases readEntries_cons_eq_ok.1 h with ⟨g, x', -, hk, -, h⟩ | ⟨hnone, -, -, h⟩
    · rcases List.mem_cons.1 hmem with heq | hmem
      · cases heq
        exact hk hs
      · exact ih (List.mem_cons_of_mem _ hs) h hmem
    · rcases List.mem_cons.1 hmem with heq | hmem
      · cases heq
        exact find?_ne_none_of_mem hf hnone
      · exact ih hs h hmem

/-- A field that has been read in the end had an entry. -/
theorem exists_entry_of_mem_seen (h : r.readEntries es seen x = .ok out) {k : String}
    (hk : k ∈ out.1) : k ∈ seen ∨ ∃ t, (some k, t) ∈ es := by
  induction es generalizing seen x with
  | nil =>
    cases h
    exact .inl hk
  | cons e es ih =>
    obtain ⟨l, u⟩ := e
    obtain ⟨l, rfl⟩ := exists_key_of_readEntries h
    have hlater : (∃ t, (some k, t) ∈ es) → ∃ t, (some k, t) ∈ (some l, u) :: es :=
      fun ⟨t, ht⟩ => ⟨t, List.mem_cons_of_mem _ ht⟩
    rcases readEntries_cons_eq_ok.1 h with ⟨g, x', -, -, -, h⟩ | ⟨-, -, -, h⟩
    · rcases ih h with hseen | hrest
      · rcases List.mem_cons.1 hseen with rfl | hseen
        · exact .inr ⟨u, List.mem_cons_self⟩
        · exact .inl hseen
      · exact .inr (hlater hrest)
    · exact (ih h).imp_right hlater

/-- A field is read from the entry of its name, and stays as it is if there is none. -/
theorem field_of_readEntries [r.Lawful] {f : Field ρ} (hf : f ∈ r.fields)
    (h : r.readEntries es seen x = .ok out) :
    ((∀ t, (some f.name, t) ∉ es) → f.write out.2 = f.write x) ∧
      ∀ t, (some f.name, t) ∈ es → ∃ z z', f.read t z = .ok z' ∧ f.write z' = f.write out.2 := by
  induction es generalizing seen x with
  | nil =>
    cases h
    exact ⟨fun _ => rfl, fun _ ht => absurd ht List.not_mem_nil⟩
  | cons e es ih =>
    obtain ⟨k, u⟩ := e
    obtain ⟨k, rfl⟩ := exists_key_of_readEntries h
    rcases readEntries_cons_eq_ok.1 h with ⟨g, x', hg, -, hread, h⟩ | ⟨hnone, -, -, h⟩
    · have hgf : g ∈ r.fields := List.mem_of_find?_eq_some hg
      have hgk : g.name = k := by simpa using List.find?_some hg
      obtain ⟨hout, hin⟩ := ih h
      by_cases hn : f = g
      · -- the entry is the field's own, and no other one is
        subst hn
        subst hgk
        have hrest := notMem_of_mem_seen hf List.mem_cons_self h
        refine ⟨fun hno => absurd List.mem_cons_self (hno u), fun t ht => ?_⟩
        rcases List.mem_cons.1 ht with heq | ht
        · cases heq
          exact ⟨x, x', hread, (hout hrest).symm⟩
        · exact absurd ht (hrest t)
      · have hne : f.name ≠ k := fun hfk => hn (eq_of_name_eq hf hgf (hfk.trans hgk.symm))
        have hkept : f.write x' = f.write x := spares_of_ne hgf hf (Ne.symm hn) _ _ _ hread
        refine ⟨fun hno => ?_, fun t ht => ?_⟩
        · rw [hout fun t ht => hno t (List.mem_cons_of_mem _ ht), hkept]
        · rcases List.mem_cons.1 ht with heq | ht
          · cases heq
            exact absurd rfl hne
          · exact hin t ht
    · obtain ⟨hout, hin⟩ := ih h
      refine ⟨fun hno => hout fun t ht => hno t (List.mem_cons_of_mem _ ht), fun t ht => ?_⟩
      rcases List.mem_cons.1 ht with heq | ht
      · cases heq
        exact absurd hnone (find?_ne_none_of_mem hf)
      · exact hin t ht

/-- A closed record reads every entry into a field of its name. -/
theorem exists_read_of_readEntries (hc : r.closed = true) (h : r.readEntries es seen x = .ok out)
    {k : String} {t : Tree} (hm : (some k, t) ∈ es) :
    ∃ f ∈ r.fields, f.name = k ∧ ∃ z z', f.read t z = .ok z' := by
  induction es generalizing seen x with
  | nil => exact absurd hm List.not_mem_nil
  | cons e es ih =>
    obtain ⟨l, u⟩ := e
    obtain ⟨l, rfl⟩ := exists_key_of_readEntries h
    rcases readEntries_cons_eq_ok.1 h with ⟨g, x', hg, -, hread, h⟩ | ⟨-, hopen, -, -⟩
    · rcases List.mem_cons.1 hm with heq | hm
      · cases heq
        have hgk : g.name = k := by simpa using List.find?_some hg
        exact ⟨g, List.mem_of_find?_eq_some hg, hgk, x, x', hread⟩
      · exact ih h hm
    · rw [hc] at hopen
      cases hopen

/-- A record does not tell trees apart that the field of their name reads alike. -/
theorem readEntries_congr {f : Field ρ} {k : String} {t t' : Tree}
    (hf : r.fields.find? (·.name == k) = some f) (hread : ∀ z, f.read t z = f.read t' z)
    (es₁ es₂ : List (Option String × Tree)) :
    r.readEntries (es₁ ++ (some k, t) :: es₂) seen x =
      r.readEntries (es₁ ++ (some k, t') :: es₂) seen x := by
  induction es₁ generalizing seen x with
  | nil => simp only [List.nil_append, readEntries, hf, hread]
  | cons e es₁ ih =>
    obtain ⟨_ | l, u⟩ := e
    · rfl
    · simp only [List.cons_append, readEntries, ih]

/-! ## Whole tables -/

theorem readTable_eq_ok : r.readTable es = .ok y ↔
    ∃ seen, r.readEntries es [] r.blank = .ok (seen, y) ∧
      r.fields.find? (fun f => f.required && !seen.contains f.name) = none := by
  rw [readTable, Except.bind_eq_ok]
  constructor
  · rintro ⟨⟨seen, z⟩, hz, h⟩
    simp only at h
    split at h
    · cases h
    · next hnone =>
      cases h
      exact ⟨seen, hz, hnone⟩
  · rintro ⟨seen, hz, hnone⟩
    exact ⟨(seen, y), hz, by simp only [hnone]⟩

/-- A field is what was made of the entry of its name, and that of the blank record without one. -/
theorem field_of_readTable [r.Lawful] {f : Field ρ} (hf : f ∈ r.fields)
    (h : r.readTable es = .ok y) :
    ((∀ t, (some f.name, t) ∉ es) → f.write y = f.write r.blank) ∧
      ∀ t, (some f.name, t) ∈ es → ∃ z z', f.read t z = .ok z' ∧ f.write z' = f.write y := by
  obtain ⟨seen, hseen, -⟩ := readTable_eq_ok.1 h
  exact field_of_readEntries hf hseen

/-- A closed record that was read has read every entry into a field of its name. -/
theorem exists_read_of_readTable (hc : r.closed = true) (h : r.readTable es = .ok y) {k : String}
    {t : Tree} (hm : (some k, t) ∈ es) :
    ∃ f ∈ r.fields, f.name = k ∧ ∃ z z', f.read t z = .ok z' := by
  obtain ⟨seen, hseen, -⟩ := readTable_eq_ok.1 h
  exact exists_read_of_readEntries hc hseen hm

theorem readTable_congr {f : Field ρ} {k : String} {t t' : Tree}
    (hf : r.fields.find? (·.name == k) = some f) (hread : ∀ z, f.read t z = f.read t' z)
    (es₁ es₂ : List (Option String × Tree)) :
    r.readTable (es₁ ++ (some k, t) :: es₂) = r.readTable (es₁ ++ (some k, t') :: es₂) := by
  rw [readTable, readTable, readEntries_congr hf hread]

/-- A field that must be there has the value of its entry. -/
theorem mandatory_of_readTable [r.Lawful] {name : String} {c : Codec α} [c.Injective]
    {get : ρ → α} {set : α → ρ → ρ} (hf : .mandatory name c get set ∈ r.fields)
    (hs : ∀ v z, get (set v z) = v) (h : r.readTable es = .ok y) :
    ∃ t, (some name, t) ∈ es ∧ c.read t = .ok (get y) := by
  obtain ⟨seen, hseen, hnone⟩ := readTable_eq_ok.1 h
  have hmem : name ∈ seen := by
    simpa [Field.mandatory] using List.find?_eq_none.1 hnone _ hf
  rcases exists_entry_of_mem_seen hseen hmem with hno | ⟨t, ht⟩
  · exact absurd hno List.not_mem_nil
  · obtain ⟨z, z', hread, hw⟩ := (field_of_readEntries hf hseen).2 t ht
    obtain ⟨v, hv, rfl⟩ := Except.map_eq_ok.1 hread
    rw [Field.write_mandatory_inj, hs] at hw
    exact ⟨t, ht, by rw [hv, hw]⟩

section Optional

variable [r.Lawful] {name : String} {c : Codec α} [c.Injective] {get : ρ → Option α}
  {set : Option α → ρ → ρ}

/-- A field that may not be there has the value of its entry, and none without one. -/
theorem optional_of_readTable (hf : .optional name c get set ∈ r.fields)
    (hs : ∀ v z, get (set v z) = v) (hb : get r.blank = none) (h : r.readTable es = .ok y) :
    ((∀ t, (some name, t) ∉ es) → get y = none) ∧
      ∀ t, (some name, t) ∈ es → c.nullable.read t = .ok (get y) := by
  obtain ⟨hout, hin⟩ := field_of_readTable hf h
  constructor
  · intro hno
    have hw := hout hno
    rwa [Field.write_optional_inj, hb] at hw
  · intro t ht
    obtain ⟨z, z', hread, hw⟩ := hin t ht
    obtain ⟨o, ho, rfl⟩ := Except.map_eq_ok.1 hread
    rw [Field.write_optional_inj, hs] at hw
    rw [ho, hw]

end Optional

/-! ## Lists of values -/

/-- In a list every value was read into the field at its place. -/
theorem exists_read_of_readItems {fs : List (Field ρ)} {ts : List Tree}
    (h : readItems fs ts x = .ok y) {f : Field ρ} {t : Tree} (hm : (f, t) ∈ fs.zip ts) :
    ∃ z z', f.read t z = .ok z' := by
  induction fs generalizing ts x with
  | nil => exact absurd hm List.not_mem_nil
  | cons g fs ih =>
    cases ts with
    | nil => exact absurd hm List.not_mem_nil
    | cons u ts =>
      obtain ⟨x', hx', h⟩ := Except.bind_eq_ok.1 h
      rcases List.mem_cons.1 hm with heq | hm
      · cases heq
        exact ⟨x, x', hx'⟩
      · exact ih h hm

end Record

/-! ## Records with the same fields -/

namespace Field

/-- A field `g` has the name of `f`, and makes the same of the entries that `f` can read. -/
def Extends (es : List (Option String × Tree)) (g f : Field ρ) : Prop :=
  g.name = f.name ∧ g.required = f.required ∧
    ∀ t, (some f.name, t) ∈ es → ∀ z z', f.read t z = .ok z' → g.read t z = .ok z'

variable {es : List (Option String × Tree)} {f g : Field ρ} {fs gs : List (Field ρ)}

@[simp] theorem extends_refl (f : Field ρ) : f.Extends es f :=
  ⟨rfl, rfl, fun _ _ _ _ h => h⟩

@[simp] theorem extends_optional {name : String} {c c' : Codec α} {get : ρ → Option α}
    {set : Option α → ρ → ρ}
    (h : ∀ t, (some name, t) ∈ es → ∀ x, c.read t = .ok x → c'.read t = .ok x) :
    (optional name c' get set).Extends es (optional name c get set) := by
  refine ⟨rfl, rfl, fun t ht z z' hz => ?_⟩
  obtain ⟨o, ho, rfl⟩ := Except.map_eq_ok.1 hz
  refine Except.map_eq_ok.2 ⟨o, ?_, rfl⟩
  by_cases hnull : t = .null
  · subst hnull
    exact ho
  · rw [Codec.nullable_read_of_ne_null hnull] at ho ⊢
    obtain ⟨x, hx, rfl⟩ := Except.map_eq_ok.1 ho
    exact Except.map_eq_ok.2 ⟨x, h t ht x hx, rfl⟩

/-- A field that is found has its extension found, by name and by whether it must be there. -/
theorem exists_find?_of_extends (h : List.Forall₂ (Extends es) gs fs) {p : String → Bool → Bool}
    (hf : fs.find? (fun f => p f.name f.required) = some f) :
    ∃ g, gs.find? (fun g => p g.name g.required) = some g ∧ g.Extends es f := by
  induction h with
  | nil => cases hf
  | @cons g' f' _ _ hgf _ ih =>
    obtain ⟨hname, hrequired, -⟩ := id hgf
    rw [List.find?_cons, hname, hrequired]
    rw [List.find?_cons] at hf
    split at hf
    · cases hf
      exact ⟨g', rfl, hgf⟩
    · exact ih hf

theorem find?_eq_none_of_extends (h : List.Forall₂ (Extends es) gs fs) {p : String → Bool → Bool}
    (hf : fs.find? (fun f => p f.name f.required) = none) :
    gs.find? (fun g => p g.name g.required) = none := by
  induction h with
  | nil => rfl
  | cons hgf _ ih =>
    obtain ⟨hname, hrequired, -⟩ := hgf
    rw [List.find?_cons, hname, hrequired]
    rw [List.find?_cons] at hf
    split at hf
    · cases hf
    · exact ih hf

end Field

namespace Record

variable {r r' : Record ρ} {es : List (Option String × Tree)} {y : ρ}

theorem readEntries_of_extends (h : List.Forall₂ (Field.Extends es) r'.fields r.fields)
    (hc : r'.closed = r.closed) {rest : List (Option String × Tree)} {seen : List String} {x : ρ}
    {out : List String × ρ} (hrest : ∀ e ∈ rest, e ∈ es)
    (hread : r.readEntries rest seen x = .ok out) : r'.readEntries rest seen x = .ok out := by
  induction rest generalizing seen x with
  | nil => exact hread
  | cons e rest ih =>
    obtain ⟨k, t⟩ := e
    obtain ⟨k, rfl⟩ := exists_key_of_readEntries hread
    have hlater : ∀ e ∈ rest, e ∈ es := fun e he => hrest e (List.mem_cons_of_mem _ he)
    rcases readEntries_cons_eq_ok.1 hread with ⟨f, x', hf, hk, hx', hread⟩ | ⟨hf, ho, ht, hread⟩
    · obtain ⟨g, hg, hgf⟩ := Field.exists_find?_of_extends h (p := fun name _ => name == k) hf
      obtain ⟨-, -, hsame⟩ := hgf
      have hname : f.name = k := by simpa using List.find?_some hf
      have hmem : (some f.name, t) ∈ es := hname ▸ hrest _ List.mem_cons_self
      exact readEntries_cons_eq_ok.2
        (.inl ⟨g, x', hg, hk, hsame t hmem x x' hx', ih hlater hread⟩)
    · have hg := Field.find?_eq_none_of_extends h (p := fun name _ => name == k) hf
      exact readEntries_cons_eq_ok.2 (.inr ⟨hg, hc.trans ho, ht, ih hlater hread⟩)

/-- A record whose fields extend those of another one is read as that one is. -/
theorem readTable_of_extends (h : List.Forall₂ (Field.Extends es) r'.fields r.fields)
    (hc : r'.closed = r.closed) (hb : r'.blank = r.blank) (hread : r.readTable es = .ok y) :
    r'.readTable es = .ok y := by
  obtain ⟨seen, hseen, hnone⟩ := readTable_eq_ok.1 hread
  refine readTable_eq_ok.2 ⟨seen, ?_, ?_⟩
  · rw [hb]
    exact readEntries_of_extends h hc (fun _ he => he) hseen
  · exact Field.find?_eq_none_of_extends h
      (p := fun name required => required && !seen.contains name) hnone

end Record

end ForecastJob
