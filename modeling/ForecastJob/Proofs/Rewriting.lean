import Mathlib.Data.List.Find
import ForecastJob.Proofs.Document
import ForecastJob.Proofs.Forgiveness
import ForecastJob.Proofs.Insertion

/-!
# Values that can be rewritten

Many values of a document can be written in several ways, and a field that has a default need not be
written at all. What is read may differ as long as it is not looked at before some of it has been
folded, such as the case of a word.

* `Except.Alike` : outcomes that are the same when they are folded;
* `Form`, `Node.Rewrites` : how a value may be written, and one step from one way to another;
* `Codec.Forgives` : what a codec makes of a value stays the same, when it is folded;
* `Record.forgives` : a record forgives what its fields forgive, and fields that say no more than
  their defaults.
-/

/-! ## Outcomes that are alike -/

namespace Except

variable {ε α β γ δ : Type} {f : α → β} {x y : Except ε α}

/-- Both computations fail, or both succeed and `f` makes the same of their results. -/
def Alike (f : α → β) (x y : Except ε α) : Prop :=
  x.toOption.map f = y.toOption.map f

theorem Alike.refl (x : Except ε α) : Alike f x x :=
  rfl

theorem alike_iff : Alike f x y ↔
    (∃ a b, x = .ok a ∧ y = .ok b ∧ f a = f b) ∨ ∃ e e', x = .error e ∧ y = .error e' := by
  cases x <;> cases y <;> simp [Alike, Except.toOption]

theorem alike_id_iff : Alike id x y ↔ ∀ a, x = .ok a ↔ y = .ok a := by
  rw [alike_iff]
  cases x with
  | error e => cases y <;> simp
  | ok a =>
    cases y with
    | error e => simp
    | ok b => simp [eq_comm]

/-- What can be said of a result that is folded can be said of both. -/
theorem Alike.exists_ok_iff (h : Alike f x y) (p : β → Prop) :
    (∃ a, x = .ok a ∧ p (f a)) ↔ ∃ b, y = .ok b ∧ p (f b) := by
  rcases alike_iff.1 h with ⟨a, b, rfl, rfl, hab⟩ | ⟨e, e', rfl, rfl⟩
  · simp [hab]
  · simp

theorem Alike.bind {g : γ → δ} {k k' : α → Except ε γ} (h : Alike f x y)
    (hk : ∀ a b, f a = f b → Alike g (k a) (k' b)) : Alike g (x >>= k) (y >>= k') := by
  rcases alike_iff.1 h with ⟨a, b, rfl, rfl, hab⟩ | ⟨e, e', rfl, rfl⟩
  · exact hk a b hab
  · rfl

theorem Alike.map {g : γ → δ} {k k' : α → γ} (h : Alike f x y)
    (hk : ∀ a b, f a = f b → g (k a) = g (k' b)) : Alike g (x.map k) (y.map k') := by
  rcases alike_iff.1 h with ⟨a, b, rfl, rfl, hab⟩ | ⟨e, e', rfl, rfl⟩
  · exact congrArg some (hk a b hab)
  · rfl

theorem Alike.mapError {ε' : Type} (h : Alike f x y) (g : ε → ε') :
    Alike f (x.mapError g) (y.mapError g) := by
  rcases alike_iff.1 h with ⟨a, b, rfl, rfl, hab⟩ | ⟨e, e', rfl, rfl⟩
  · exact congrArg some hab
  · rfl

end Except

namespace ForecastJob

open Except (Alike)

/-! ## Texts -/

namespace Text

/-- A text in lower case. -/
def lower (s : String) : String :=
  String.ofList (s.toList.map Char.toLower)

theorem sameIgnoringCase_iff {s t : String} : sameIgnoringCase s t = true ↔ lower s = lower t := by
  rw [sameIgnoringCase, beq_iff_eq, lower, lower, String.ofList_inj]

theorem lower_lower (s : String) : lower (lower s) = lower s := by
  rw [lower, lower, String.toList_ofList, List.map_map]
  exact congrArg String.ofList (List.map_congr_left fun c _ => toLower_toLower c)

theorem sameIgnoringCase_lower {s t : String} :
    sameIgnoringCase (lower s) t = sameIgnoringCase s t := by
  rw [Bool.eq_iff_iff, sameIgnoringCase_iff, sameIgnoringCase_iff, lower_lower]

theorem key_eq (s : String) :
    Choice.key s = String.ofList ((lower s).toList.filter Char.isAlphanum) := by
  rw [Choice.key, lower, String.toList_ofList, List.filter_map]
  refine congrArg (fun p => String.ofList ((s.toList.filter p).map Char.toLower)) ?_
  funext c
  exact (isAlphanum_toLower c).symm

/-- A text that says `auto`, in any case and between blanks. -/
def SaysAuto (s : String) : Prop :=
  ∃ before word after, s = before ++ word ++ after ∧ isBlankText before = true ∧
    sameIgnoringCase word "auto" = true ∧ isBlankText after = true

theorem SaysAuto.sameIgnoringCase_trim {s : String} (h : SaysAuto s) :
    sameIgnoringCase (trim s) "auto" = true := by
  obtain ⟨before, word, after, rfl, hbefore, hword, hafter⟩ := h
  have hchars : word.toList.map Char.toLower = ['a', 'u', 't', 'o'] := by
    simpa [sameIgnoringCase] using hword
  have hblank : ∀ c ∈ word.toList, isBlank c = false := by
    intro c hc
    rw [← Bool.not_eq_true]
    intro hcblank
    have hmem : c.toLower ∈ ['a', 'u', 't', 'o'] := hchars ▸ List.mem_map_of_mem hc
    have hletter : c.toLower.isAlphanum = true :=
      List.all_eq_true.1 (by decide : ['a', 'u', 't', 'o'].all Char.isAlphanum = true) _ hmem
    rw [isAlphanum_toLower, isAlphanum_of_isBlank hcblank] at hletter
    cases hletter
  rwa [trim, String.toList_append, String.toList_append,
    trimChars_append (List.all_eq_true.1 hbefore) (fun c hc => hblank c (List.mem_of_mem_head? hc))
      (fun c hc => hblank c (List.mem_of_mem_getLast? hc)) (List.all_eq_true.1 hafter),
    String.ofList_toList]

end Text

/-! ## Rewriting -/

/-- How a value of a document may be written. -/
inductive Form where
  /-- A text that spells a member of a choice, in either of its spellings. -/
  | choice (spellings : List (String × String))
  /-- A text that spells a known metric, or a text that does not. -/
  | metric
  /-- A text whose case does not matter. -/
  | word
  /-- A text that says `auto`, or a number. -/
  | auto
  /-- A text that says `auto`, one number, or a list of numbers. -/
  | lags
  /-- A text, or a list of texts. -/
  | texts
  /-- A table of fields, some of which have a default. -/
  | record (fields : List (String × Form)) (defaults : List (String × Node))
  /-- A table of values under any keys. -/
  | dict (form : Form)

/-- The text is written in the other spelling, in another case, or with one separator more. -/
inductive Respells (spellings : List (String × String)) : String → String → Prop
  | wire {doc wire : String} (h : (doc, wire) ∈ spellings) : Respells spellings doc wire
  | case {s t : String} (h : Text.sameIgnoringCase s t = true) : Respells spellings s t
  | separator {s t : String} {c : Char} (hc : Choice.isSeparator c = true) :
      Respells spellings (s ++ t) (s ++ String.singleton c ++ t)

/-- The spellings of a choice in documents and payloads. -/
def Choice.spellings (α : Type) [Choice α] : List (String × String) :=
  (Choice.all : List α).map fun a => (Choice.doc a, Choice.wire a)

/-- A value, or one somewhere in it, is written in another way, or left out with its default; no key
stands in a table twice. -/
inductive Node.Rewrites : Form → Node → Node → Prop
  | choice {spellings : List (String × String)} {s t : String} (h : Respells spellings s t) :
      Rewrites (.choice spellings) (.text s) (.text t)
  | metric {s t : String} {m : ForecastingMetric} (hm : Metric.parse (some s) = .ok (.concrete m))
      (h : Respells (Choice.spellings ForecastingMetric) s t) : Rewrites .metric (.text s) (.text t)
  | word {s t : String} (h : Text.sameIgnoringCase s t = true) :
      Rewrites .word (.text s) (.text t)
  | auto {s t : String} (hs : Text.SaysAuto s) (ht : Text.SaysAuto t) :
      Rewrites .auto (.text s) (.text t)
  | autoLags {s t : String} (hs : Text.SaysAuto s) (ht : Text.SaysAuto t) :
      Rewrites .lags (.text s) (.text t)
  | lag {i : Int64} : Rewrites .lags (.list [.int i]) (.int i)
  | text {s : String} : Rewrites .texts (.list [.text s]) (.text s)
  | field {fields : List (String × Form)} {defaults es₁ es₂ : List (String × Node)} {k : String}
      {form : Form} {n n' : Node} (hk : (k, form) ∈ fields) (h : Rewrites form n n') :
      Rewrites (.record fields defaults) (.table (es₁ ++ (k, n) :: es₂))
        (.table (es₁ ++ (k, n') :: es₂))
  | default {fields : List (String × Form)} {defaults es₁ es₂ : List (String × Node)} {k : String}
      {n : Node} (hn : (k, n) ∈ defaults) (hk : k ∉ keysOf (es₁ ++ es₂)) :
      Rewrites (.record fields defaults) (.table (es₁ ++ (k, n) :: es₂)) (.table (es₁ ++ es₂))
  | value {form : Form} {es₁ es₂ : List (String × Node)} {k : String} {n n' : Node}
      (h : Rewrites form n n') :
      Rewrites (.dict form) (.table (es₁ ++ (k, n) :: es₂)) (.table (es₁ ++ (k, n') :: es₂))

/-! ## Spellings -/

/-- A text in another spelling is read as the same member. -/
theorem Respells.parse_iff {α : Type} [Choice α] [DecidableEq α] [LawfulChoice α] {s t : String}
    (h : Respells (Choice.spellings α) s t) (a : α) :
    Choice.parse s = .ok a ↔ Choice.parse t = .ok a := by
  cases h with
  | wire h =>
    obtain ⟨b, -, hb⟩ := List.mem_map.1 h
    cases hb
    rw [Choice.parse_doc, Choice.parse_wire]
  | case h =>
    have hkey : Choice.key s = Choice.key t := by
      rw [Text.key_eq, Text.key_eq, Text.sameIgnoringCase_iff.1 h]
    exact ⟨Choice.parse_of_key_eq hkey, Choice.parse_of_key_eq hkey.symm⟩
  | @separator s t c hc =>
    have halphanum : c.isAlphanum = false := by
      rw [← Bool.not_eq_true]
      intro h
      rw [Choice.isSeparator_of_isAlphanum h] at hc
      cases hc
    have hkey : Choice.key (s ++ t) = Choice.key (s ++ String.singleton c ++ t) := by
      simp [Choice.key, halphanum]
    exact ⟨Choice.parse_of_key_eq hkey, Choice.parse_of_key_eq hkey.symm⟩

variable {ρ α : Type}

/-! ## Values -/

theorem readAuto_of_saysAuto {s : String} (h : Text.SaysAuto s) (a : α) : readAuto s a = .ok a :=
  if_pos h.sameIgnoringCase_trim

/-- A value that is rewritten is read as before, but for what is folded. -/
def Codec.Forgives (c : Codec α) (fold : α → α) (form : Form) : Prop :=
  ∀ ⦃n n'⦄, Node.Rewrites form n n' → Alike fold (c.read n.toTree) (c.read n'.toTree)

namespace Codec

theorem choice_forgives [Choice α] [DecidableEq α] [LawfulChoice α] :
    (choice : Codec α).Forgives id (.choice (Choice.spellings α)) := by
  have hread : ∀ (s : String) (a : α),
      choice.read (.text s) = .ok a ↔ Choice.parse s = .ok a := by
    intro s a
    simp only [choice, text, Except.ok_bind]
    cases (Choice.parse s : Except Choice.Unknown α) <;> simp
  intro n n' h
  cases h with
  | choice h =>
    rw [Except.alike_id_iff]
    intro a
    exact (hread _ a).trans ((h.parse_iff a).trans (hread _ a).symm)

theorem word_forgives : text.Forgives Text.lower .word := by
  intro n n' h
  cases h with
  | word h => exact congrArg some (Text.sameIgnoringCase_iff.1 h)

theorem auto_forgives : AutoOr.codec.Forgives id .auto := by
  intro n n' h
  cases h with
  | auto hs ht =>
    simp only [Node.toTree, AutoOr.codec, readAuto_of_saysAuto hs, readAuto_of_saysAuto ht]
    rfl

theorem lags_forgives : TargetLags.codec.Forgives id .lags := by
  intro n n' h
  cases h with
  | autoLags hs ht =>
    simp only [Node.toTree, TargetLags.codec, readAuto_of_saysAuto hs, readAuto_of_saysAuto ht]
    rfl
  | @lag i =>
    simp only [Node.toTree, nodeTrees, TargetLags.codec, listOf, List.mapM_cons, List.mapM_nil]
    cases int32.read (.int i.toInt) with
    | error e => rfl
    | ok lag => rfl

theorem texts_forgives : oneOrMany.Forgives id .texts := by
  intro n n' h
  cases h with
  | text => rfl

variable {c : Codec α} {fold : α → α} {form : Form}

theorem Forgives.nullable (h : c.Forgives fold form) :
    c.nullable.Forgives (Option.map fold) form := by
  intro n n' hn
  rw [nullable_read_of_ne_null n.toTree_ne_null, nullable_read_of_ne_null n'.toTree_ne_null]
  exact (h hn).map fun _ _ => congrArg some

end Codec

/-! ## Fields -/

namespace Field

/-- What is folded in a record does not matter to the field that is read into it. -/
def Respects (fold : ρ → ρ) (f : Field ρ) : Prop :=
  ∀ t z z', fold z = fold z' → Alike fold (f.read t z) (f.read t z')

/-- A value that is rewritten is read into the field as before, but for what is folded. -/
def Forgives (fold : ρ → ρ) (f : Field ρ) (form : Form) : Prop :=
  ∀ ⦃n n'⦄, Node.Rewrites form n n' → ∀ z, Alike fold (f.read n.toTree z) (f.read n'.toTree z)

/-- The field need not be there, and the value is what it is without one, but for what is folded. -/
def Defaults (fold : ρ → ρ) (blank : ρ) (f : Field ρ) (n : Node) : Prop :=
  f.required = false ∧ ∀ z, f.write z = f.write blank →
    ∃ z', f.read n.toTree z = .ok z' ∧ fold z' = fold z

theorem respects_id (f : Field ρ) : f.Respects id := by
  rintro t z _ rfl
  exact .refl _

variable {f : Field ρ} {σ : Type} {read : Tree → Except Fault σ} {set : σ → ρ → ρ}
  {fold : ρ → ρ}

theorem respects_of_set (g : σ → σ) (hf : ∀ t z, f.read t z = (read t).map (set · z))
    (hs : ∀ v z, fold (set v z) = set (g v) (fold z)) : f.Respects fold := by
  intro t z z' hz
  rw [hf, hf]
  refine (Alike.refl (f := id) (read t)).map fun v w hvw => ?_
  rw [hs, hs, hz, show v = w from hvw]

theorem forgives_of_set {g : σ → σ} {form : Form}
    (hread : ∀ ⦃n n'⦄, Node.Rewrites form n n' → Alike g (read n.toTree) (read n'.toTree))
    (hf : ∀ t z, f.read t z = (read t).map (set · z))
    (hs : ∀ v z, fold (set v z) = set (g v) (fold z)) : f.Forgives fold form := by
  intro n n' hn z
  rw [hf, hf]
  refine (hread hn).map fun v w hvw => ?_
  rw [hs, hs, hvw]

theorem defaults_of_set (get : ρ → σ) {blank : ρ} {n : Node} {g : σ → σ} {v : σ}
    (hread : read n.toTree = .ok v) (hv : g v = g (get blank)) (hrequired : f.required = false)
    (hf : ∀ t z, f.read t z = (read t).map (set · z))
    (hw : ∀ z, f.write z = f.write blank → get z = get blank)
    (hs : ∀ v z, fold (set v z) = set (g v) (fold z))
    (hget : ∀ z, set (g (get z)) (fold z) = fold z) :
    f.Defaults fold blank n := by
  refine ⟨hrequired, fun z hz => ⟨set v z, ?_, ?_⟩⟩
  · rw [hf, hread]
    rfl
  · rw [hs, hv, ← hw z hz, hget]

section Kinds

variable {name : String} {c : Codec α} {form : Form}

@[simp] theorem forgives_optional {get : ρ → Option α} {set : Option α → ρ → ρ}
    (h : c.Forgives id form) (hs : ∀ v z, fold (set v z) = set v (fold z)) :
    (optional name c get set).Forgives fold form := by
  have hread := h.nullable
  rw [Option.map_id] at hread
  exact forgives_of_set hread (fun _ _ => rfl) hs

@[simp] theorem forgives_defaulted {get : ρ → α} {set : α → ρ → ρ} (h : c.Forgives id form)
    (hs : ∀ v z, fold (set v z) = set v (fold z)) :
    (defaulted name c get set).Forgives fold form :=
  forgives_of_set h (fun _ _ => rfl) hs

@[simp] theorem forgives_given {get : ρ → Option α} {set : Option α → ρ → ρ}
    (h : c.Forgives id form) (hs : ∀ v z, fold (set v z) = set v (fold z)) :
    (given name c get set).Forgives fold form :=
  @forgives_of_set _ _ _ _ (fun v => set (some v)) _ _ _ h (fun _ _ => rfl) fun v z =>
    hs (some v) z

variable {blank : ρ}

theorem defaults_defaulted [c.Injective] {get : ρ → α} {set : α → ρ → ρ} (g : α → α) {n : Node}
    {v : α} (hread : c.read n.toTree = .ok v) (hv : g v = g (get blank))
    (hs : ∀ v z, fold (set v z) = set (g v) (fold z))
    (hget : ∀ z, set (g (get z)) (fold z) = fold z) :
    (defaulted name c get set).Defaults fold blank n :=
  defaults_of_set get hread hv rfl (fun _ _ => rfl) (fun _ => write_defaulted_inj.1) hs hget

/-- A dictionary without keys is the default of one. -/
theorem defaults_dict [c.Injective] {get : ρ → Dict α} {set : Dict α → ρ → ρ}
    (hb : get blank = .empty) (hs : ∀ v z, fold (set v z) = set v (fold z))
    (hget : ∀ z, set (get z) (fold z) = fold z) :
    (dict name c get set).Defaults fold blank (.table []) :=
  defaults_of_set get (g := id) (v := .empty) rfl hb.symm rfl (fun _ _ => rfl)
    (fun _ => write_dict_inj.1) hs hget

end Kinds

end Field

/-! ## Records -/

namespace Record

variable {r : Record ρ} {fold : ρ → ρ} {es es₁ es₂ : List (Option String × Tree)}
  {seen seen' : List String} {x x' : ρ} {k : String} {t t' : Tree}

/-- Reads the rest of a table into a record, given the names read before. -/
def readRest (r : Record ρ) (es : List (Option String × Tree)) (seen : List String) (x : ρ) :
    Except Fault ρ := do
  let (seen, x) ← r.readEntries es seen x
  match r.fields.find? fun f => f.required && !seen.contains f.name with
  | some f => .error (.missingField f.name)
  | none => .ok x

theorem readTable_eq_readRest : r.readTable es = r.readRest es [] r.blank :=
  rfl

theorem readRest_of_find?_eq_some {f : Field ρ} (hf : r.fields.find? (·.name == k) = some f) :
    r.readRest ((some k, t) :: es) seen x =
      if seen.contains k then .error (.duplicateField k)
      else f.read t x >>= r.readRest es (k :: seen) := by
  rw [readRest, readEntries]
  simp only [hf]
  split
  · rfl
  · exact bind_assoc _ _ _

theorem readRest_of_find?_eq_none (hf : r.fields.find? (·.name == k) = none) :
    r.readRest ((some k, t) :: es) seen x =
      if r.closed then .error (.unknownField k)
      else if t.isIntact then r.readRest es seen x
      else .error .malformed := by
  rw [readRest, readEntries]
  simp only [hf]
  split
  · rfl
  · split <;> rfl

/-- It does not matter to the rest whether the name was read before, which is that of none of its
entries and of no field that must be there. -/
def Ignores (r : Record ρ) (es : List (Option String × Tree)) (k : String) : Prop :=
  (∀ t, (some k, t) ∉ es) ∧ ∀ f ∈ r.fields, f.name = k → f.required = false

/-- The rest of a table is read alike into records that are the same when they are folded. -/
theorem readRest_alike (hr : ∀ f ∈ r.fields, f.Respects fold)
    (hseen : ∀ k, r.Ignores es k ∨ (k ∈ seen ↔ k ∈ seen')) (hx : fold x = fold x') :
    Alike fold (r.readRest es seen x) (r.readRest es seen' x') := by
  induction es generalizing seen seen' x x' with
  | nil =>
    have hmissing : ∀ f ∈ r.fields, (f.required && !seen.contains f.name) =
        (f.required && !seen'.contains f.name) := by
      intro f hf
      rcases hseen f.name with ⟨-, hrequired⟩ | hiff
      · rw [hrequired f hf rfl, Bool.false_and, Bool.false_and]
      · simp [hiff]
    simp only [readRest, readEntries, Except.ok_bind, List.find?_congr hmissing]
    split
    · rfl
    · exact congrArg some hx
  | cons e es ih =>
    obtain ⟨_ | k, t⟩ := e
    · rfl
    · have hlater : ∀ l, r.Ignores ((some k, t) :: es) l → r.Ignores es l :=
        fun l h => ⟨fun u hu => h.1 u (List.mem_cons_of_mem _ hu), h.2⟩
      cases hf : r.fields.find? (·.name == k) with
      | some f =>
        have hk : k ∈ seen ↔ k ∈ seen' := by
          rcases hseen k with ⟨hno, -⟩ | hiff
          · exact absurd List.mem_cons_self (hno t)
          · exact hiff
        have hcontains : seen.contains k = seen'.contains k := by
          simp [hk]
        rw [readRest_of_find?_eq_some hf, readRest_of_find?_eq_some hf, hcontains]
        split
        · rfl
        · refine (hr f (List.mem_of_find?_eq_some hf) t x x' hx).bind fun z z' hz => ih ?_ hz
          intro l
          refine (hseen l).imp (hlater l) fun hiff => ?_
          rw [List.mem_cons, List.mem_cons, hiff]
      | none =>
        rw [readRest_of_find?_eq_none hf, readRest_of_find?_eq_none hf]
        split
        · rfl
        · split
          · exact ih (fun l => (hseen l).imp_left (hlater l)) hx
          · rfl

theorem readRest_append : r.readRest (es₁ ++ es₂) seen x =
    r.readEntries es₁ seen x >>= fun out => r.readRest es₂ out.1 out.2 := by
  induction es₁ generalizing seen x with
  | nil => rfl
  | cons e es₁ ih =>
    obtain ⟨_ | k, t⟩ := e
    · rfl
    · rw [List.cons_append, readEntries]
      cases hf : r.fields.find? (·.name == k) with
      | some f =>
        rw [readRest_of_find?_eq_some hf]
        split
        · rfl
        · simp only [bind_assoc]
          exact bind_congr fun _ => ih
      | none =>
        rw [readRest_of_find?_eq_none hf]
        split
        · rfl
        · split
          · exact ih
          · rfl

/-- An entry that the field of its name reads alike is read alike, and so is one that is skipped. -/
theorem readRest_entry (hr : ∀ f ∈ r.fields, f.Respects fold)
    (hread : ∀ f ∈ r.fields, f.name = k → ∀ z, Alike fold (f.read t z) (f.read t' z))
    (ht : t.isIntact = true) (ht' : t'.isIntact = true) :
    Alike fold (r.readRest (es₁ ++ (some k, t) :: es₂) seen x)
      (r.readRest (es₁ ++ (some k, t') :: es₂) seen x) := by
  rw [readRest_append, readRest_append]
  cases r.readEntries es₁ seen x with
  | error e => rfl
  | ok out =>
    obtain ⟨seen, x⟩ := out
    rw [Except.ok_bind, Except.ok_bind]
    cases hf : r.fields.find? (·.name == k) with
    | some f =>
      have hname : f.name = k := by simpa using List.find?_some hf
      have halike := hread f (List.mem_of_find?_eq_some hf) hname x
      rw [readRest_of_find?_eq_some hf, readRest_of_find?_eq_some hf]
      split
      · rfl
      · exact halike.bind fun z z' hz => readRest_alike hr (fun _ => .inr Iff.rfl) hz
    | none =>
      rw [readRest_of_find?_eq_none hf, readRest_of_find?_eq_none hf, ht, ht']
      exact .refl _

/-- An entry with the default of its field makes no difference. -/
theorem readRest_default [r.Lawful] (hr : ∀ f ∈ r.fields, f.Respects fold) {f : Field ρ}
    (hf : f ∈ r.fields) {n : Node} (hn : f.Defaults fold r.blank n)
    (h₁ : ∀ t, (some f.name, t) ∉ es₁) (h₂ : ∀ t, (some f.name, t) ∉ es₂) :
    Alike fold (r.readRest (es₁ ++ (some f.name, n.toTree) :: es₂) [] r.blank)
      (r.readRest (es₁ ++ es₂) [] r.blank) := by
  rw [readRest_append, readRest_append]
  cases hread : r.readEntries es₁ [] r.blank with
  | error e => rfl
  | ok out =>
    -- the field has not been read before, and so is as in the blank record
    have hblank := (field_of_readEntries hf hread).1 h₁
    have hseen : out.1.contains f.name = false := by
      rw [← Bool.not_eq_true, List.contains_iff_mem]
      intro hmem
      rcases exists_entry_of_mem_seen hread hmem with hno | ⟨t, ht⟩
      · exact List.not_mem_nil hno
      · exact h₁ t ht
    obtain ⟨hrequired, hdefault⟩ := hn
    obtain ⟨z, hz, hfold⟩ := hdefault out.2 hblank
    rw [Except.ok_bind, Except.ok_bind, readRest_of_find?_eq_some (find?_name hf), hseen, hz]
    refine readRest_alike hr (fun k => ?_) hfold
    by_cases hk : k = f.name
    · subst hk
      exact .inl ⟨h₂, fun g hg hname => eq_of_name_eq hf hg hname.symm ▸ hrequired⟩
    · exact .inr (by simp [hk])

/-- A record is read as before when a value in its table is rewritten and its field forgives that,
or when it is left out and was the default. -/
theorem forgives [r.Lawful] (hr : ∀ f ∈ r.fields, f.Respects fold)
    {fields : List (String × Form)} {defaults : List (String × Node)}
    (hfields : ∀ f ∈ r.fields, ∀ form, (f.name, form) ∈ fields → f.Forgives fold form)
    (hdefaults : ∀ e ∈ defaults, ∃ f ∈ r.fields, f.name = e.1 ∧ f.Defaults fold r.blank e.2) :
    r.codec.Forgives fold (.record fields defaults) := by
  intro n n' h
  cases h with
  | @field _ _ es₁ es₂ k form n n' hk h =>
    show Alike fold (r.readTable (entryTrees (es₁ ++ (k, n) :: es₂)))
      (r.readTable (entryTrees (es₁ ++ (k, n') :: es₂)))
    rw [readTable_eq_readRest, readTable_eq_readRest, entryTrees_eq, entryTrees_eq,
      List.map_append, List.map_append]
    refine readRest_entry hr ?_ ?_ ?_
    · exact fun f hf hfk => hfields f hf form (hfk ▸ hk) h
    · exact Tree.isIntact_of_isReadable n.isReadable_toTree
    · exact Tree.isIntact_of_isReadable n'.isReadable_toTree
  | @default _ _ es₁ es₂ k n hn hk =>
    obtain ⟨f, hf, rfl, hdefault⟩ := hdefaults _ hn
    rw [keysOf, List.map_append, List.mem_append, not_or] at hk
    show Alike fold (r.readTable (entryTrees (es₁ ++ (f.name, n) :: es₂)))
      (r.readTable (entryTrees (es₁ ++ es₂)))
    have h₁ := notMem_entryTrees hk.1
    have h₂ := notMem_entryTrees hk.2
    rw [entryTrees_eq] at h₁ h₂
    rw [readTable_eq_readRest, readTable_eq_readRest, entryTrees_eq, entryTrees_eq,
      List.map_append, List.map_append]
    exact readRest_default hr hf hdefault h₁ h₂

/-- A record in which nothing is folded and no field has a default. -/
theorem forgives_id [r.Lawful] {fields : List (String × Form)}
    (hfields : ∀ f ∈ r.fields, ∀ form, (f.name, form) ∈ fields → f.Forgives id form) :
    r.codec.Forgives id (.record fields []) :=
  forgives (fun f _ => f.respects_id) hfields (List.forall_mem_nil _)

end Record

/-! ## Dictionaries -/

namespace Codec

variable {c : Codec α} {form : Form}

theorem Forgives.dictOf (h : c.Forgives id form) : c.dictOf.Forgives id (.dict form) := by
  intro n n' hn
  cases hn with
  | @value _ es₁ es₂ k n n' hn =>
    show Alike id (c.readEntries (entryTrees (es₁ ++ (k, n) :: es₂)) .empty)
      (c.readEntries (entryTrees (es₁ ++ (k, n') :: es₂)) .empty)
    generalize Dict.empty = d
    induction es₁ generalizing d with
    | nil =>
      refine (h hn).bind fun x y hxy => ?_
      rw [show x = y from hxy]
      exact .refl _
    | cons e es₁ ih =>
      refine (Alike.refl (f := id) (c.read e.2.toTree)).bind fun x y hxy => ?_
      rw [show x = y from hxy]
      exact ih _

end Codec

end ForecastJob
