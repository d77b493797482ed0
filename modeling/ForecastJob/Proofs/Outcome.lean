import Mathlib.Logic.Basic

/-!
# Computations that can fail

* `Except.bind_eq_ok`, `Except.map_eq_ok`, `Except.mapError_eq_ok` : a computation succeeds if its
  parts do;
* `Except.mapM_option_eq_ok` : so does one on a value that may not be there;
* `Except.Reports` : a computation stops at the first fault of a list, and succeeds without faults.
-/

namespace Except

variable {ε ε' α β : Type}

@[simp] theorem ok_bind (a : α) (f : α → Except ε β) : (.ok a >>= f) = f a := rfl

@[simp] theorem map_ok' (a : α) (f : α → β) : (Except.ok a : Except ε α).map f = .ok (f a) := rfl

@[simp] theorem mapError_ok (a : α) (f : ε → ε') : (Except.ok a : Except ε α).mapError f = .ok a :=
  rfl

@[simp] theorem pure_eq_ok {a b : α} : (pure a : Except ε α) = .ok b ↔ a = b :=
  Except.ok.injEq a b ▸ Iff.rfl

theorem bind_eq_ok {x : Except ε α} {f : α → Except ε β} {b : β} :
    x >>= f = .ok b ↔ ∃ a, x = .ok a ∧ f a = .ok b := by
  cases x with
  | error e => simp [bind, Except.bind]
  | ok a => simp

theorem map_eq_ok {x : Except ε α} {f : α → β} {b : β} :
    x.map f = .ok b ↔ ∃ a, x = .ok a ∧ f a = b := by
  cases x with
  | error e => simp [Except.map]
  | ok a => simp

theorem fmap_eq_ok {x : Except ε α} {f : α → β} {b : β} :
    f <$> x = .ok b ↔ ∃ a, x = .ok a ∧ f a = b :=
  map_eq_ok

theorem mapError_eq_ok {x : Except ε α} {f : ε → ε'} {a : α} :
    x.mapError f = .ok a ↔ x = .ok a := by
  cases x with
  | error e => constructor <;> intro h <;> cases h
  | ok b => simp

theorem mapError_bind {x : Except ε α} {f : α → Except ε β} {g : ε → ε'} :
    (x >>= f).mapError g = x.mapError g >>= fun a => (f a).mapError g := by
  cases x <;> rfl

theorem mapM_option_eq_ok {f : α → Except ε β} {o : Option α} {o' : Option β} :
    o.mapM f = .ok o' ↔
      (o = none ∧ o' = none) ∨ ∃ a b, o = some a ∧ f a = .ok b ∧ o' = some b := by
  cases o with
  | none =>
    rw [Option.mapM_none, pure_eq_ok]
    simp [eq_comm]
  | some a =>
    cases h : f a with
    | error e => simp [Option.mapM_some, h, Functor.map, Except.map]
    | ok b => simp [Option.mapM_some, h, Functor.map, Except.map, eq_comm]

/-- What holds of a computation holds of it on a value that may not be there. -/
theorem map_of_mapM_option {γ : Type} {f : α → Except ε β} {g : β → γ} {k : α → γ} {o : Option α}
    {o' : Option β} (ho : o.mapM f = .ok o') (h : ∀ {a b}, f a = .ok b → g b = k a) :
    o'.map g = o.map k := by
  rcases mapM_option_eq_ok.1 ho with ⟨rfl, rfl⟩ | ⟨a, b, rfl, hb, rfl⟩
  · rfl
  · exact congrArg some (h hb)

theorem map_of_mapM_option_self {f : α → Except ε β} {g : β → α} {o : Option α} {o' : Option β}
    (ho : o.mapM f = .ok o') (h : ∀ {a b}, f a = .ok b → g b = a) : o'.map g = o := by
  rw [map_of_mapM_option ho h]
  exact Option.map_id'

theorem mapM_option_map_of_mem {f : β → Except ε α} {g : α → β} {o : Option α}
    (h : ∀ a ∈ o, f (g a) = .ok a) : (o.map g).mapM f = .ok o := by
  cases o with
  | none => rfl
  | some a => simp [Option.mapM_some, h a rfl, Functor.map, Except.map]

@[simp] theorem mapM_option_map {f : β → Except ε α} {g : α → β} (h : ∀ a, f (g a) = .ok a)
    (o : Option α) : (o.map g).mapM f = .ok o :=
  mapM_option_map_of_mem fun a _ => h a

theorem mapM_option_fmap {γ : Type} {f : α → Except ε β} {f' : α → Except ε γ} {g : β → γ}
    (h : ∀ a, f' a = g <$> f a) (o : Option α) : o.mapM f' = Option.map g <$> o.mapM f := by
  cases o with
  | none => rfl
  | some a =>
    rw [Option.mapM_some, Option.mapM_some, h, Functor.map_map, Functor.map_map]
    rfl

/-! ## Faults -/

/-- The computation succeeds if there are no faults, and fails with the first one otherwise. -/
def Reports (x : Except ε α) : List ε → Prop
  | [] => ∃ a, x = .ok a
  | e :: _ => x = .error e

namespace Reports

variable {x : Except ε α} {faults : List ε}

theorem ok (a : α) : (Except.ok a : Except ε α).Reports [] := ⟨a, rfl⟩

theorem exists_ok_iff (h : x.Reports faults) : (∃ a, x = .ok a) ↔ faults = [] := by
  cases faults with
  | nil => exact iff_of_true h rfl
  | cons e rest =>
    have he : x = .error e := h
    refine iff_of_false ?_ (List.cons_ne_nil e rest)
    rintro ⟨a, ha⟩
    rw [he] at ha
    cases ha

theorem eq_error_iff (h : x.Reports faults) (e : ε) : x = .error e ↔ faults.head? = some e := by
  cases faults with
  | nil =>
    obtain ⟨a, rfl⟩ := h
    exact iff_of_false nofun nofun
  | cons e' rest =>
    have he : x = .error e' := h
    rw [he, List.head?_cons, Option.some_inj, Except.error.injEq]

/-- What is done second is reached only if there was no fault before. -/
theorem bind {f : α → Except ε β} {rest : List (List ε)} (h : x.Reports faults)
    (hf : ∀ a, (f a).Reports rest.flatten) : (x >>= f).Reports (faults :: rest).flatten := by
  rw [List.flatten_cons]
  cases faults with
  | nil =>
    obtain ⟨a, rfl⟩ := h
    exact hf a
  | cons e es =>
    have he : x = .error e := h
    rw [he]
    rfl

theorem map {f : α → β} (h : x.Reports faults) : (x.map f).Reports faults := by
  cases faults with
  | nil =>
    obtain ⟨a, rfl⟩ := h
    exact ok (f a)
  | cons e es =>
    have he : x = .error e := h
    rw [he]
    rfl

theorem fmap {f : α → β} (h : x.Reports faults) : (f <$> x).Reports faults := h.map

/-- What follows a single step cannot fail. -/
theorem bind_ok {f : α → β} (h : x.Reports faults) :
    (x >>= fun a => .ok (f a)).Reports faults := by
  cases faults with
  | nil =>
    obtain ⟨a, rfl⟩ := h
    exact ok (f a)
  | cons e es =>
    have he : x = .error e := h
    rw [he]
    rfl

theorem mapM_option {f : α → Except ε β} {g : α → List ε} (h : ∀ a, (f a).Reports (g a))
    (o : Option α) : (o.mapM f).Reports (o.toList.flatMap g) := by
  cases o with
  | none => exact ok none
  | some a =>
    rw [Option.mapM_some, Option.toList_some, List.flatMap_singleton]
    exact (h a).fmap

end Reports

end Except
