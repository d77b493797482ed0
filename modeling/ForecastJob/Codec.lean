import ForecastJob.Fault
import ForecastJob.Tree

/-!
# Codecs: one description for reading and writing

* `Codec` : how a value is read from a tree and written as JSON;
* the codecs of texts, truth values, numbers, choices, lists, dictionaries and free-form data;
* `Codec.nullable` : null stands for no value;
* `Tree.toJson?`, `Tree.isNormal_of_toJson?` : the free-form data in a tree is in normal form.
-/

namespace ForecastJob

/-- How a value is read from a tree and written as JSON. -/
structure Codec (α : Type) where
  read : Tree → Except Fault α
  write : α → Json

/-! ## Free-form data -/

mutual

/-- The free-form data of a tree; numbers that are not finite become null. -/
def Tree.toJson? : Tree → Option Json
  | .null => some .null
  | .bool b => some (.bool b)
  | .int i => if Json.inRange i then some (.int i) else none
  | .float x => some (Json.ofFloat x)
  | .text s => some (.text s)
  | .list items => (itemsToJson? items).map .list
  | .table entries => (entriesToJson? entries []).map .object
  | .unreadable => none
  | .broken => none

def itemsToJson? : List Tree → Option (List Json)
  | [] => some []
  | t :: ts => do
    let v ← t.toJson?
    let vs ← itemsToJson? ts
    some (v :: vs)

/-- The free-form data of the entries, put into the members read before; of two values under one
key the later one stays. -/
def entriesToJson? : List (Option String × Tree) → List (String × Json) →
    Option (List (String × Json))
  | [], members => some members
  | (none, _) :: _, _ => none
  | (some k, t) :: es, members => do
    let v ← t.toJson?
    entriesToJson? es (insertEntry k v members)

end

theorem Json.isNormal_ofFloat (x : Float) : (Json.ofFloat x).isNormal = true := by
  unfold Json.ofFloat
  split <;> simp_all [Json.isNormal]

theorem Json.membersAreNormal_insertEntry {k : String} {v : Json} (hv : v.isNormal = true)
    {members : List (String × Json)} (h : Json.membersAreNormal members = true) :
    Json.membersAreNormal (insertEntry k v members) = true := by
  induction members with
  | nil => simp [insertEntry, Json.membersAreNormal, hv]
  | cons m ms ih =>
    obtain ⟨k', v'⟩ := m
    simp only [Json.membersAreNormal, Bool.and_eq_true] at h
    unfold insertEntry
    split
    · simp [Json.membersAreNormal, hv, h]
    · split
      · simp [Json.membersAreNormal, hv, h]
      · simp [Json.membersAreNormal, h, ih h.2]

mutual

theorem Tree.isNormal_of_toJson? : ∀ {t : Tree} {v : Json}, t.toJson? = some v →
    v.isNormal = true
  | .null, _, h => by cases h; rfl
  | .bool _, _, h => by cases h; rfl
  | .int i, _, h => by
    simp only [Tree.toJson?] at h
    split at h
    · cases h; simpa [Json.isNormal]
    · cases h
  | .float x, _, h => by cases h; exact Json.isNormal_ofFloat x
  | .text _, _, h => by cases h; rfl
  | .list items, _, h => by
    obtain ⟨vs, hvs, rfl⟩ := Option.map_eq_some_iff.1 (by simpa [Tree.toJson?] using h)
    simpa [Json.isNormal] using areNormal_of_itemsToJson? hvs
  | .table entries, _, h => by
    obtain ⟨ms, hms, rfl⟩ := Option.map_eq_some_iff.1 (by simpa [Tree.toJson?] using h)
    simpa [Json.isNormal] using normal_of_entriesToJson? List.Pairwise.nil rfl hms
  | .unreadable, _, h => by cases h
  | .broken, _, h => by cases h

theorem areNormal_of_itemsToJson? : ∀ {ts : List Tree} {vs : List Json},
    itemsToJson? ts = some vs → Json.areNormal vs = true
  | [], _, h => by cases h; rfl
  | t :: ts, _, h => by
    simp only [itemsToJson?, Option.bind_eq_bind, Option.bind_eq_some_iff] at h
    obtain ⟨v, hv, vs, hvs, h⟩ := h
    cases h
    simp [Json.areNormal, Tree.isNormal_of_toJson? hv, areNormal_of_itemsToJson? hvs]

theorem normal_of_entriesToJson? : ∀ {es : List (Option String × Tree)}
    {members ms : List (String × Json)}, Ascending members →
    Json.membersAreNormal members = true → entriesToJson? es members = some ms →
    Ascending ms ∧ Json.membersAreNormal ms = true
  | [], _, _, ha, hn, h => by cases h; exact ⟨ha, hn⟩
  | (none, _) :: _, _, _, _, _, h => by cases h
  | (some k, t) :: es, _, _, ha, hn, h => by
    simp only [entriesToJson?, Option.bind_eq_bind, Option.bind_eq_some_iff] at h
    obtain ⟨v, hv, h⟩ := h
    exact normal_of_entriesToJson? ha.insertEntry
      (Json.membersAreNormal_insertEntry (Tree.isNormal_of_toJson? hv) hn) h

end

def FreeForm.read (t : Tree) : Except Fault FreeForm :=
  match h : t.toJson? with
  | some v => .ok ⟨v, Tree.isNormal_of_toJson? h⟩
  | none => .error .malformed

namespace Codec

/-! ## Scalars -/

def text : Codec String where
  read
    | .text s => .ok s
    | _ => .error .malformed
  write := .text

def bool : Codec Bool where
  read
    | .bool b => .ok b
    | _ => .error .malformed
  write := .bool

/-- A floating point number; an integer will do. -/
def float : Codec Float where
  read
    | .float x => .ok x
    | .int i => .ok (Float.ofInt i)
    | _ => .error .malformed
  write := .float

def uint32 : Codec UInt32 where
  read
    | .int i => if 0 ≤ i && i < UInt32.size then .ok (UInt32.ofNat i.toNat) else .error .malformed
    | _ => .error .malformed
  write n := .int n.toNat

def uint64 : Codec UInt64 where
  read
    | .int i => if 0 ≤ i && i < UInt64.size then .ok (UInt64.ofNat i.toNat) else .error .malformed
    | _ => .error .malformed
  write n := .int n.toNat

def int32 : Codec Int32 where
  read
    | .int i =>
      if Int32.minValue.toInt ≤ i && i ≤ Int32.maxValue.toInt then .ok (Int32.ofInt i)
      else .error .malformed
    | _ => .error .malformed
  write n := .int n.toInt

def int64 : Codec Int64 where
  read
    | .int i =>
      if Int64.minValue.toInt ≤ i && i ≤ Int64.maxValue.toInt then .ok (Int64.ofInt i)
      else .error .malformed
    | _ => .error .malformed
  write n := .int n.toInt

/-- A member of a choice, in its document spelling. -/
def choice {α : Type} [Choice α] : Codec α where
  read t := do
    match Choice.parse (← text.read t) with
    | .ok a => .ok a
    | .error e => .error (.unknownChoice e)
  write a := .text (Choice.doc a)

def freeForm : Codec FreeForm where
  read := FreeForm.read
  write v := v.json

/-! ## Collections -/

/-- Null stands for no value. -/
def nullable {α : Type} (c : Codec α) : Codec (Option α) where
  read
    | .null => .ok none
    | t => (c.read t).map some
  write
    | none => .null
    | some x => c.write x

def listOf {α : Type} (c : Codec α) : Codec (List α) where
  read
    | .list items => items.mapM c.read
    | _ => .error .malformed
  write xs := .list (xs.map c.write)

def readEntries {α : Type} (c : Codec α) : List (Option String × Tree) → Dict α →
    Except Fault (Dict α)
  | [], d => .ok d
  | (none, _) :: _, _ => .error .malformed
  | (some k, t) :: es, d => do
    let x ← c.read t
    c.readEntries es (d.insert k x)

/-- A dictionary; of two values under one key the later one stays. -/
def dictOf {α : Type} (c : Codec α) : Codec (Dict α) where
  read
    | .table entries => c.readEntries entries .empty
    | _ => .error .malformed
  write d := .object (d.entries.map fun e => (e.1, c.write e.2))

/-- A list of texts; a single text will do for a list of one. -/
def oneOrMany : Codec (List String) where
  read
    | .text s => .ok [s]
    | t => ((listOf text).read t).mapError fun _ => .malformed
  write := (listOf text).write

end Codec

end ForecastJob
