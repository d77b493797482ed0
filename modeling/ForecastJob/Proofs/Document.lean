import ForecastJob.Document
import ForecastJob.Job.Binding
import ForecastJob.Proofs.Entries
import ForecastJob.Proofs.Leaves
import ForecastJob.Proofs.Trimming

/-!
# Documents and the values that they hold

* `Json.toTree_of_toNode?` : a value in a document is read as the JSON value that it stands for;
* `Tree.Short`, `Tree.Lossless` : scalars that a document can hold, and those that it holds as they
  are;
* `Node.within_toTree` : a document has short integers and no nulls;
* `Record.exists_value_of_readTable`, `Record.eq_none_iff_of_readTable` : a field of a record that
  was read from a document;
* `Node.eq_text_of_toTree` : what is read as a text that no date has is that text;
* `Json.exists_toNode?` : a value with short integers has a place in a document without its nulls.
-/

namespace ForecastJob

/-! ## Reading back -/

mutual

/-- A value in a document is read as the JSON value that it stands for. -/
theorem Json.toTree_of_toNode? : ∀ {v : Json} {n : Node}, v.toNode? = some n → n.toTree = v.toTree
  | .null, _, h => nomatch h
  | .bool _, _, h => by cases h; rfl
  | .int i, _, h => by
    simp only [toNode?, Node.int?] at h
    split at h
    · next hi =>
      cases h
      simp only [Bool.and_eq_true, decide_eq_true_eq] at hi
      rw [Node.toTree, Int64.toInt_ofInt_of_le hi.1 (Int.lt_add_one_of_le hi.2)]
      rfl
    · cases h
  | .float _, _, h => by cases h; rfl
  | .text _, _, h => by cases h; rfl
  | .list vs, _, h => by
    obtain ⟨ns, hns, rfl⟩ := Option.map_eq_some_iff.1 h
    rw [Node.toTree, toTree, itemTrees_of_jsonItemNodes? hns]
  | .object ms, _, h => by
    obtain ⟨es, hes, rfl⟩ := Option.map_eq_some_iff.1 h
    rw [Node.toTree, toTree, memberTrees_of_jsonMemberNodes? hes]

theorem Json.itemTrees_of_jsonItemNodes? : ∀ {vs : List Json} {ns : List Node},
    jsonItemNodes? vs = some ns → nodeTrees ns = itemTrees vs
  | [], _, h => by cases h; rfl
  | v :: vs, _, h => by
    obtain ⟨n, hn, h⟩ := Option.bind_eq_some_iff.1 h
    obtain ⟨ns, hns, h⟩ := Option.bind_eq_some_iff.1 h
    cases h
    rw [nodeTrees, itemTrees, toTree_of_toNode? hn, itemTrees_of_jsonItemNodes? hns]

theorem Json.memberTrees_of_jsonMemberNodes? : ∀ {ms : List (String × Json)}
    {es : List (String × Node)}, jsonMemberNodes? ms = some es → entryTrees es = memberTrees ms
  | [], _, h => by cases h; rfl
  | (k, v) :: ms, _, h => by
    obtain ⟨n, hn, h⟩ := Option.bind_eq_some_iff.1 h
    obtain ⟨es, hes, h⟩ := Option.bind_eq_some_iff.1 h
    cases h
    rw [entryTrees, memberTrees, toTree_of_toNode? hn, memberTrees_of_jsonMemberNodes? hes]

end

theorem nodeTrees_eq (ns : List Node) : nodeTrees ns = ns.map Node.toTree := by
  induction ns with
  | nil => rfl
  | cons n ns ih => rw [nodeTrees, ih, List.map_cons]

theorem entryTrees_eq (es : List (String × Node)) :
    entryTrees es = es.map fun e => (some e.1, e.2.toTree) := by
  induction es with
  | nil => rfl
  | cons e es ih => rw [entryTrees, ih, List.map_cons]

theorem mem_entryTrees {k : String} {t : Tree} {d : Document} :
    (some k, t) ∈ entryTrees d ↔ ∃ n, (k, n) ∈ d ∧ n.toTree = t := by
  rw [entryTrees_eq, List.mem_map]
  constructor
  · rintro ⟨⟨l, n⟩, hm, he⟩
    cases he
    exact ⟨n, hm, rfl⟩
  · rintro ⟨n, hm, rfl⟩
    exact ⟨(k, n), hm, rfl⟩

theorem notMem_entryTrees {k : String} {d : Document} (h : k ∉ keysOf d) (t : Tree) :
    (some k, t) ∉ entryTrees d := by
  intro ht
  obtain ⟨n, hn, -⟩ := mem_entryTrees.1 ht
  exact h (List.mem_map_of_mem hn)

mutual

/-- Whatever a document holds stands for a value. -/
theorem Node.isReadable_toTree : ∀ n : Node, n.toTree.isReadable = true
  | .bool _ => rfl
  | .int _ => rfl
  | .float _ => rfl
  | .text _ => rfl
  | .datetime _ => rfl
  | .list ns => areReadable_nodeTrees ns
  | .table es => entriesAreReadable_entryTrees es

theorem areReadable_nodeTrees : ∀ ns : List Node, areReadable (nodeTrees ns) = true
  | [] => rfl
  | n :: ns => by
    rw [nodeTrees, areReadable, n.isReadable_toTree, areReadable_nodeTrees ns, Bool.true_and]

theorem entriesAreReadable_entryTrees : ∀ es : List (String × Node),
    entriesAreReadable (entryTrees es) = true
  | [] => rfl
  | (k, n) :: es => by
    rw [entryTrees, entriesAreReadable, n.isReadable_toTree, entriesAreReadable_entryTrees es]
    rfl

end

theorem Node.toTree_ne_null (n : Node) : n.toTree ≠ .null := by
  cases n <;> nofun

/-! ## Fields -/

namespace Record

variable {ρ α : Type} {r : Record ρ} [r.Lawful] {name : String} {c : Codec α} [c.Injective]
  {get : ρ → Option α} {set : Option α → ρ → ρ} {d : Document} {y : ρ}

/-- A field that may not be there has the value of its entry in a document. -/
theorem exists_value_of_readTable (hf : .optional name c get set ∈ r.fields)
    (hs : ∀ v z, get (set v z) = v) (hb : get r.blank = none)
    (h : r.readTable (entryTrees d) = .ok y) {n : Node} (hn : (name, n) ∈ d) :
    ∃ x, get y = some x ∧ c.read n.toTree = .ok x := by
  obtain ⟨-, hin⟩ := optional_of_readTable hf hs hb h
  have hread := hin n.toTree (mem_entryTrees.2 ⟨n, hn, rfl⟩)
  rcases Codec.nullable_read_eq_ok hread with ⟨hnull, -⟩ | hvalue
  · exact absurd hnull n.toTree_ne_null
  · exact hvalue

theorem eq_none_iff_of_readTable (hf : .optional name c get set ∈ r.fields)
    (hs : ∀ v z, get (set v z) = v) (hb : get r.blank = none)
    (h : r.readTable (entryTrees d) = .ok y) : get y = none ↔ name ∉ keysOf d := by
  constructor
  · intro hnone hm
    obtain ⟨⟨name, n⟩, hn, rfl⟩ := List.mem_map.1 hm
    obtain ⟨x, hx, -⟩ := exists_value_of_readTable hf hs hb h hn
    rw [hnone] at hx
    cases hx
  · intro hm
    obtain ⟨hout, -⟩ := optional_of_readTable hf hs hb h
    exact hout (notMem_entryTrees hm)

end Record

/-! ## Scalars of documents -/

namespace Tree

/-- An integer has 64 bits and a sign. -/
def Short : Tree → Prop
  | .int i => Int64.minValue.toInt ≤ i ∧ i ≤ Int64.maxValue.toInt
  | _ => True

/-- The scalar takes the way of a document as it is. -/
def Lossless : Tree → Prop
  | .null => False
  | .float x => Decimal.isFinite x = true
  | t => t.Short

instance : Scalar Short where
  bool _ := trivial
  text _ := trivial
  int i hi := by
    simp only [Short, Int64.toInt_minValue, Int64.toInt_maxValue]
    omega
  ofInt _ _ := trivial
  ofFloat x _ := by
    unfold Json.ofFloat
    split
    · exact Tree.within_float.2 trivial
    · exact Tree.within_null.2 trivial

instance : Scalar Lossless where
  bool _ := trivial
  text _ := trivial
  int i hi := Scalar.int (P := Short) i hi
  ofInt i hi := by
    simp only [Lossless, Short, Int64.toInt_minValue, Int64.toInt_maxValue] at hi
    exact Decimal.isFinite_ofInt (by omega)
  ofFloat x hx := by
    have hx : Decimal.isFinite x = true := hx
    rw [Json.ofFloat, if_pos hx]
    exact Tree.within_float.2 hx

end Tree

mutual

/-- A document has short integers and no nulls. -/
theorem Node.within_toTree : ∀ n : Node, n.toTree.Within fun l => l.Short ∧ l ≠ .null
  | .bool _ => Tree.within_bool.2 ⟨trivial, nofun⟩
  | .int i => Tree.within_int.2 ⟨⟨i.minValue_le_toInt, i.toInt_le⟩, nofun⟩
  | .float _ => Tree.within_float.2 ⟨trivial, nofun⟩
  | .text _ => Tree.within_text.2 ⟨trivial, nofun⟩
  | .datetime _ => Tree.within_text.2 ⟨trivial, nofun⟩
  | .list ns => Tree.within_list.2 (within_nodeTrees ns)
  | .table es => Tree.within_table.2 (within_entryTrees es)

theorem within_nodeTrees : ∀ ns : List Node,
    ∀ t ∈ nodeTrees ns, t.Within fun l => l.Short ∧ l ≠ .null
  | [] => fun _ h => absurd h List.not_mem_nil
  | n :: ns => List.forall_mem_cons.2 ⟨n.within_toTree, within_nodeTrees ns⟩

theorem within_entryTrees : ∀ es : List (String × Node),
    ∀ e ∈ entryTrees es, e.2.Within fun l => l.Short ∧ l ≠ .null
  | [] => fun _ h => absurd h List.not_mem_nil
  | (_, n) :: es => List.forall_mem_cons.2 ⟨n.within_toTree, within_entryTrees es⟩

end

/-! ## Texts -/

/-- The characters in the texts of dates and times. -/
def Datetime.isPart (c : Char) : Bool :=
  c.isDigit || ['-', ':', '.', 'T', 'Z', '+'].contains c

theorem isPart_of_mem_padded {width n : Nat} {c : Char} (h : c ∈ padded width n) :
    Datetime.isPart c = true := by
  unfold padded at h
  rcases List.mem_append.1 h with h | h
  · rw [List.eq_of_mem_replicate h]
    rfl
  · have hdigit : c.isDigit = true := Nat.isDigit_of_mem_toDigits (by decide) (by decide) h
    rw [Datetime.isPart, hdigit, Bool.true_or]

theorem Date.isPart_of_mem_toChars {d : Date} {c : Char} (h : c ∈ d.toChars) :
    Datetime.isPart c = true := by
  simp only [toChars, List.mem_append, List.mem_cons] at h
  rcases h with (h | rfl | h) | rfl | h
  · exact isPart_of_mem_padded h
  · rfl
  · exact isPart_of_mem_padded h
  · rfl
  · exact isPart_of_mem_padded h

theorem TimeOfDay.isPart_of_mem_fraction {n : Nat} {c : Char} (h : c ∈ fraction n) :
    Datetime.isPart c = true := by
  have hdropped := List.dropWhile_subset _ (List.mem_reverse.1 h)
  exact isPart_of_mem_padded (List.mem_reverse.1 hdropped)

theorem TimeOfDay.isPart_of_mem_toChars {t : TimeOfDay} {c : Char} (h : c ∈ t.toChars) :
    Datetime.isPart c = true := by
  have hclock : c ∈ padded 2 t.hour ++ ':' :: padded 2 t.minute ++ ':' :: padded 2 t.second →
      Datetime.isPart c = true := by
    intro h
    simp only [List.mem_append, List.mem_cons] at h
    rcases h with (h | rfl | h) | rfl | h
    · exact isPart_of_mem_padded h
    · rfl
    · exact isPart_of_mem_padded h
    · rfl
    · exact isPart_of_mem_padded h
  unfold toChars at h
  split at h
  · exact hclock h
  · rcases List.mem_append.1 h with h | h
    · exact hclock h
    · rcases List.mem_cons.1 h with rfl | h
      · rfl
      · exact isPart_of_mem_fraction h

theorem Offset.isPart_of_mem_toChars {o : Offset} {c : Char} (h : c ∈ o.toChars) :
    Datetime.isPart c = true := by
  cases o with
  | utc =>
    obtain rfl := List.mem_singleton.1 h
    rfl
  | minutes m =>
    simp only [toChars, List.mem_append, List.mem_cons] at h
    rcases h with (rfl | h) | rfl | h
    · split <;> rfl
    · exact isPart_of_mem_padded h
    · rfl
    · exact isPart_of_mem_padded h

namespace Datetime

theorem isPart_of_mem_toText {d : Datetime} {c : Char} (h : c ∈ d.toText.toList) :
    isPart c = true := by
  cases d with
  | date d =>
    rw [toText, String.toList_ofList] at h
    exact d.isPart_of_mem_toChars h
  | time t =>
    rw [toText, String.toList_ofList] at h
    exact t.isPart_of_mem_toChars h
  | both d t offset =>
    rw [toText, String.toList_ofList] at h
    simp only [List.mem_append, List.mem_cons] at h
    rcases h with (h | rfl | h) | h
    · exact d.isPart_of_mem_toChars h
    · rfl
    · exact t.isPart_of_mem_toChars h
    · cases offset with
      | none => exact absurd h List.not_mem_nil
      | some o => exact o.isPart_of_mem_toChars h

end Datetime

/-- A value that reads as a text with a character that no date has is that text. -/
theorem Node.eq_text_of_toTree {n : Node} {s : String} {c : Char} (h : n.toTree = .text s)
    (hc : c ∈ s.toList) (hp : Datetime.isPart c = false) : n = .text s := by
  cases n with
  | text t => exact congrArg Node.text (Tree.text.inj h)
  | datetime d =>
    obtain rfl : d.toText = s := Tree.text.inj h
    rw [Datetime.isPart_of_mem_toText hc] at hp
    cases hp
  | bool _ => cases h
  | int _ => cases h
  | float _ => cases h
  | list _ => cases h
  | table _ => cases h

/-- A binding expression has a dollar sign. -/
theorem Binding.dollar_mem_of_isExpression {s : String} {namespaces : List String}
    (h : isExpression s namespaces = true) : '$' ∈ s.toList := by
  unfold isExpression at h
  split at h
  · cases h
  · next path hpath =>
    obtain ⟨rest, hrest, -⟩ := Option.bind_eq_some_iff.1 hpath
    refine Text.mem_of_mem_trimChars ?_
    rw [Text.dropFront?_eq_some_iff.1 hrest]
    exact List.mem_append_left _ List.mem_cons_self

/-! ## Writing down -/

namespace Json

mutual

theorem within_normal {P : Tree → Prop} [Tree.Scalar P] : ∀ {v : Json}, v.Within P →
    v.normal.Within P
  | .null, h => h
  | .bool _, h => h
  | .int _, h => h
  | .float x, h => Tree.Scalar.ofFloat x (Tree.within_float.1 h)
  | .text _, h => h
  | .list _, h => within_list.2 (within_normalItems (within_list.1 h))
  | .object _, h => within_object.2 (within_normalMembers (within_object.1 h))

theorem within_normalItems {P : Tree → Prop} [Tree.Scalar P] : ∀ {vs : List Json},
    (∀ v ∈ vs, v.Within P) → ∀ v ∈ normalItems vs, v.Within P
  | [], _ => fun _ h => absurd h List.not_mem_nil
  | v :: vs, h => by
    obtain ⟨hv, hvs⟩ := List.forall_mem_cons.1 h
    exact List.forall_mem_cons.2 ⟨within_normal hv, within_normalItems hvs⟩

theorem within_normalMembers {P : Tree → Prop} [Tree.Scalar P] : ∀ {ms : List (String × Json)},
    (∀ m ∈ ms, m.2.Within P) → ∀ m ∈ normalMembers ms, m.2.Within P
  | [], _ => fun _ h => absurd h List.not_mem_nil
  | (_, v) :: ms, h => by
    obtain ⟨hv, hms⟩ := List.forall_mem_cons.1 h
    exact within_insertEntry (within_normal hv) (within_normalMembers hms)

end

mutual

/-- A value that is not null has a place in a document without its nulls. -/
theorem exists_toNode? : ∀ {v : Json}, v.Within Tree.Short → v.isNull = false →
    ∃ n, v.withoutNulls.toNode? = some n
  | .null, _, h => nomatch h
  | .bool _, _, _ => ⟨_, rfl⟩
  | .int i, h, _ => by
    have hi : Int64.minValue.toInt ≤ i ∧ i ≤ Int64.maxValue.toInt := Tree.within_int.1 h
    exact ⟨_, if_pos (by simpa using hi)⟩
  | .float _, _, _ => ⟨_, rfl⟩
  | .text _, _, _ => ⟨_, rfl⟩
  | .list vs, h, _ => by
    obtain ⟨ns, hns⟩ := exists_jsonItemNodes? (within_list.1 h)
    exact ⟨.list ns, by rw [withoutNulls, toNode?, hns, Option.map_some]⟩
  | .object ms, h, _ => by
    obtain ⟨es, hes⟩ := exists_jsonMemberNodes? (within_object.1 h)
    exact ⟨.table es, by rw [withoutNulls, toNode?, hes, Option.map_some]⟩

theorem exists_jsonItemNodes? : ∀ {vs : List Json}, (∀ v ∈ vs, v.Within Tree.Short) →
    ∃ ns, jsonItemNodes? (itemsWithoutNulls vs) = some ns
  | [], _ => ⟨_, rfl⟩
  | v :: vs, h => by
    obtain ⟨hv, hvs⟩ := List.forall_mem_cons.1 h
    obtain ⟨ns, hns⟩ := exists_jsonItemNodes? hvs
    rw [itemsWithoutNulls]
    cases hn : v.isNull with
    | true => exact ⟨ns, hns⟩
    | false =>
      obtain ⟨n, hn⟩ := exists_toNode? hv hn
      exact ⟨n :: ns, by simp [jsonItemNodes?, hn, hns]⟩

theorem exists_jsonMemberNodes? : ∀ {ms : List (String × Json)},
    (∀ m ∈ ms, m.2.Within Tree.Short) →
    ∃ es, jsonMemberNodes? (membersWithoutNulls ms) = some es
  | [], _ => ⟨_, rfl⟩
  | (k, v) :: ms, h => by
    obtain ⟨hv, hms⟩ := List.forall_mem_cons.1 h
    obtain ⟨es, hes⟩ := exists_jsonMemberNodes? hms
    rw [membersWithoutNulls]
    cases hn : v.isNull with
    | true => exact ⟨es, hes⟩
    | false =>
      obtain ⟨n, hn⟩ := exists_toNode? hv hn
      exact ⟨(k, n) :: es, by simp [jsonMemberNodes?, hn, hes]⟩

end

end Json

end ForecastJob
