import Mathlib.Data.List.Basic
import ForecastJob.Job.Binding
import ForecastJob.Proofs.Trimming

/-!
# The grammar of binding expressions

* `Binding.Spells` : the texts that are one binding expression, with its path;
* `Binding.path?_eq_some_iff` : the path that is read is the one that the text spells;
* `Binding.Spells.blank_of_append` : around a binding expression that is part of another one, there
  are blanks only;
* `Binding.isExpression_iff_spells` : the binding expressions to the given namespaces, and texts
  that are none because they hold more than one.
-/

namespace ForecastJob.Binding

variable {cs path : List Char}

/-! ## Grammar -/

/-- A run of blanks, which may be empty. -/
def Blank (cs : List Char) : Prop :=
  ∀ c ∈ cs, Text.isBlank c = true

/-- What a path is made of: neither blanks nor braces, and at least one character. -/
structure IsPath (path : List Char) : Prop where
  ne_nil : path ≠ []
  isBlank : ∀ c ∈ path, Text.isBlank c = false
  lbrace : '{' ∉ path
  rbrace : '}' ∉ path

/-- `cs` is one binding expression with the given path: blanks may stand around the expression and
just inside its braces, and nothing else may. -/
inductive Spells : List Char → List Char → Prop where
  | intro {left inLeft path inRight right : List Char} (isPath : IsPath path) (left_blank : Blank left)
      (inLeft_blank : Blank inLeft) (inRight_blank : Blank inRight) (right_blank : Blank right) :
      Spells (left ++ ['$', '{', '{'] ++ inLeft ++ path ++ inRight ++ ['}', '}'] ++ right) path

/-- The part of a path before its first dot, which is all of a path without dots. -/
def Heads (segment path : List Char) : Prop :=
  '.' ∉ segment ∧ (path = segment ∨ ∃ rest, path = segment ++ '.' :: rest)

theorem Blank.notMem {c : Char} (h : Blank cs) (hc : Text.isBlank c = false) : c ∉ cs := by
  intro hmem
  rw [h c hmem] at hc
  cases hc

theorem isPath_iff : isPath path = true ↔ IsPath path := by
  constructor
  · intro h
    simp only [isPath, Bool.and_eq_true, Bool.not_eq_true', List.isEmpty_eq_false_iff,
      List.all_eq_true, Bool.or_eq_false_iff, beq_eq_false_iff_ne] at h
    exact ⟨h.1, fun c hc => (h.2 c hc).1.1, fun hc => (h.2 _ hc).1.2 rfl, fun hc => (h.2 _ hc).2 rfl⟩
  · rintro ⟨hne, hblank, hl, hr⟩
    simp only [isPath, Bool.and_eq_true, Bool.not_eq_true', List.isEmpty_eq_false_iff,
      List.all_eq_true, Bool.or_eq_false_iff, beq_eq_false_iff_ne]
    exact ⟨hne, fun c hc => ⟨⟨hblank c hc, ne_of_mem_of_not_mem hc hl⟩, ne_of_mem_of_not_mem hc hr⟩⟩

/-- What stands before the first occurrence of a character. -/
theorem takeWhile_append_cons {c : Char} {front : List Char} (hc : c ∉ front) (rest : List Char) :
    (front ++ c :: rest).takeWhile (· != c) = front := by
  refine takeWhile_append_of_head? (fun d hd => bne_iff_ne.2 (ne_of_mem_of_not_mem hd hc)) ?_
  rintro _ ⟨⟩
  exact bne_self_eq_false c

theorem heads_iff {segment : List Char} :
    Heads segment path ↔ path.takeWhile (· != '.') = segment := by
  constructor
  · rintro ⟨hdot, rfl | ⟨rest, rfl⟩⟩
    · exact List.takeWhile_eq_self_iff.2 fun c hc => bne_iff_ne.2 (ne_of_mem_of_not_mem hc hdot)
    · exact takeWhile_append_cons hdot rest
  · rintro rfl
    have hdot : '.' ∉ path.takeWhile (· != '.') := by
      intro hc
      have hne := List.mem_takeWhile_imp hc
      cases hne
    refine ⟨hdot, ?_⟩
    cases hrest : path.dropWhile (· != '.') with
    | nil => exact .inl ((List.takeWhile_eq_self_iff.2 (List.dropWhile_eq_nil_iff.1 hrest)).symm)
    | cons c rest =>
      have hc : c = '.' := by
        have hhead := List.head?_dropWhile_not (· != '.') path
        rw [hrest] at hhead
        simpa using hhead
      rw [hc] at hrest
      exact .inr ⟨rest, by rw [← hrest, List.takeWhile_append_dropWhile]⟩

/-! ## Paths -/

theorem path?_eq_some_iff {s : String} : path? s = some path ↔ Spells s.toList path := by
  constructor
  · intro h
    obtain ⟨rest, hrest, h⟩ := Option.bind_eq_some_iff.1 h
    obtain ⟨inner, hinner, h⟩ := Option.bind_eq_some_iff.1 h
    dsimp only at h
    split at h
    · next hpath =>
      cases h
      obtain ⟨left, right, hs, hleft, hright⟩ := Text.exists_trimChars s.toList
      obtain ⟨inLeft, inRight, hin, hinLeft, hinRight⟩ := Text.exists_trimChars inner
      have hspells := Spells.intro (isPath_iff.1 hpath) hleft hinLeft hinRight hright
      rw [Text.dropFront?_eq_some_iff.1 hrest, Text.dropBack?_eq_some_iff.1 hinner] at hs
      generalize Text.trimChars inner = path at hin hspells
      rw [hs, hin]
      simpa only [opening, closing, List.append_assoc] using hspells
    · cases h
  · intro h
    generalize hs : s.toList = cs at h
    cases h with
    | @intro left inLeft _ inRight right hpath hleft hinLeft hinRight hright =>
      have hinner : Text.trimChars (inLeft ++ path ++ inRight) = path :=
        Text.trimChars_append hinLeft (fun c hc => hpath.isBlank c (List.mem_of_mem_head? hc))
          (fun c hc => hpath.isBlank c (List.mem_of_mem_getLast? hc)) hinRight
      have houter : Text.trimChars s.toList = opening ++ (inLeft ++ path ++ inRight ++ closing) := by
        have htrim : Text.trimChars
            (left ++ (opening ++ (inLeft ++ path ++ inRight ++ closing)) ++ right) =
              opening ++ (inLeft ++ path ++ inRight ++ closing) :=
          Text.trimChars_append hleft (by simp [opening]; decide) (by simp [closing]; decide) hright
        rw [hs, ← htrim]
        simp only [opening, closing, List.append_assoc]
      have hrest := Text.dropFront?_eq_some_iff.2 houter
      have hclosing : Text.dropBack? closing (inLeft ++ path ++ inRight ++ closing) =
          some (inLeft ++ path ++ inRight) := Text.dropBack?_eq_some_iff.2 rfl
      simp only [path?, hrest, hclosing, hinner, Option.bind_eq_bind, Option.bind_some,
        if_pos (isPath_iff.2 hpath)]

theorem isExpression_eq_true_iff {s : String} {namespaces : List String} :
    isExpression s namespaces = true ↔ ∃ path, Spells s.toList path ∧
      (namespaces = [] ∨ ∃ name ∈ namespaces, Heads name.toList path) := by
  have hhead : ∀ path, (namespaces.isEmpty || namespaces.contains (head path)) = true ↔
      namespaces = [] ∨ ∃ name ∈ namespaces, Heads name.toList path := by
    intro path
    rw [Bool.or_eq_true, List.isEmpty_iff, List.contains_iff_mem]
    refine or_congr_right ⟨fun hmem => ⟨_, hmem, ?_⟩, ?_⟩
    · rw [heads_iff, head, String.toList_ofList]
    · rintro ⟨name, hmem, hheads⟩
      rwa [head, heads_iff.1 hheads, String.ofList_toList]
  rw [isExpression]
  split
  · next hnone =>
    refine iff_of_false Bool.false_ne_true ?_
    rintro ⟨path, hspells, -⟩
    rw [path?_eq_some_iff.2 hspells] at hnone
    cases hnone
  · next path hsome =>
    rw [hhead]
    refine ⟨fun h => ⟨path, path?_eq_some_iff.1 hsome, h⟩, ?_⟩
    rintro ⟨path', hspells, h⟩
    rw [path?_eq_some_iff.2 hspells, Option.some.injEq] at hsome
    rwa [← hsome]

/-! ## Expressions within expressions -/

variable {before after path' : List Char}

theorem Spells.isPath (h : Spells cs path) : IsPath path := by
  cases h with
  | intro hpath => exact hpath

/-- All of an expression but its blanks and its path is the dollar sign and the braces. -/
theorem Spells.count_eq (h : Spells cs path) {c : Char} (hc : Text.isBlank c = false)
    (hpath : c ∉ path) : cs.count c = (opening ++ closing).count c := by
  cases h with
  | @intro left inLeft _ inRight right _ hleft hinLeft hinRight hright =>
    simp only [opening, closing, List.count_append, List.count_eq_zero.2 hpath,
      List.count_eq_zero.2 (hleft.notMem hc), List.count_eq_zero.2 (hinLeft.notMem hc),
      List.count_eq_zero.2 (hinRight.notMem hc), List.count_eq_zero.2 (hright.notMem hc),
      Nat.zero_add, Nat.add_zero]

/-- The braces of an expression are all those of an expression that it is part of. -/
theorem Spells.notMem_around (h : Spells cs path) (h' : Spells (before ++ cs ++ after) path') {c : Char}
    (hc : Text.isBlank c = false) (hpath : c ∉ path) (hpath' : c ∉ path') :
    c ∉ before ∧ c ∉ after := by
  have hcount := h'.count_eq hc hpath'
  rw [List.count_append, List.count_append, h.count_eq hc hpath] at hcount
  exact ⟨List.count_eq_zero.1 (by omega), List.count_eq_zero.1 (by omega)⟩

/-- The first brace stands behind a dollar sign that only blanks stand before. -/
theorem Spells.exists_left (h : Spells cs path) :
    ∃ left rest, cs = left ++ ['$'] ++ '{' :: rest ∧ '{' ∉ left ++ ['$'] ∧ Blank left := by
  cases h with
  | @intro left inLeft _ inRight right _ hleft =>
    refine ⟨left, '{' :: inLeft ++ path ++ inRight ++ ['}', '}'] ++ right, by simp, ?_, hleft⟩
    exact List.not_mem_append (hleft.notMem rfl) (by decide)

/-- The first closing brace stands before another one, and that one before blanks only. -/
theorem Spells.exists_right (h : Spells cs path) :
    ∃ front right, cs = front ++ '}' :: '}' :: right ∧ '}' ∉ front ∧ Blank right := by
  cases h with
  | @intro left inLeft _ inRight right hpath hleft hinLeft hinRight hright =>
    refine ⟨left ++ ['$', '{', '{'] ++ inLeft ++ path ++ inRight, right, by simp, ?_, hright⟩
    simp only [List.mem_append, not_or]
    exact ⟨⟨⟨⟨hleft.notMem rfl, by decide⟩, hinLeft.notMem rfl⟩, hpath.rbrace⟩, hinRight.notMem rfl⟩

/-- Around an expression that is part of another one there are blanks only. -/
theorem Spells.blank_of_append (h : Spells cs path) (h' : Spells (before ++ cs ++ after) path') :
    Blank before ∧ Blank after := by
  obtain ⟨hlbrace, -⟩ := h.notMem_around h' rfl h.isPath.lbrace h'.isPath.lbrace
  obtain ⟨hrbrace, -⟩ := h.notMem_around h' rfl h.isPath.rbrace h'.isPath.rbrace
  constructor
  · obtain ⟨left, rest, rfl, hfront, -⟩ := h.exists_left
    obtain ⟨left', rest', heq, hfront', hleft'⟩ := h'.exists_left
    have hsame : before ++ (left ++ ['$']) = left' ++ ['$'] := by
      rw [← takeWhile_append_cons (List.not_mem_append hlbrace hfront) (rest ++ after),
        ← takeWhile_append_cons hfront' rest', ← heq]
      simp only [List.append_assoc, List.cons_append]
    rw [← List.append_assoc, List.append_left_inj] at hsame
    intro c hc
    exact hleft' c (hsame ▸ List.mem_append_left _ hc)
  · obtain ⟨front, right, rfl, hfront, -⟩ := h.exists_right
    obtain ⟨front', right', heq, hfront', hright'⟩ := h'.exists_right
    have hsame : before ++ front = front' := by
      rw [← takeWhile_append_cons (List.not_mem_append hrbrace hfront) ('}' :: right ++ after),
        ← takeWhile_append_cons hfront' ('}' :: right'), ← heq]
      simp only [List.append_assoc, List.cons_append]
    have hback : '}' :: '}' :: (right ++ after) = '}' :: '}' :: right' := by
      rw [← hsame] at heq
      simpa using heq
    rw [List.cons.injEq, List.cons.injEq] at hback
    intro c hc
    exact hright' c (hback.2.2 ▸ List.mem_append_right _ hc)

/-! ## Texts with more than one expression -/

/-- A text is a binding expression, to some namespaces, if it spells one. -/
theorem exists_spells {s : String} (h : ∃ namespaces, isExpression s namespaces = true) :
    ∃ path, Spells s.toList path := by
  obtain ⟨namespaces, h⟩ := h
  obtain ⟨path, hspells, -⟩ := isExpression_eq_true_iff.1 h
  exact ⟨path, hspells⟩

theorem Spells.not_blank (h : Spells cs path) : ¬ Blank cs := by
  obtain ⟨left, rest, rfl, -⟩ := h.exists_left
  intro hblank
  have hdollar := hblank '$' (by simp)
  cases hdollar

/-- The texts that are binding expressions to the given namespaces are those that the grammar
allows, with one path that a text spells. Binding expressions one after the other, or one with
something else around it, are none. -/
theorem isExpression_iff_spells (namespaces : List String) :
    (∀ s, isExpression s namespaces = true ↔ ∃ path, Spells s.toList path ∧
      (namespaces = [] ∨ ∃ name ∈ namespaces, Heads name.toList path)) ∧
    (∀ cs path path', Spells cs path → Spells cs path' → path = path') ∧
    (∀ bindings : List String, 2 ≤ bindings.length →
      (∀ s ∈ bindings, ∃ namespaces, isExpression s namespaces = true) →
      isExpression (String.join bindings) namespaces = false) ∧
    ∀ before s after, (∃ namespaces, isExpression s namespaces = true) →
      (Text.isBlankText before = false ∨ Text.isBlankText after = false) →
      isExpression (before ++ s ++ after) namespaces = false := by
  have hround : ∀ before s after, (∃ namespaces, isExpression s namespaces = true) →
      (Text.isBlankText before = false ∨ Text.isBlankText after = false) →
      isExpression (before ++ s ++ after) namespaces = false := by
    intro before s after hs hnonblank
    refine Bool.eq_false_iff.2 fun hbinding => ?_
    obtain ⟨path, hspells⟩ := exists_spells hs
    obtain ⟨path', hspells'⟩ := exists_spells ⟨_, hbinding⟩
    rw [String.toList_append, String.toList_append] at hspells'
    obtain ⟨hbefore, hafter⟩ := hspells.blank_of_append hspells'
    rcases hnonblank with h | h
    · rw [Text.isBlankText, List.all_eq_true.2 hbefore] at h
      cases h
    · rw [Text.isBlankText, List.all_eq_true.2 hafter] at h
      cases h
  refine ⟨fun s => isExpression_eq_true_iff, ?_, ?_, hround⟩
  · intro cs path path' h h'
    rw [← String.toList_ofList (l := cs)] at h h'
    exact Option.some.inj ((path?_eq_some_iff.2 h).symm.trans (path?_eq_some_iff.2 h'))
  · intro bindings hlength hall
    match bindings, hlength with
    | s :: t :: rest, _ =>
      obtain ⟨path, hspells⟩ := exists_spells (hall t (List.mem_cons_of_mem _ List.mem_cons_self))
      have hnonblank : Text.isBlankText (t ++ String.join rest) = false := by
        refine Bool.eq_false_iff.2 fun hblank => hspells.not_blank fun c hc => ?_
        rw [Text.isBlankText, String.toList_append] at hblank
        exact List.all_eq_true.1 hblank c (List.mem_append_left _ hc)
      have hjoin := hround "" s (t ++ String.join rest) (hall s List.mem_cons_self) (.inr hnonblank)
      rwa [String.empty_append, ← String.join_cons, ← String.join_cons] at hjoin

/-- Two bindings to the enclosing pipeline, each of them one, are none together. -/
theorem isExpression_iff_spells_two :
    (∃ path, Spells "${{ parent.metric }}".toList path ∧
      (["parent"] = [] ∨ ∃ name ∈ ["parent"], Heads name.toList path)) ∧
    isExpression (String.join ["${{parent.a}}", " ${{parent.b}}"]) ["parent"] = false ∧
    isExpression ("metric " ++ "${{parent.a}}" ++ "") ["parent"] = false := by
  obtain ⟨hgrammar, -, hjoin, haround⟩ := isExpression_iff_spells ["parent"]
  refine ⟨(hgrammar _).1 (by decide), hjoin _ (by decide) ?_, haround _ _ _ ⟨[], by decide⟩ ?_⟩
  · intro s hs
    rcases List.mem_pair.1 hs with rfl | rfl
    · exact ⟨[], by decide⟩
    · exact ⟨[], by decide⟩
  · exact .inl (by decide)

end ForecastJob.Binding
