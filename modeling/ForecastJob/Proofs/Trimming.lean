import Mathlib.Data.List.DropRight
import ForecastJob.Text.Blank

/-!
# The ends of a text

* `takeWhile_append_of_head?` : where the front of a list ends;
* `Text.trimChars_append` : what stands between blanks is what is left when they are trimmed;
* `Text.exists_trimChars` : nothing but blanks is trimmed, and all that are at the ends;
* `Text.dropFront?_eq_some_iff`, `Text.dropBack?_eq_some_iff` : a text that starts or ends with
  another one.
-/

namespace ForecastJob

/-- What is at the front of a list goes on until an element that is not of its kind. -/
theorem takeWhile_append_of_head? {α : Type} {p : α → Bool} {front rest : List α}
    (hfront : ∀ a ∈ front, p a = true) (hrest : ∀ a ∈ rest.head?, p a = false) :
    (front ++ rest).takeWhile p = front := by
  rw [List.takeWhile_append_of_pos hfront]
  cases rest with
  | nil => exact List.append_nil _
  | cons a rest => rw [List.takeWhile_cons, hrest a rfl, if_neg Bool.false_ne_true, List.append_nil]

namespace Text

variable {p : Char → Bool} {cs : List Char}

/-! ## Blanks -/

theorem isBlank_of_isDigit {c : Char} (h : c.isDigit = true) : isBlank c = false := by
  simp only [Char.isDigit, ge_iff_le, Bool.and_eq_true, decide_eq_true_eq, UInt32.le_iff_toNat_le]
    at h
  have h₁ : 48 ≤ c.toNat := h.1
  have h₂ : c.toNat ≤ 57 := h.2
  simp [isBlank]
  omega

theorem dropRightWhile_eq (p : Char → Bool) (cs : List Char) :
    dropRightWhile p cs = cs.rdropWhile p := rfl

theorem dropWhile_eq_self_of_head? (h : ∀ c ∈ cs.head?, p c = false) : cs.dropWhile p = cs := by
  cases cs with
  | nil => rfl
  | cons c cs => rw [List.dropWhile_cons, h c rfl, if_neg Bool.false_ne_true]

theorem rdropWhile_eq_self_of_getLast? (h : ∀ c ∈ cs.getLast?, p c = false) :
    cs.rdropWhile p = cs := by
  rw [List.rdropWhile, dropWhile_eq_self_of_head? (by rwa [List.head?_reverse]),
    List.reverse_reverse]

theorem rdropWhile_append_of_pos {after : List Char} (h : ∀ c ∈ after, p c = true) :
    (cs ++ after).rdropWhile p = cs.rdropWhile p := by
  rw [List.rdropWhile, List.reverse_append,
    List.dropWhile_append_of_pos fun c hc => h c (List.mem_reverse.1 hc), List.rdropWhile]

/-- The blanks around a text that neither starts nor ends with one are trimmed. -/
theorem trimChars_append {before word after : List Char} (hbefore : ∀ c ∈ before, isBlank c = true)
    (hfirst : ∀ c ∈ word.head?, isBlank c = false) (hlast : ∀ c ∈ word.getLast?, isBlank c = false)
    (hafter : ∀ c ∈ after, isBlank c = true) : trimChars (before ++ word ++ after) = word := by
  cases word with
  | nil =>
    have hall : ∀ c ∈ before ++ after, isBlank c = true := List.forall_mem_append.2 ⟨hbefore, hafter⟩
    rw [List.append_nil, trimChars, dropRightWhile_eq, List.dropWhile_eq_nil_iff.2 hall,
      List.rdropWhile_nil]
  | cons c word =>
    have hkept : (c :: word ++ after).dropWhile isBlank = c :: word ++ after :=
      dropWhile_eq_self_of_head? (by simpa using hfirst)
    rw [trimChars, dropRightWhile_eq, List.append_assoc, List.dropWhile_append_of_pos hbefore, hkept,
      rdropWhile_append_of_pos hafter, rdropWhile_eq_self_of_getLast? hlast]

theorem trimChars_eq_self (h : ∀ c ∈ cs, isBlank c = false) : trimChars cs = cs := by
  have htrim : trimChars ([] ++ cs ++ []) = cs := trimChars_append (List.forall_mem_nil _)
    (fun c hc => h c (List.mem_of_mem_head? hc)) (fun c hc => h c (List.mem_of_mem_getLast? hc))
    (List.forall_mem_nil _)
  rwa [List.nil_append, List.append_nil] at htrim

/-- Blanks are trimmed, and nothing else is. -/
theorem exists_trimChars (cs : List Char) : ∃ before after,
    cs = before ++ trimChars cs ++ after ∧ (∀ c ∈ before, isBlank c = true) ∧
      ∀ c ∈ after, isBlank c = true := by
  refine ⟨cs.takeWhile isBlank, (cs.dropWhile isBlank).rtakeWhile isBlank, ?_,
    fun _ => List.mem_takeWhile_imp, fun _ => List.mem_rtakeWhile_imp⟩
  rw [trimChars, dropRightWhile_eq, List.append_assoc, List.rdropWhile_append_rtakeWhile,
    List.takeWhile_append_dropWhile]

theorem mem_of_mem_trimChars {c : Char} (h : c ∈ trimChars cs) : c ∈ cs := by
  obtain ⟨before, after, heq, -, -⟩ := exists_trimChars cs
  rw [heq]
  exact List.mem_append_left _ (List.mem_append_right _ h)

/-! ## Ends -/

theorem dropFront?_eq_some_iff {pre rest : List Char} :
    dropFront? pre cs = some rest ↔ cs = pre ++ rest := by
  induction pre generalizing cs with
  | nil => simp [dropFront?]
  | cons p pre ih =>
    cases cs with
    | nil => simp [dropFront?]
    | cons c cs =>
      rw [dropFront?]
      split
      · next hpc => rw [ih, hpc, List.cons_append, List.cons.injEq, and_iff_right rfl]
      · next hpc => simp [eq_comm, hpc]

theorem dropBack?_eq_some_iff {post rest : List Char} :
    dropBack? post cs = some rest ↔ cs = rest ++ post := by
  rw [dropBack?, Option.map_eq_some_iff]
  constructor
  · rintro ⟨reversed, hreversed, rfl⟩
    rw [← List.reverse_reverse cs, dropFront?_eq_some_iff.1 hreversed, List.reverse_append,
      List.reverse_reverse]
  · rintro rfl
    exact ⟨rest.reverse, dropFront?_eq_some_iff.2 List.reverse_append, List.reverse_reverse rest⟩

end Text

end ForecastJob
