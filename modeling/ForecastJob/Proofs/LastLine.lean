import ForecastJob.Command
import ForecastJob.Proofs.Document

/-!
# The last line of a text

What is printed for a text is that text if its last line ends with a line end, and in front of it
with something other than a blank.

* `Text.isSettled` : the text ends so, with or without the line end;
* `Command.printed_eq_self`, `Command.isSettled_of_printed_eq_self` : settled texts are printed as
  they are, and no others;
* `Text.Solid` : a text of one or more characters, none of them a blank; the texts of numbers and of
  dates are solid;
* `Node.lastText?` : the text that stands last in a value, if nothing else does.
-/

namespace ForecastJob

namespace Text

variable {cs : List Char}

/-! ## Settled texts -/

/-- The last character; a line end at the end does not count. -/
def lastChar? (cs : List Char) : Option Char :=
  if cs.getLast? = some '\n' then cs.dropLast.getLast? else cs.getLast?

/-- The text ends in something other than a blank; a line end at the end does not count. -/
def isSettled (cs : List Char) : Bool :=
  (lastChar? cs).any fun c => !isBlank c

theorem lastChar?_concat (cs : List Char) (c : Char) :
    lastChar? (cs ++ [c]) = if c = '\n' then cs.getLast? else some c := by
  simp only [lastChar?, List.getLast?_concat, List.dropLast_concat, Option.some.injEq]

theorem isSettled_concat_newline (cs : List Char) :
    isSettled (cs ++ ['\n']) = cs.getLast?.any fun c => !isBlank c := by
  rw [isSettled, lastChar?_concat, if_pos rfl]

/-- The text ends in something other than a blank. -/
def Firm (cs : List Char) : Prop :=
  ∃ c, cs.getLast? = some c ∧ isBlank c = false

theorem Firm.append (h : Firm cs) (front : List Char) : Firm (front ++ cs) := by
  obtain ⟨c, hlast, hc⟩ := h
  exact ⟨c, by rw [List.getLast?_append, hlast, Option.some_or], hc⟩

theorem firm_concat {c : Char} (hc : isBlank c = false) (cs : List Char) : Firm (cs ++ [c]) :=
  ⟨c, List.getLast?_concat, hc⟩

theorem Firm.isSettled_concat_newline (h : Firm cs) : isSettled (cs ++ ['\n']) = true := by
  obtain ⟨c, hlast, hc⟩ := h
  rw [Text.isSettled_concat_newline, hlast, Option.any_some, hc, Bool.not_false]

theorem isSettled_concat {c : Char} (hc : c ≠ '\n') (cs : List Char) :
    isSettled (cs ++ [c]) = !isBlank c := by
  rw [isSettled, lastChar?_concat, if_neg hc, Option.any_some]

theorem Firm.isSettled (h : Firm cs) : isSettled cs = true := by
  obtain ⟨c, hlast, hc⟩ := h
  obtain ⟨cs, rfl⟩ := List.getLast?_eq_some_iff.1 hlast
  have hne : c ≠ '\n' := by
    rintro rfl
    cases hc
  rw [isSettled_concat hne, hc, Bool.not_false]

/-- Behind a blank it is the rest of a text that has to be settled. -/
theorem isSettled_append_cons {b : Char} (hb : isBlank b = true) (front : List Char)
    (h : cs ≠ [] ∨ b ≠ '\n') : isSettled (front ++ b :: cs) = isSettled cs := by
  rcases List.eq_nil_or_concat' cs with rfl | ⟨cs, c, rfl⟩
  · rw [isSettled_concat (h.resolve_left fun hne => hne rfl), hb]
    rfl
  · rw [← List.cons_append, ← List.append_assoc]
    by_cases hc : c = '\n'
    · subst hc
      rw [isSettled_concat_newline, isSettled_concat_newline]
      rcases List.eq_nil_or_concat' cs with rfl | ⟨cs, d, rfl⟩
      · rw [List.getLast?_concat, Option.any_some, hb]
        rfl
      · rw [← List.cons_append, ← List.append_assoc, List.getLast?_concat, List.getLast?_concat]
    · rw [isSettled_concat hc, isSettled_concat hc]

/-! ## Solid texts -/

/-- The text has characters, and none of them is a blank. -/
structure Solid (cs : List Char) : Prop where
  ne_nil : cs ≠ []
  isBlank : ∀ c ∈ cs, isBlank c = false

theorem Solid.append (h : Solid cs) (front : List Char)
    (hfront : ∀ c ∈ front, Text.isBlank c = false) : Solid (front ++ cs) :=
  ⟨List.append_ne_nil_of_right_ne_nil _ h.ne_nil, List.forall_mem_append.2 ⟨hfront, h.isBlank⟩⟩

theorem Solid.firm (h : Solid cs) : Firm cs :=
  ⟨_, List.getLast?_eq_some_getLast h.ne_nil, h.isBlank _ (List.getLast_mem h.ne_nil)⟩

theorem solid_toDigits (n : Nat) : Solid (Nat.toDigits 10 n) :=
  ⟨Nat.toDigits_ne_nil, fun _ hc =>
    isBlank_of_isDigit (Nat.isDigit_of_mem_toDigits (by decide) (by decide) hc)⟩

theorem solid_toString_nat (n : Nat) : Solid (toString n).toList := by
  rw [Nat.toString_eq_repr, Nat.toList_repr]
  exact solid_toDigits n

theorem solid_toString_int (i : Int) : Solid (toString i).toList := by
  rw [Int.toString_eq_repr, Int.repr_eq_if]
  split
  · rw [Nat.toList_repr]
    exact solid_toDigits _
  · rw [String.toList_append, Nat.toList_repr]
    exact (solid_toDigits _).append _ (by simp [isBlank])

end Text

/-! ## Numbers and dates -/

open Text

theorem Datetime.isBlank_of_isPart {c : Char} (h : isPart c = true) : isBlank c = false := by
  rw [isPart, Bool.or_eq_true, List.contains_iff_mem] at h
  rcases h with h | h
  · exact isBlank_of_isDigit h
  · exact (by simp [isBlank] : ∀ c ∈ ['-', ':', '.', 'T', 'Z', '+'], isBlank c = false) c h

theorem Datetime.solid_toText (d : Datetime) : Solid d.toText.toList := by
  refine ⟨?_, fun c hc => isBlank_of_isPart (isPart_of_mem_toText hc)⟩
  cases d with
  | date d => simp [toText, Date.toChars]
  | time t =>
    rw [toText, String.toList_ofList, TimeOfDay.toChars]
    split <;> simp
  | both d t offset => simp [toText]

namespace Decimal

theorem isBlank_of_mem_zeros {n : Nat} : ∀ c ∈ zeros n, isBlank c = false := by
  intro c hc
  rw [List.eq_of_mem_replicate hc]
  rfl

theorem solid_positional {ds : List Char} (h : Solid ds) (p : Int) : Solid (positional ds p) := by
  have hpoint : ∀ c ∈ ['.', '0'], isBlank c = false := by simp [isBlank]
  unfold positional
  split
  · exact h.append ('0' :: '.' :: zeros _) (List.forall_mem_cons.2 ⟨rfl,
      List.forall_mem_cons.2 ⟨rfl, isBlank_of_mem_zeros⟩⟩)
  · dsimp only
    split
    · exact Solid.append ⟨List.cons_ne_nil _ _, hpoint⟩ _
        (List.forall_mem_append.2 ⟨h.isBlank, isBlank_of_mem_zeros⟩)
    · exact Solid.append ⟨List.cons_ne_nil _ _, List.forall_mem_cons.2
        ⟨rfl, fun c hc => h.isBlank c (List.mem_of_mem_drop hc)⟩⟩ _
        (fun c hc => h.isBlank c (List.mem_of_mem_take hc))

theorem solid_scientific {ds : List Char} (h : Solid ds) (p : Int) : Solid (scientific ds p) := by
  have htail : Solid ('e' :: (toString (p - 1)).toList) :=
    (solid_toString_int _).append ['e'] (by simp [isBlank])
  obtain ⟨-, hds⟩ := h
  unfold scientific
  split
  · exact htail
  · exact htail.append [_] hds
  · next d e es =>
    obtain ⟨hd, hes⟩ := List.forall_mem_cons.1 hds
    exact htail.append (d :: '.' :: e :: es) (List.forall_mem_cons.2
      ⟨hd, List.forall_mem_cons.2 ⟨rfl, hes⟩⟩)

theorem Layout.solid_digits (l : Layout) (s : Scientific) : Solid (l.digits s) := by
  unfold digits
  split
  · exact ⟨by decide, by simp [isBlank]⟩
  · dsimp only
    split
    · exact solid_positional (solid_toString_nat _) _
    · exact solid_scientific (solid_toString_nat _) _

theorem Layout.solid_write (l : Layout) {nan inf : String} (hnan : Solid nan.toList)
    (hinf : Solid inf.toList) (x : Float) : Solid (l.write nan inf x).toList := by
  unfold write
  split
  · next b _ =>
    have hdigits : Solid (String.ofList (l.digits (shortest b))).toList := by
      rw [String.toList_ofList]
      exact l.solid_digits _
    unfold finite
    dsimp only
    split
    · rw [String.toList_append]
      exact hdigits.append _ (by simp [isBlank])
    · exact hdigits
  · split
    · exact hnan
    · split
      · rw [String.toList_append]
        exact hinf.append _ (by simp [isBlank])
      · exact hinf

end Decimal

/-! ## Last texts -/

mutual

/-- The text that stands last in a value, if nothing else does. -/
def Node.lastText? : Node → Option String
  | .text s => some s
  | .list ns => lastItemText? ns
  | .table es => lastEntryText? es
  | _ => none

def lastItemText? : List Node → Option String
  | [] => none
  | [n] => n.lastText?
  | _ :: n :: ns => lastItemText? (n :: ns)

def lastEntryText? : List (String × Node) → Option String
  | [] => none
  | [(_, n)] => n.lastText?
  | _ :: e :: es => lastEntryText? (e :: es)

end

theorem lastEntryText?_concat (d : Document) (k : String) (n : Node) :
    lastEntryText? (d ++ [(k, n)]) = n.lastText? := by
  induction d with
  | nil => rfl
  | cons e d ih =>
    obtain ⟨e', d', hd⟩ := List.exists_cons_of_ne_nil
      (List.append_ne_nil_of_right_ne_nil d (List.cons_ne_nil (k, n) []))
    rw [List.cons_append, hd, lastEntryText?, ← hd, ih]

namespace Command

theorem toList_printed (s : String) :
    (printed s).toList = s.toList.rdropWhile isBlank ++ ['\n'] := by
  rw [printed, trimRight, String.toList_append, String.toList_ofList, dropRightWhile_eq]
  rfl

/-- A settled text that ends with a line end is printed as it is. -/
theorem printed_eq_self {s : String} (hlast : s.toList.getLast? = some '\n')
    (h : isSettled s.toList = true) : printed s = s := by
  obtain ⟨cs, hcs⟩ := List.getLast?_eq_some_iff.1 hlast
  rw [hcs, isSettled_concat_newline] at h
  rw [← String.toList_inj, toList_printed, hcs, rdropWhile_append_of_pos (by simp [isBlank]),
    rdropWhile_eq_self_of_getLast? fun c hc => ?_]
  rw [Option.mem_def.1 hc] at h
  simpa using h

/-- A text with more than a line end that is printed as it is is settled. -/
theorem isSettled_of_printed_eq_self {s : String} (hs : s ≠ "\n") (h : printed s = s) :
    isSettled s.toList = true := by
  rw [← String.toList_inj, toList_printed] at h
  have hne : s.toList.rdropWhile isBlank ≠ [] := by
    intro hnil
    rw [hnil] at h
    exact hs (String.toList_inj.1 h.symm)
  have hlast := List.rdropWhile_last_not isBlank s.toList hne
  rw [← h, isSettled_concat_newline, List.getLast?_eq_some_getLast hne, Option.any_some]
  simpa using hlast

end Command

end ForecastJob
