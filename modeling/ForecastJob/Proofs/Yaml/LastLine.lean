import ForecastJob.Proofs.LastLine

/-!
# The last line of a YAML text

* `Yaml.isAtRisk` : a text whose end is lost when it stands last and blanks are trimmed;
* `Yaml.isSettled_entries` : nothing else can end in a blank;
* `Yaml.printed_write_iff` : a document is printed as it is written unless it ends in a text at risk.
-/

namespace ForecastJob

namespace Yaml

open Text

/-- Without quotes a text can end in blanks, and in a block in more than one line end. -/
def isAtRisk (s : String) : Bool :=
  match style s with
  | .plain => !isSettled s.toList
  | .block => !isSettled s.toList
  | _ => false

/-! ## Texts -/

theorem getLast?_indented (column : Nat) (fresh : Bool) (cs : List Char) :
    (indented column fresh cs).getLast? = cs.getLast? := by
  induction cs generalizing fresh with
  | nil => rfl
  | cons c cs ih =>
    have hcons : ∀ fresh, (c :: indented column fresh cs).getLast? = (c :: cs).getLast? := by
      intro fresh
      rw [List.getLast?_cons, List.getLast?_cons, ih]
    rw [indented]
    split
    · exact hcons true
    split
    · rw [List.getLast?_append, hcons, List.getLast?_cons, Option.some_or]
    · exact hcons false

theorem indented_concat_newline (column : Nat) (fresh : Bool) (cs : List Char) :
    indented column fresh (cs ++ ['\n']) = indented column fresh cs ++ ['\n'] := by
  induction cs generalizing fresh with
  | nil => rfl
  | cons c cs ih =>
    rw [List.cons_append, indented, indented, ih, ih]
    split
    · rfl
    split
    · rw [List.append_assoc, List.cons_append]
    · rfl

/-- A block ends as its text does. -/
theorem isSettled_indented (column : Nat) (fresh : Bool) (cs : List Char) :
    isSettled (indented column fresh cs) = isSettled cs := by
  rcases List.eq_nil_or_concat' cs with rfl | ⟨cs, c, rfl⟩
  · rfl
  · by_cases hc : c = '\n'
    · rw [hc, indented_concat_newline, isSettled_concat_newline, isSettled_concat_newline,
        getLast?_indented]
    · have hlast := getLast?_indented column fresh (cs ++ [c])
      rw [List.getLast?_concat] at hlast
      obtain ⟨ds, hds⟩ := List.getLast?_eq_some_iff.1 hlast
      rw [hds, isSettled_concat hc, isSettled_concat hc]

/-- A text in a block has more than one line. -/
theorem newline_mem_of_style {s : String} (h : style s = .block) : '\n' ∈ s.toList := by
  rw [style] at h
  split at h
  · next hline => exact List.contains_iff_mem.1 hline
  split at h
  · cases h
  split at h <;> cases h

/-- What a text behind a blank ends in depends on whether it is at risk. -/
theorem isSettled_scalar (front : List Char) (column : Nat) (s : String) :
    isSettled (front ++ ' ' :: scalar column s) = !isAtRisk s := by
  rw [scalar, isAtRisk]
  split
  · next hstyle => rw [hstyle, Bool.not_not, isSettled_append_cons rfl _ (.inr (by decide))]
  · next hstyle =>
    rw [hstyle, Bool.not_false, singleQuoted]
    have hfirm := firm_concat (c := '\'') rfl
      ('\'' :: indented column false (s.toList.flatMap fun c => if c == '\'' then [c, c] else [c]) ++
        if s.toList.getLast?.any isBreak then pad column else [])
    exact ((hfirm.append [' ']).append front).isSettled
  · next hstyle =>
    rw [hstyle, Bool.not_false]
    have hfirm := firm_concat (c := '"') rfl ('"' :: s.toList.flatMap escape)
    exact ((hfirm.append [' ']).append front).isSettled
  · next hstyle =>
    have hne : s.toList ≠ [] := List.ne_nil_of_mem (newline_mem_of_style hstyle)
    have hne' : indented column true s.toList ≠ [] := by
      intro hnil
      have hlast := getLast?_indented column true s.toList
      rw [hnil, List.getLast?_nil, eq_comm, List.getLast?_eq_none_iff] at hlast
      exact hne hlast
    rw [hstyle, Bool.not_not, ← List.cons_append, ← List.append_assoc,
      isSettled_append_cons rfl _ (.inl hne'), isSettled_indented]

theorem isSettled_ended {cs : List Char} (h : cs ≠ []) (front : List Char) :
    isSettled (front ++ ended cs) = isSettled (front ++ cs) := by
  rw [ended]
  split
  · rfl
  · next hbreak =>
    obtain ⟨cs, c, rfl⟩ := (List.eq_nil_or_concat' cs).resolve_left h
    rw [List.getLast?_concat, Option.any_some] at hbreak
    have hc : c ≠ '\n' := by
      rintro rfl
      exact hbreak rfl
    rw [← List.append_assoc, ← List.append_assoc, isSettled_concat_newline, List.getLast?_concat,
      Option.any_some, isSettled_concat hc]

theorem stacked_cons_cons (column : Nat) (t u : List Char) (ts : List (List Char)) :
    stacked column (t :: u :: ts) = (ended t ++ pad column) ++ stacked column (u :: ts) :=
  List.intercalate_cons_cons

theorem stacked_singleton (column : Nat) (t : List Char) : stacked column [t] = ended t :=
  List.intercalate_singleton

/-! ## Values -/

theorem isAtRisk_toText (d : Datetime) : isAtRisk d.toText = false := by
  rw [isAtRisk, d.solid_toText.firm.isSettled]
  cases style d.toText <;> rfl

theorem solid_float (x : Float) : Solid (float x).toList := by
  have hnan : Solid ".nan".toList := ⟨by decide, by simp [Text.isBlank]⟩
  have hinf : Solid ".inf".toList := ⟨by decide, by simp [Text.isBlank]⟩
  rw [float]
  split
  · exact ⟨by decide, by simp [Text.isBlank]⟩
  · exact Decimal.Layout.solid_write _ hnan hinf x

/-- The value stands on one line with the key or mark in front of it, whichever that is. -/
def isInline : Node → Bool
  | .list ns => ns.isEmpty
  | .table es => es.isEmpty
  | .datetime _ => false
  | _ => true

theorem behindKey_of_isInline {n : Node} (h : isInline n = true) (column : Nat) :
    behindKey column n = behindMark column n := by
  cases n with
  | list ns => cases List.isEmpty_iff.1 h; rfl
  | table es => cases List.isEmpty_iff.1 h; rfl
  | datetime d => cases h
  | _ => rfl

theorem isSettled_of_isInline {n : Node} (h : isInline n = true) (front : List Char)
    (column : Nat) : isSettled (front ++ behindMark column n) = !n.lastText?.any isAtRisk := by
  have hfirm : ∀ {cs : List Char}, Firm cs → isSettled (front ++ cs) = true :=
    fun h => (h.append front).isSettled
  cases n with
  | bool b => cases b <;> exact hfirm ⟨'e', rfl, rfl⟩
  | int i => exact hfirm ((solid_toString_int _).firm.append [' '])
  | float x => exact hfirm ((solid_float x).firm.append [' '])
  | text s => exact isSettled_scalar front (column + 2) s
  | datetime d => cases h
  | list ns => cases List.isEmpty_iff.1 h; exact hfirm ⟨']', rfl, rfl⟩
  | table es => cases List.isEmpty_iff.1 h; exact hfirm ⟨'\x7d', rfl, rfl⟩

/-- A date is written as a text behind a key. -/
theorem isSettled_datetime (front : List Char) (column : Nat) (d : Datetime) :
    isSettled (front ++ (Datetime.key.toList ++ ": ".toList ++ scalar column d.toText)) = true := by
  have hkey : Datetime.key.toList ++ ": ".toList ++ scalar column d.toText =
      (Datetime.key.toList ++ [':']) ++ ' ' :: scalar column d.toText := by
    rw [List.append_assoc, List.append_assoc]
    rfl
  rw [hkey, ← List.append_assoc, isSettled_scalar, isAtRisk_toText, Bool.not_false]

mutual

theorem isSettled_behindMark : ∀ (n : Node) (front : List Char) (column : Nat),
    isSettled (front ++ behindMark column n) = !n.lastText?.any isAtRisk
  | .list (n :: ns), front, column => by
    rw [behindMark, List.append_cons, isSettled_items (List.cons_ne_nil n ns), Node.lastText?]
    nofun
  | .table (e :: es), front, column => by
    rw [behindMark, List.append_cons, isSettled_entries (List.cons_ne_nil e es), Node.lastText?]
    nofun
  | .datetime d, front, column => by
    rw [behindMark, List.append_cons, isSettled_datetime]
    rfl
  | .list [], front, column | .table [], front, column | .bool _, front, column
  | .int _, front, column | .float _, front, column | .text _, front, column =>
    isSettled_of_isInline rfl front column

theorem isSettled_behindKey : ∀ (n : Node) (front : List Char) (column : Nat),
    isSettled (front ++ behindKey column n) = !n.lastText?.any isAtRisk
  | .list (n :: ns), front, column => by
    rw [behindKey, ← List.append_assoc, isSettled_items (List.cons_ne_nil n ns), Node.lastText?]
    nofun
  | .table (e :: es), front, column => by
    rw [behindKey, ← List.append_assoc, isSettled_entries (List.cons_ne_nil e es), Node.lastText?]
    nofun
  | .datetime d, front, column => by
    have hdate := isSettled_datetime (front ++ '\n' :: pad (column + 2)) (column + 4) d
    simp only [behindKey, List.append_assoc, List.cons_append] at hdate ⊢
    rw [hdate]
    rfl
  | .list [], front, column | .table [], front, column | .bool _, front, column
  | .int _, front, column | .float _, front, column | .text _, front, column => by
    rw [behindKey_of_isInline rfl]
    exact isSettled_of_isInline rfl front column

theorem isSettled_items : ∀ {ns : List Node}, ns ≠ [] → ∀ (front : List Char) (column : Nat),
    isSettled (front ++ stacked column (itemTexts column ns)) = !(lastItemText? ns).any isAtRisk
  | [], h, _, _ => absurd rfl h
  | [n], _, front, column => by
    rw [itemTexts, itemTexts, stacked_singleton, isSettled_ended (List.cons_ne_nil _ _),
      List.append_cons, isSettled_behindMark, lastItemText?]
  | m :: n :: ns, _, front, column => by
    rw [itemTexts, itemTexts, stacked_cons_cons, ← itemTexts, ← List.append_assoc,
      isSettled_items (List.cons_ne_nil n ns), lastItemText?]

theorem isSettled_entries : ∀ {es : List (String × Node)}, es ≠ [] →
    ∀ (front : List Char) (column : Nat),
      isSettled (front ++ stacked column (entryTexts column es)) =
        !(lastEntryText? es).any isAtRisk
  | [], h, _, _ => absurd rfl h
  | [(k, n)], _, front, column => by
    rw [entryTexts, entryTexts, stacked_singleton]
    split
    · rw [isSettled_ended (by simp), ← List.append_assoc, List.append_cons, isSettled_behindKey,
        lastEntryText?]
    · rw [isSettled_ended (by simp), ← List.append_assoc, List.append_cons, isSettled_behindMark,
        lastEntryText?]
  | (k, n) :: e :: es, _, front, column => by
    rw [entryTexts, entryTexts, stacked_cons_cons, ← entryTexts, ← List.append_assoc,
      isSettled_entries (List.cons_ne_nil e es), lastEntryText?]

end

/-! ## Documents -/

theorem exists_getLast?_ended (cs : List Char) :
    ∃ c, (ended cs).getLast? = some c ∧ isBreak c = true := by
  rw [ended]
  split
  · next h => exact Option.any_eq_true _ _ |>.1 h
  · exact ⟨'\n', List.getLast?_concat, rfl⟩

theorem exists_getLast?_stacked (column : Nat) : ∀ {ts : List (List Char)}, ts ≠ [] →
    ∃ c, (stacked column ts).getLast? = some c ∧ isBreak c = true
  | [], h => absurd rfl h
  | [t], _ => by
    rw [stacked_singleton]
    exact exists_getLast?_ended t
  | t :: u :: ts, _ => by
    obtain ⟨c, hlast, hc⟩ := exists_getLast?_stacked column (List.cons_ne_nil u ts)
    exact ⟨c, by rw [stacked_cons_cons, List.getLast?_append, hlast, Option.some_or], hc⟩

theorem isBlank_of_isBreak {c : Char} (h : isBreak c = true) : Text.isBlank c = true := by
  simp only [isBreak, Bool.or_eq_true, beq_iff_eq] at h
  rcases h with (((rfl | rfl) | rfl) | rfl) | rfl <;> rfl

/-- There is more than line ends: the first key has a colon. -/
theorem colon_mem_stacked (column : Nat) {es : List (String × Node)} (h : es ≠ []) :
    ':' ∈ stacked column (entryTexts column es) := by
  obtain ⟨⟨k, n⟩, es, rfl⟩ := List.exists_cons_of_ne_nil h
  have hended : ∀ {cs : List Char}, ':' ∈ cs → ':' ∈ ended cs := by
    intro cs h
    rw [ended]
    split
    · exact h
    · exact List.mem_append_left _ h
  have hstacked : ∀ {t : List Char} {ts : List (List Char)}, ':' ∈ t →
      ':' ∈ stacked column (t :: ts) := by
    intro t ts h
    cases ts with
    | nil =>
      rw [stacked_singleton]
      exact hended h
    | cons u ts =>
      rw [stacked_cons_cons]
      exact List.mem_append_left _ (List.mem_append_left _ (hended h))
  rw [entryTexts]
  split
  · exact hstacked (List.mem_append_right _ List.mem_cons_self)
  · exact hstacked (List.mem_append_right _ List.mem_cons_self)

theorem write_eq {d : Document} (h : d ≠ []) :
    (write d).toList = stacked 0 (entryTexts 0 d) := by
  rw [write, if_neg (mt List.isEmpty_iff.1 h), String.toList_ofList]

/-- The text of a document is printed as it is unless it ends in a text at risk. -/
theorem printed_write_iff {d : Document} (h : d ≠ []) :
    Command.printed (write d) = write d ↔ ∀ s ∈ lastEntryText? d, isAtRisk s = false := by
  have hrisk : (∀ s ∈ lastEntryText? d, isAtRisk s = false) ↔ isSettled (write d).toList = true := by
    rw [write_eq h, ← List.nil_append (stacked _ _), isSettled_entries h, Bool.not_eq_true',
      Option.any_eq_false]
    simp only [Option.mem_def]
  rw [hrisk]
  constructor
  · refine Command.isSettled_of_printed_eq_self fun hline => ?_
    have hcolon := colon_mem_stacked 0 h
    rw [← write_eq h, hline] at hcolon
    exact absurd hcolon (by decide)
  · intro hsettled
    have hne : entryTexts 0 d ≠ [] := by
      cases d with
      | nil => exact absurd rfl h
      | cons e d => exact List.cons_ne_nil _ _
    obtain ⟨c, hlast, hc⟩ := exists_getLast?_stacked 0 hne
    rw [← write_eq h] at hlast
    refine Command.printed_eq_self ?_ hsettled
    obtain ⟨cs, hcs⟩ := List.getLast?_eq_some_iff.1 hlast
    by_cases hline : c = '\n'
    · rw [hlast, hline]
    · rw [hcs, isSettled_concat hline, isBlank_of_isBreak hc] at hsettled
      cases hsettled

end Yaml

end ForecastJob
