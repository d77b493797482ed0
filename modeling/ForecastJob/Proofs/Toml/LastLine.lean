import ForecastJob.Proofs.LastLine

/-!
# The last line of a TOML text

* `Toml.firm_inline` : a value on the line of its key ends in a quote, a bracket, a letter or a
  digit;
* `Toml.AreFirm`, `Toml.blocks_firm` : so do all lines;
* `Toml.printed_write` : a document that holds something is printed as it is written.
-/

namespace ForecastJob.Toml

open Text

/-! ## Values -/

theorem firm_basic (cs : List Char) : Firm (basic cs).toList := by
  rw [basic, String.toList_append]
  exact (firm_concat (c := '"') rfl []).append _

theorem firm_literal (cs : List Char) : Firm (literal cs).toList := by
  rw [literal, String.toList_append]
  exact (firm_concat (c := '\'') rfl []).append _

theorem firm_multiLine {quotes : String} (h : Firm quotes.toList) (cs body : List Char) :
    Firm (multiLine quotes cs body).toList := by
  rw [multiLine, String.toList_append]
  exact h.append _

/-- A text ends in a quote. -/
theorem firm_text (s : String) : Firm (text s).toList := by
  have hdouble : Firm "\"\"\"".toList := firm_concat (c := '"') rfl ['"', '"']
  have hsingle : Firm "'''".toList := firm_concat (c := '\'') rfl ['\'', '\'']
  unfold text
  dsimp only
  split
  · exact firm_basic _
  split
  · exact firm_literal _
  split
  · exact firm_multiLine hdouble _ _
  split
  · exact firm_multiLine hsingle _ _
  split
  · exact firm_multiLine hdouble _ _
  · exact firm_basic _

theorem firm_inline (n : Node) : Firm (inline n).toList := by
  cases n with
  | bool b => cases b <;> exact ⟨'e', by decide, rfl⟩
  | int i => exact (solid_toString_int _).firm
  | float x =>
    have hnan : Solid "nan".toList := ⟨by decide, by simp [isBlank]⟩
    have hinf : Solid "inf".toList := ⟨by decide, by simp [isBlank]⟩
    exact (Decimal.Layout.solid_write _ hnan hinf x).firm
  | text s => exact firm_text s
  | datetime d => exact d.solid_toText.firm
  | list ns =>
    rw [inline, String.toList_append]
    exact (firm_concat (c := ']') rfl []).append _
  | table es =>
    cases es with
    | nil => exact ⟨'\x7d', by decide, rfl⟩
    | cons e es =>
      rw [inline, String.toList_append]
      · exact (firm_concat (c := '\x7d') rfl [' ']).append _
      · exact List.cons_ne_nil _ _

/-! ## Lines -/

/-- There are lines, and each of them ends in something other than a blank. -/
structure AreFirm (ls : List String) : Prop where
  ne_nil : ls ≠ []
  firm : ∀ l ∈ ls, Firm l.toList

theorem firm_of_mem_valueLines {es : List (String × Node)} : ∀ l ∈ valueLines es, Firm l.toList := by
  refine List.forall_mem_map.2 fun e _ => ?_
  rw [String.toList_append]
  exact (firm_inline e.2).append _

/-- A header and the lines of the values below it. -/
theorem areFirm_header {opening closing : String} (h : Firm closing.toList) (keys : List String)
    (es : List (String × Node)) : AreFirm ((opening ++ path keys ++ closing) :: valueLines es) := by
  refine ⟨List.cons_ne_nil _ _, List.forall_mem_cons.2 ⟨?_, firm_of_mem_valueLines⟩⟩
  rw [String.toList_append]
  exact h.append _

mutual

theorem blocks_firm : ∀ (n : Node) (keys : List String), ∀ b ∈ blocks keys n, AreFirm b
  | .table es, keys => by
    rw [blocks]
    split
    · exact List.forall_mem_cons.2
        ⟨areFirm_header ⟨']', rfl, rfl⟩ keys es, entryBlocks_firm es keys⟩
    · exact entryBlocks_firm es keys
  | .list ns, keys => by
    rw [blocks]
    exact itemBlocks_firm ns keys
  | .bool _, _ | .int _, _ | .float _, _ | .text _, _ | .datetime _, _ => by
    rw [blocks]
    · exact fun _ h => absurd h List.not_mem_nil
    all_goals nofun

theorem itemBlocks_firm : ∀ (ns : List Node) (keys : List String), ∀ b ∈ itemBlocks keys ns, AreFirm b
  | [], _ => fun _ h => absurd h List.not_mem_nil
  | .table es :: ns, keys => by
    rw [itemBlocks]
    exact List.forall_mem_append.2 ⟨List.forall_mem_cons.2
      ⟨areFirm_header ⟨']', rfl, rfl⟩ keys es, entryBlocks_firm es keys⟩, itemBlocks_firm ns keys⟩
  | .list _ :: ns, keys | .bool _ :: ns, keys | .int _ :: ns, keys | .float _ :: ns, keys
  | .text _ :: ns, keys | .datetime _ :: ns, keys => by
    rw [itemBlocks]
    · exact itemBlocks_firm ns keys
    · nofun

theorem entryBlocks_firm : ∀ (es : List (String × Node)) (keys : List String),
    ∀ b ∈ entryBlocks keys es, AreFirm b
  | [], _ => fun _ h => absurd h List.not_mem_nil
  | (k, n) :: es, keys => by
    rw [entryBlocks]
    refine List.forall_mem_append.2 ⟨?_, entryBlocks_firm es keys⟩
    split
    · exact blocks_firm n _
    · exact fun _ h => absurd h List.not_mem_nil

end

mutual

theorem blocks_ne_nil : ∀ {n : Node} {keys : List String}, hasHeader n = true → blocks keys n ≠ []
  | .table es, keys, _ => by
    rw [blocks]
    split
    · exact List.cons_ne_nil _ _
    · next h =>
      rw [showsHeader, Bool.or_eq_true, not_or, List.isEmpty_iff, List.any_eq_true] at h
      exact entryBlocks_ne_nil h.1 fun e he => by_contra fun hn => h.2 ⟨e, he, by simpa using hn⟩
  | .list [], _, h => by cases h
  | .list (.table _ :: _), _, _ => List.cons_ne_nil _ _
  | .list (.list _ :: _), _, h | .list (.bool _ :: _), _, h | .list (.int _ :: _), _, h
  | .list (.float _ :: _), _, h | .list (.text _ :: _), _, h | .list (.datetime _ :: _), _, h
  | .bool _, _, h | .int _, _, h | .float _, _, h | .text _, _, h | .datetime _, _, h => by cases h

theorem entryBlocks_ne_nil : ∀ {es : List (String × Node)} {keys : List String}, es ≠ [] →
    (∀ e ∈ es, hasHeader e.2 = true) → entryBlocks keys es ≠ []
  | [], _, h, _ => absurd rfl h
  | (_, n) :: _, _, _, h => by
    rw [entryBlocks, if_pos (h _ List.mem_cons_self)]
    exact List.append_ne_nil_of_left_ne_nil (blocks_ne_nil (h _ List.mem_cons_self)) _

end

/-! ## Documents -/

/-- The lines end with the last of them and its end. -/
theorem AreFirm.exists_toList_lines {ls : List String} (h : AreFirm ls) :
    ∃ cs, (lines ls).toList = cs ++ ['\n'] ∧ Firm cs := by
  obtain ⟨ls, l, rfl⟩ := (List.eq_nil_or_concat' ls).resolve_left h.ne_nil
  refine ⟨(lines ls).toList ++ l.toList, ?_, (h.firm l (by simp)).append _⟩
  rw [lines, lines, List.map_append, String.toList_join, String.toList_join, List.flatMap_append]
  simp

theorem exists_intercalate_concat (sep : List Char) (pieces : List (List Char)) (last : List Char) :
    ∃ front, sep.intercalate (pieces ++ [last]) = front ++ last := by
  induction pieces with
  | nil => exact ⟨[], by simp⟩
  | cons piece pieces ih =>
    obtain ⟨front, hfront⟩ := ih
    have hne : pieces ++ [last] ≠ [] := List.append_ne_nil_of_right_ne_nil _ (List.cons_ne_nil _ _)
    exact ⟨piece ++ sep ++ front, by
      rw [List.cons_append, List.intercalate_cons_of_ne_nil hne, hfront, ← List.append_assoc]⟩

/-- The text of a document that holds something ends with the end of a firm line. -/
theorem exists_toList_write {d : Document} (h : d ≠ []) :
    ∃ cs, (write d).toList = cs ++ ['\n'] ∧ Firm cs := by
  rw [write]
  generalize hall : (if (valueLines d).isEmpty then [] else [valueLines d]) ++ entryBlocks [] d = all
  have hne : all ≠ [] := by
    rw [← hall]
    split
    · next hvalues =>
      rw [List.isEmpty_iff, valueLines, List.map_eq_nil_iff, List.filter_eq_nil_iff] at hvalues
      exact entryBlocks_ne_nil h fun e he => by simpa using hvalues e he
    · exact List.cons_ne_nil _ _
  have hfirm : ∀ b ∈ all, AreFirm b := by
    rw [← hall]
    refine List.forall_mem_append.2 ⟨?_, entryBlocks_firm d []⟩
    split
    · exact fun _ h => absurd h List.not_mem_nil
    · next hvalues =>
      refine List.forall_mem_singleton.2 ⟨?_, firm_of_mem_valueLines⟩
      rwa [List.isEmpty_iff] at hvalues
  obtain ⟨bs, b, rfl⟩ := (List.eq_nil_or_concat' all).resolve_left hne
  obtain ⟨cs, hcs, hlast⟩ := (hfirm b (by simp)).exists_toList_lines
  obtain ⟨front, hfront⟩ := exists_intercalate_concat ['\n'] ((bs.map lines).map String.toList)
    (lines b).toList
  refine ⟨front ++ cs, ?_, hlast.append _⟩
  rw [String.toList_intercalate, List.map_append, List.map_append, List.append_assoc, ← hcs,
    ← hfront]
  rfl

/-- The text of a document that holds something is printed as it is. -/
theorem printed_write {d : Document} (h : d ≠ []) : Command.printed (write d) = write d := by
  obtain ⟨cs, hcs, hfirm⟩ := exists_toList_write h
  refine Command.printed_eq_self (hcs ▸ List.getLast?_concat) ?_
  rw [hcs]
  exact hfirm.isSettled_concat_newline

end ForecastJob.Toml
