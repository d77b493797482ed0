import Mathlib.Tactic.Linarith
import Mathlib.Tactic.Tauto
import ForecastJob.Proofs.Outcome
import ForecastJob.Proofs.Trimming
import ForecastJob.Wire.Duration

/-!
# Durations are read back

* `Duration.parseNat_format` : the text of a number of seconds is read as that number;
* `Duration.parseSeconds_formatSeconds`, `Duration.parseMinutes_formatMinutes` : so are the texts
  of seconds and of minutes.

A component adds its seconds to those read before it (`Duration.foldlM_component`); the components
of a text add up to all of its seconds.
-/

namespace ForecastJob

namespace Duration

/-! ## Amounts -/

theorem digitsValue_toDigits (n : Nat) : digitsValue (Nat.toDigits 10 n) = n := by
  have h := Nat.ofDigitChars_ten_toDigits (n := n)
  rw [Nat.ofDigitChars_eq_foldl] at h
  simpa only [digitsValue, Nat.mul_comm] using h

theorem isDigit_of_mem_toDigits {n : Nat} {c : Char} (h : c ∈ Nat.toDigits 10 n) :
    c.isDigit = true :=
  Nat.isDigit_of_mem_toDigits (by decide) (by decide) h

theorem wholePart_toDigits (n : Nat) : wholePart (Nat.toDigits 10 n) = n := by
  have h : (Nat.toDigits 10 n ++ []).takeWhile Char.isDigit = _ :=
    List.takeWhile_append_of_pos fun _ => isDigit_of_mem_toDigits
  rw [List.append_nil, List.takeWhile_nil, List.append_nil] at h
  rw [wholePart, h, digitsValue_toDigits]

/-! ## One component -/

theorem toUpper_of_isDigit {c : Char} (h : c.isDigit = true) : c.toUpper = c := by
  simp only [Char.isDigit, ge_iff_le, Bool.and_eq_true, decide_eq_true_eq] at h
  refine dif_neg fun hl => ?_
  exact absurd (UInt32.le_trans hl.1 h.2) (by decide)

theorem isNumeral_of_isDigit {c : Char} (h : c.isDigit = true) : isNumeral c = true := by
  rw [isNumeral, h, Bool.true_or, Bool.true_or]

/-- A character of an amount goes to the amount. -/
theorem step_numeral {s : String} {st : State} {c : Char} (h : isNumeral c = true) :
    State.step s st c = .ok { st with numeral := st.numeral ++ [c] } := by
  have hT : (c.toUpper == 'T') = false := by
    simp only [isNumeral, Bool.or_eq_true, beq_iff_eq] at h
    rcases h with (h | rfl) | rfl
    · rw [toUpper_of_isDigit h, beq_eq_false_iff_ne]
      rintro rfl
      cases h
    all_goals rfl
  rw [State.step, hT, h]
  rfl

theorem foldlM_numeral {s : String} {cs : List Char} {st : State}
    (h : ∀ c ∈ cs, isNumeral c = true) :
    cs.foldlM (State.step s) st = .ok { st with numeral := st.numeral ++ cs } := by
  induction cs generalizing st with
  | nil =>
    rw [List.append_nil]
    rfl
  | cons c cs ih =>
    rw [List.foldlM_cons, step_numeral (h c List.mem_cons_self), Except.ok_bind,
      ih fun c hc => h c (List.mem_cons_of_mem _ hc), List.append_assoc, List.singleton_append]

/-- The letter of a unit ends the component before it. -/
theorem step_unit {s : String} {st : State} {c : Char} (hc : c ∈ ['D', 'H', 'M', 'S']) :
    State.step s st c = st.close s c := by
  simp only [List.mem_cons, List.not_mem_nil, or_false] at hc
  rcases hc with rfl | rfl | rfl | rfl <;> rfl

/-- A component adds its seconds to those read before it. -/
theorem foldlM_component {s : String} {amount scale total : Nat} {inTime started : Bool} {c : Char}
    (hc : c ∈ ['D', 'H', 'M', 'S']) (hs : scale? c.toUpper inTime = some scale)
    (hl : total + amount * scale < limit) :
    (component amount c).toList.foldlM (State.step s) ⟨total, inTime, [], started⟩ =
      .ok ⟨total + amount * scale, inTime, [], started || decide (amount ≠ 0)⟩ := by
  rw [component]
  split
  · next h =>
    subst h
    simp
  · next h =>
    have hunit : isCalendar c.toUpper inTime = false ∧ 0 < scale := by
      simp only [List.mem_cons, List.not_mem_nil, or_false] at hc
      rcases hc with rfl | rfl | rfl | rfl <;> cases inTime <;> cases hs <;>
        exact ⟨rfl, by decide⟩
    have hamount : amount ≤ amount * scale := Nat.le_mul_of_pos_right _ hunit.2
    have hne : (Nat.toDigits 10 amount).isEmpty = false := by simp [Nat.toDigits_ne_nil]
    have hclose : State.close s c ⟨total, inTime, Nat.toDigits 10 amount, started⟩ =
        .ok ⟨total + amount * scale, inTime, [], true⟩ := by
      simp only [State.close, hne, hunit.1, hs, wholePart_toDigits, Bool.false_eq_true, if_false]
      rw [if_pos]
      simp only [Bool.and_eq_true, decide_eq_true_eq]
      omega
    rw [String.toList_append, Nat.toString_eq_repr, Nat.toList_repr, List.foldlM_append,
      foldlM_numeral fun c hc => isNumeral_of_isDigit (isDigit_of_mem_toDigits hc)]
    have hc' : c.toString.toList = [c] := String.toList_singleton c
    simp only [bind, Except.bind, List.nil_append, hc', List.foldlM_cons, step_unit hc, hclose,
      List.foldlM_nil, pure, Except.pure, ne_eq, h, not_false_eq_true, decide_true, Bool.or_true]

/-- No character of a component is a blank. -/
theorem isBlank_of_mem_component {amount : Nat} {u c : Char} (hu : Text.isBlank u = false)
    (hc : c ∈ (component amount u).toList) : Text.isBlank c = false := by
  rw [component] at hc
  split at hc
  · simp at hc
  · rw [String.toList_append, Nat.toString_eq_repr, Nat.toList_repr, List.mem_append] at hc
    rcases hc with hc | hc
    · exact Text.isBlank_of_isDigit (isDigit_of_mem_toDigits hc)
    · have hcu : c = u := by simpa [Char.toString] using hc
      rw [hcu, hu]

/-! ## All components -/

/-- The components of less than a day. -/
def clock (hours minutes seconds : Nat) : String :=
  component hours 'H' ++ component minutes 'M' ++ component seconds 'S'

/-- What follows the `P` of a duration. -/
def components (days : Nat) (clock : String) : List Char :=
  (component days 'D').toList ++ if clock.isEmpty then [] else 'T' :: clock.toList

theorem component_eq_empty {amount : Nat} {u : Char} : component amount u = "" ↔ amount = 0 := by
  rw [component]
  split
  · simp [*]
  · next h =>
    refine iff_of_false (fun hc => ?_) h
    simpa [Nat.toDigits_ne_nil] using congrArg String.toList hc

theorem clock_eq_empty {h m s : Nat} : clock h m s = "" ↔ h = 0 ∧ m = 0 ∧ s = 0 := by
  simp only [clock, String.append_eq_empty_iff, component_eq_empty, and_assoc]

theorem foldlM_clock {v : String} {total h m s : Nat} (started : Bool)
    (hl : total + h * 3600 + m * 60 + s < limit) :
    (clock h m s).toList.foldlM (State.step v) ⟨total, true, [], started⟩ =
      .ok ⟨total + h * 3600 + m * 60 + s, true, [], started || decide (clock h m s ≠ "")⟩ := by
  simp only [clock, String.toList_append, List.foldlM_append, bind, Except.bind]
  rw [foldlM_component (by decide) rfl (by omega)]
  simp only
  rw [foldlM_component (by decide) rfl (by omega)]
  simp only
  rw [foldlM_component (by decide) rfl (by omega), Nat.mul_one]
  refine congrArg _ (congrArg (State.mk _ _ _) (Bool.eq_iff_iff.2 ?_))
  have hc := clock_eq_empty (h := h) (m := m) (s := s)
  simp only [clock] at hc
  simp only [Bool.or_eq_true, decide_eq_true_eq, ne_eq, hc]
  tauto

/-- The components of a text add up to all of its seconds. -/
theorem foldlM_components {v : String} {d h m s : Nat}
    (h₀ : d * 86400 + h * 3600 + m * 60 + s ≠ 0)
    (hl : d * 86400 + h * 3600 + m * 60 + s < limit) :
    ∃ inTime, (components d (clock h m s)).foldlM (State.step v) State.init =
      .ok ⟨d * 86400 + h * 3600 + m * 60 + s, inTime, [], true⟩ := by
  rw [components, List.foldlM_append]
  simp only [bind, Except.bind, State.init]
  rw [foldlM_component (by decide) rfl (by omega), Nat.zero_add]
  simp only [String.isEmpty_iff]
  split
  · next hc =>
    obtain ⟨rfl, rfl, rfl⟩ := clock_eq_empty.1 hc
    have hd : d ≠ 0 := by
      rintro rfl
      exact h₀ rfl
    exact ⟨false, by simp [hd, pure, Except.pure]⟩
  · next hc =>
    refine ⟨true, ?_⟩
    have hfold := foldlM_clock (v := v) (decide (d ≠ 0)) hl
    rw [decide_eq_true hc, Bool.or_true] at hfold
    exact hfold

/-! ## Texts -/

theorem toList_format {total : Nat} (h : total ≠ 0) : (format total).toList = 'P' ::
    components (total / 86400)
      (clock (total % 86400 / 3600) (total % 3600 / 60) (total % 60)) := by
  rw [format, if_neg h, ← clock]
  show ("P" ++ _ ++ ite _ "" ("T" ++ clock _ _ _)).toList = _
  rw [String.toList_append, String.toList_append, components, apply_ite String.toList,
    String.toList_append]
  rfl

/-- A span is made up of its days, hours, minutes and seconds. -/
theorem parts (total : Nat) : total / 86400 * 86400 + total % 86400 / 3600 * 3600 +
    total % 3600 / 60 * 60 + total % 60 = total := by
  have hd := Nat.div_add_mod' total 86400
  have hh := Nat.div_add_mod' (total % 86400) 3600
  have hm := Nat.div_add_mod' (total % 3600) 60
  rw [Nat.mod_mod_of_dvd _ (by decide)] at hh hm
  linarith

theorem isBlank_of_mem_components {d h m s : Nat} {c : Char}
    (hc : c ∈ components d (clock h m s)) : Text.isBlank c = false := by
  rw [components, List.mem_append] at hc
  rcases hc with hc | hc
  · exact isBlank_of_mem_component rfl hc
  · split at hc
    · cases hc
    · simp only [clock, String.toList_append, List.mem_cons, List.mem_append] at hc
      rcases hc with rfl | (hc | hc) | hc
      · rfl
      all_goals exact isBlank_of_mem_component rfl hc

/-- The text of a number of seconds is read as that number. -/
theorem parseNat_format {total : Nat} (h : total < limit) :
    parseNat (format total) = .ok total := by
  by_cases h₀ : total = 0
  · subst h₀
    rfl
  · have hp := parts total
    obtain ⟨inTime, hfold⟩ := foldlM_components (v := format total) (by rwa [hp]) (by rwa [hp])
    rw [hp] at hfold
    have hbody : body? (format total) = some (components (total / 86400)
        (clock (total % 86400 / 3600) (total % 3600 / 60) (total % 60))) := by
      have htrim : Text.trimChars (format total).toList = (format total).toList := by
        refine Text.trimChars_eq_self fun c hc => ?_
        rw [toList_format h₀, List.mem_cons] at hc
        rcases hc with rfl | hc
        · rfl
        · exact isBlank_of_mem_components hc
      rw [body?, htrim, toList_format h₀]
      rfl
    simp only [parseNat, hbody, hfold, bind, Except.bind]
    rfl

/-- The text of seconds is read as them. -/
theorem parseSeconds_formatSeconds (n : UInt64) : parseSeconds (formatSeconds n) = .ok n := by
  rw [parseSeconds, formatSeconds, parseNat_format n.toNat_lt]
  exact congrArg Except.ok UInt64.ofNat_toNat

/-- The text of minutes is read as them. -/
theorem parseMinutes_formatMinutes (n : UInt32) : parseMinutes (formatMinutes n) = .ok n := by
  have hn := n.toNat_lt
  have hl : n.toNat * 60 < limit := by
    simp only [limit, UInt64.size]
    omega
  rw [parseMinutes, formatMinutes, parseNat_format hl]
  simp only [bind, Except.bind, Nat.mul_div_cancel _ (Nat.succ_pos 59)]
  rw [if_pos hn, UInt32.ofNat_toNat]
  rfl

end Duration

end ForecastJob
