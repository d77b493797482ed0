import Mathlib.Data.List.Basic
import ForecastJob.Proofs.Duration

/-!
# The canonical texts of durations

A span of time is written with its days, hours, minutes and seconds, of which only those that are
not zero are there. Every span has one such text, and these are the only texts that are written.

* `Duration.IsAmount`, `Duration.IsPart` : the numerals without leading zeros, and the parts of a
  text;
* `Duration.Spells` : the text that is made up of the parts of a span;
* `Duration.spells_iff` : it is the one that is written;
* `Duration.bijective_format` : writing and reading are inverse to each other on these texts.
-/

namespace ForecastJob.Duration

/-! ## Amounts -/

/-- A numeral of decimal digits whose first one is not zero. -/
structure IsAmount (ds : List Char) : Prop where
  digits : ∀ c ∈ ds, c.isDigit = true
  nonempty : ds ≠ []
  leading : ds.head? ≠ some '0'

theorem digitChar_of_isDigit {c : Char} (h : c.isDigit = true) :
    c.toNat - '0'.toNat < 10 ∧ Nat.digitChar (c.toNat - '0'.toNat) = c := by
  simp only [Char.isDigit, ge_iff_le, Bool.and_eq_true, decide_eq_true_eq, UInt32.le_iff_toNat_le]
    at h
  have h₁ : 48 ≤ c.toNat := h.1
  have h₂ : c.toNat ≤ 57 := h.2
  have hzero : '0'.toNat = 48 := rfl
  have hlt : c.toNat - '0'.toNat < 10 := by omega
  refine ⟨hlt, Char.toNat_inj.1 ?_⟩
  rw [Nat.toNat_digitChar_of_lt_ten hlt]
  omega

/-- Further digits of a numeral go on the one before them. -/
theorem toDigits_append {n : Nat} (hn : 0 < n) {ds : List Char} (h : ∀ c ∈ ds, c.isDigit = true) :
    Nat.toDigits 10 n ++ ds =
      Nat.toDigits 10 (ds.foldl (fun n d => n * 10 + (d.toNat - '0'.toNat)) n) := by
  induction ds generalizing n with
  | nil => simp
  | cons d ds ih =>
    obtain ⟨hlt, hd⟩ := digitChar_of_isDigit (h d List.mem_cons_self)
    have hlast := Nat.toDigits_append_toDigits (b := 10) (by decide) hn hlt
    rw [Nat.toDigits_of_lt_base hlt, hd, Nat.mul_comm] at hlast
    rw [List.foldl_cons, ← ih (by omega) fun c hc => h c (List.mem_cons_of_mem _ hc), ← hlast,
      List.append_assoc, List.singleton_append]

namespace IsAmount

variable {ds : List Char}

/-- An amount is the numeral of its value, which is not zero. -/
theorem eq_toDigits (h : IsAmount ds) :
    digitsValue ds ≠ 0 ∧ Nat.toDigits 10 (digitsValue ds) = ds := by
  obtain ⟨hdigits, hne, hzero⟩ := h
  cases ds with
  | nil => exact absurd rfl hne
  | cons d ds =>
    obtain ⟨hlt, hd⟩ := digitChar_of_isDigit (hdigits d List.mem_cons_self)
    have hpos : 0 < d.toNat - '0'.toNat := by
      refine Nat.pos_of_ne_zero fun hz => hzero ?_
      rw [List.head?_cons, ← hd, hz]
      rfl
    have hall := toDigits_append hpos fun c hc => hdigits c (List.mem_cons_of_mem _ hc)
    rw [Nat.toDigits_of_lt_base hlt, hd, List.singleton_append] at hall
    have hvalue : digitsValue (d :: ds) =
        ds.foldl (fun n d => n * 10 + (d.toNat - '0'.toNat)) (d.toNat - '0'.toNat) := by
      simp only [digitsValue, List.foldl_cons, Nat.zero_mul, Nat.zero_add]
    rw [hvalue]
    refine ⟨fun hz => ?_, hall.symm⟩
    rw [hz, Nat.toDigits_zero] at hall
    exact hzero (congrArg List.head? hall)

end IsAmount

theorem isAmount_toDigits {n : Nat} (h : n ≠ 0) : IsAmount (Nat.toDigits 10 n) := by
  refine ⟨fun _ => isDigit_of_mem_toDigits, Nat.toDigits_ne_nil, ?_⟩
  induction n using Nat.strong_induction_on with
  | _ n ih =>
    rw [Nat.toDigits_eq_if (by decide)]
    split
    · simpa using h
    · rw [List.head?_append_of_ne_nil _ Nat.toDigits_ne_nil]
      exact ih (n / 10) (by omega) (by omega)

/-! ## Parts -/

/-- A part of the text of a duration: an amount and the letter of its unit, or nothing for zero. -/
inductive IsPart (unit : Char) : Nat → List Char → Prop
  | absent : IsPart unit 0 []
  | present {ds : List Char} (h : IsAmount ds) : IsPart unit (digitsValue ds) (ds ++ [unit])

theorem isPart_iff {unit : Char} {amount : Nat} {cs : List Char} :
    IsPart unit amount cs ↔ cs = (component amount unit).toList := by
  have htext : amount ≠ 0 →
      (component amount unit).toList = Nat.toDigits 10 amount ++ [unit] := by
    intro h
    rw [component, if_neg h, String.toList_append, Nat.toString_eq_repr, Nat.toList_repr]
    exact congrArg _ (String.toList_singleton unit)
  constructor
  · rintro (_ | h)
    · rfl
    · obtain ⟨hne, hdigits⟩ := h.eq_toDigits
      rw [htext hne, hdigits]
  · rintro rfl
    by_cases h : amount = 0
    · subst h
      exact .absent
    · have hpart : IsPart unit _ _ := .present (isAmount_toDigits h)
      rwa [digitsValue_toDigits, ← htext h] at hpart

/-! ## Texts -/

/-- The parts of less than a day behind their designator, which is there if one of them is. -/
def timed (parts : List Char) : List Char :=
  if parts = [] then [] else 'T' :: parts

/-- The text is made up of the days, hours, minutes and seconds of a number of seconds. -/
inductive Spells : Nat → String → Prop
  | zero : Spells 0 "PT0S"
  | parts {d h m s : Nat} {days hours minutes seconds : List Char} {text : String}
      (hd : IsPart 'D' d days) (hh : IsPart 'H' h hours) (hm : IsPart 'M' m minutes)
      (hs : IsPart 'S' s seconds) (hours_lt : h < 24) (minutes_lt : m < 60) (seconds_lt : s < 60)
      (one : days ++ (hours ++ minutes ++ seconds) ≠ [])
      (htext : text.toList = 'P' :: (days ++ timed (hours ++ minutes ++ seconds))) :
      Spells (d * 86400 + h * 3600 + m * 60 + s) text

/-- The text is that of a number of seconds that 64 bits can hold. -/
def IsCanonical (text : String) : Prop :=
  ∃ total, total < limit ∧ Spells total text

theorem components_eq (d h m s : Nat) : components d (clock h m s) =
    (component d 'D').toList ++ timed ((component h 'H').toList ++ (component m 'M').toList ++
      (component s 'S').toList) := by
  have hclock : (clock h m s).toList = (component h 'H').toList ++ (component m 'M').toList ++
      (component s 'S').toList := by
    rw [clock, String.toList_append, String.toList_append]
  rw [components, timed, ← hclock]
  simp only [String.isEmpty_iff, String.toList_eq_nil_iff]

/-- The text that is made up of the parts of a span is the one that is written for it. -/
theorem spells_iff {total : Nat} {text : String} : Spells total text ↔ text = format total := by
  constructor
  · rintro (_ | ⟨hd, hh, hm, hs, hours_lt, minutes_lt, seconds_lt, one, htext⟩)
    · rfl
    · next d h m s _ _ _ _ =>
      rw [isPart_iff] at hd hh hm hs
      subst hd hh hm hs
      have hne : d * 86400 + h * 3600 + m * 60 + s ≠ 0 := by
        intro hz
        refine one ?_
        obtain ⟨rfl, rfl, rfl, rfl⟩ : d = 0 ∧ h = 0 ∧ m = 0 ∧ s = 0 := by omega
        rfl
      have hdays : (d * 86400 + h * 3600 + m * 60 + s) / 86400 = d := by omega
      have hhours : (d * 86400 + h * 3600 + m * 60 + s) % 86400 / 3600 = h := by omega
      have hminutes : (d * 86400 + h * 3600 + m * 60 + s) % 3600 / 60 = m := by omega
      have hseconds : (d * 86400 + h * 3600 + m * 60 + s) % 60 = s := by omega
      refine String.toList_injective ?_
      rw [htext, toList_format hne, hdays, hhours, hminutes, hseconds, components_eq]
  · rintro rfl
    by_cases h : total = 0
    · subst h
      exact .zero
    · have htext := toList_format h
      rw [components_eq] at htext
      have hspells := Spells.parts (isPart_iff.2 rfl) (isPart_iff.2 rfl) (isPart_iff.2 rfl)
        (isPart_iff.2 rfl) (by omega) (by omega) (by omega) ?_ htext
      · rwa [parts total] at hspells
      · -- without parts the span would be zero
        intro hnone
        simp only [List.append_eq_nil_iff, String.toList_eq_nil_iff, component_eq_empty] at hnone
        omega

/-- Writing a span and reading its text are inverse to each other: spans are read back, minutes
without an overflow, and the texts that are written for seconds are the canonical ones. -/
theorem bijective_format :
    (∀ n : UInt64, parseSeconds (formatSeconds n) = .ok n) ∧
    (∀ m : UInt32, (m.toUInt64 * 60).toNat = m.toNat * 60 ∧
      formatMinutes m = formatSeconds (m.toUInt64 * 60) ∧
      parseMinutes (formatMinutes m) = .ok m) ∧
    (∀ text, (∃ n, formatSeconds n = text) ↔ IsCanonical text) ∧
    ∀ text, IsCanonical text → ∃ n, parseSeconds text = .ok n ∧ formatSeconds n = text := by
  have himage : ∀ text, (∃ n, formatSeconds n = text) ↔ IsCanonical text := by
    intro text
    constructor
    · rintro ⟨n, rfl⟩
      exact ⟨n.toNat, n.toNat_lt, spells_iff.2 rfl⟩
    · rintro ⟨total, hl, h⟩
      refine ⟨UInt64.ofNat total, ?_⟩
      rw [spells_iff.1 h, formatSeconds, UInt64.toNat_ofNat_of_lt' hl]
  refine ⟨parseSeconds_formatSeconds, fun m => ?_, himage, fun text h => ?_⟩
  · have hm := m.toNat_lt
    have hseconds : (m.toUInt64 * 60).toNat = m.toNat * 60 := by
      rw [UInt64.toNat_mul, UInt32.toNat_toUInt64]
      exact Nat.mod_eq_of_lt (by simp; omega)
    refine ⟨hseconds, ?_, parseMinutes_formatMinutes m⟩
    rw [formatMinutes, formatSeconds, hseconds]
  · obtain ⟨n, rfl⟩ := (himage text).2 h
    exact ⟨n, parseSeconds_formatSeconds n, rfl⟩

/-- The longest span that 64 bits can hold has no minutes. -/
theorem bijective_format_longest : IsCanonical "P213503982334601DT7H15S" ∧
    ∃ n, parseSeconds "P213503982334601DT7H15S" = .ok n ∧
      formatSeconds n = "P213503982334601DT7H15S" := by
  have hcanonical : IsCanonical "P213503982334601DT7H15S" :=
    (bijective_format.2.2.1 _).1 ⟨18446744073709551615, by decide +kernel⟩
  exact ⟨hcanonical, bijective_format.2.2.2 _ hcanonical⟩

end ForecastJob.Duration
