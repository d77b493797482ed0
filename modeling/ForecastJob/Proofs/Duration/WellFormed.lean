import Mathlib.Data.List.Sort
import ForecastJob.Proofs.Duration.Fraction

/-!
# Durations of the standard form

In the standard form of a duration every unit comes at most once, longer units stand before shorter
ones, something stands behind the `T`, and every amount is a number. A reader asks for less.

* `Duration.IsWellFormed` : the texts of the standard form;
* `Duration.Reading.IsStrict` : what the standard form asks of the components of a text;
* `Duration.isWellFormed_text_iff` : a text has the standard form exactly if its components are so;
* `Duration.isWellFormed_iff_of_parseSeconds` : which of the texts that are read have the standard
  form;
* `Duration.parseSeconds_malformed` : not all of them do.
-/

namespace ForecastJob.Duration

/-! ## The standard form -/

/-- Numbers with the letters of units, at most one for each unit of a list and in its order. -/
inductive IsRun : List TimeUnit → List Char → Prop
  | done : IsRun [] []
  | skip {u : TimeUnit} {us : List TimeUnit} {text : List Char} (h : IsRun us text) :
      IsRun (u :: us) text
  | part {u : TimeUnit} {us : List TimeUnit} {numeral text : List Char} (b : Bool)
      (hn : IsNumber numeral) (h : IsRun us text) :
      IsRun (u :: us) (numeral ++ u.letter b :: text)

/-- The standard form of a duration in units of a fixed length. -/
inductive IsWellFormed : List Char → Prop
  | date {mark : Char} {date : List Char} (hm : mark = 'P' ∨ mark = 'p')
      (hd : IsRun [.week, .day] date) (hne : date ≠ []) : IsWellFormed (mark :: date)
  | clock {mark : Char} {date clock : List Char} (b : Bool) (hm : mark = 'P' ∨ mark = 'p')
      (hd : IsRun [.week, .day] date) (hc : IsRun [.hour, .minute, .second] clock)
      (hne : clock ≠ []) : IsWellFormed (mark :: (date ++ clockMark b :: clock))

/-- A unit is longer than another one. -/
def TimeUnit.Exceeds (u v : TimeUnit) : Prop :=
  v.seconds < u.seconds

instance : DecidableRel TimeUnit.Exceeds := fun u v =>
  inferInstanceAs (Decidable (v.seconds < u.seconds))

instance : Std.Irrefl TimeUnit.Exceeds := ⟨fun u => Nat.lt_irrefl u.seconds⟩

instance : Std.Antisymm TimeUnit.Exceeds := ⟨fun _ _ h h' => absurd h (Nat.lt_asymm h')⟩

/-- Longer units stand before shorter ones, and none comes twice. -/
def Descending (cs : List Component) : Prop :=
  (cs.map Component.unit).Pairwise TimeUnit.Exceeds

instance (cs : List Component) : Decidable (Descending cs) :=
  inferInstanceAs (Decidable (List.Pairwise _ _))

/-- What the standard form asks of the components of a text. -/
structure Reading.IsStrict (r : Reading) : Prop where
  date : Descending r.date
  clock : Descending r.clock
  /-- Something stands behind the `T`, or behind the `P` if there is no `T`. -/
  last_ne_nil : r.time.elim r.date Prod.snd ≠ []
  numbers : ∀ c ∈ r.components, IsNumber c.numeral

/-! ## Runs -/

theorem IsNumber.ne_nil {numeral : List Char} (h : IsNumber numeral) : numeral ≠ [] := by
  cases h with
  | whole h => exact h.nonempty
  | fraction h => exact List.append_ne_nil_of_left_ne_nil h.nonempty _

theorem IsNumber.chars {numeral : List Char} (h : IsNumber numeral) :
    ∀ c ∈ numeral, c.isDigit = true ∨ c = '.' ∨ c = ',' := by
  intro c hc
  cases h with
  | whole h => exact .inl (h.digits c hc)
  | fraction h hf hm =>
    rcases List.mem_append.1 hc with hc | hc
    · exact .inl (h.digits c hc)
    · rcases List.mem_cons.1 hc with rfl | hc
      · exact .inr hm
      · exact .inl (hf.digits c hc)

theorem IsNumber.isDigit_of_mem_head? {numeral : List Char} (h : IsNumber numeral) :
    ∀ c ∈ numeral.head?, c.isDigit = true := by
  intro c hc
  cases h with
  | whole h => exact h.digits c (List.mem_of_mem_head? hc)
  | fraction h =>
    rw [List.head?_append_of_ne_nil _ h.nonempty] at hc
    exact h.digits c (List.mem_of_mem_head? hc)

/-- A run is the text of components whose units are some of the list. -/
theorem isRun_iff {us : List TimeUnit} {text : List Char} :
    IsRun us text ↔ ∃ cs, (cs.map Component.unit).Sublist us ∧
      (∀ c ∈ cs, IsNumber c.numeral) ∧ written cs = text := by
  constructor
  · intro h
    induction h with
    | done => exact ⟨[], .slnil, by simp, rfl⟩
    | skip _ ih =>
      obtain ⟨cs, hcs, hn, htext⟩ := ih
      exact ⟨cs, hcs.cons _, hn, htext⟩
    | @part u us numeral text b hnumber _ ih =>
      obtain ⟨cs, hcs, hn, htext⟩ := ih
      let c : Component := ⟨numeral, u, b, hnumber.ne_nil, hnumber.chars⟩
      refine ⟨c :: cs, hcs.cons_cons u, List.forall_mem_cons.2 ⟨hnumber, hn⟩, ?_⟩
      rw [written, List.flatMap_cons, ← written, htext, Component.text, List.append_assoc]
      rfl
  · rintro ⟨cs, hcs, hn, rfl⟩
    induction us generalizing cs with
    | nil =>
      obtain rfl := List.map_eq_nil_iff.1 (List.sublist_nil.1 hcs)
      exact .done
    | cons u us ih =>
      cases cs with
      | nil => exact .skip (ih [] (List.nil_sublist us) hn)
      | cons c cs =>
        cases hcs with
        | cons _ hcs => exact .skip (ih (c :: cs) hcs hn)
        | cons_cons _ hcs =>
          obtain ⟨hc, hn⟩ := List.forall_mem_cons.1 hn
          have hpart := IsRun.part (u := c.unit) c.lower hc (ih cs hcs hn)
          rw [written, List.flatMap_cons, ← written, Component.text, List.append_assoc]
          exact hpart

/-- Components descend exactly if their units are some of a list that descends. -/
theorem descending_iff {us : List TimeUnit} (hus : us.Pairwise TimeUnit.Exceeds)
    {cs : List Component} (hcs : ∀ c ∈ cs, c.unit ∈ us) :
    Descending cs ↔ (cs.map Component.unit).Sublist us := by
  constructor
  · intro h
    have hsubset : cs.map Component.unit ⊆ us := by
      intro u hu
      obtain ⟨c, hc, rfl⟩ := List.mem_map.1 hu
      exact hcs c hc
    have hnodup : (cs.map Component.unit).Nodup := h.nodup
    exact List.sublist_of_subperm_of_pairwise (hnodup.subperm hsubset) h hus
  · intro h
    exact hus.sublist h

/-- The units that stand before the `T`, and those behind it, in the order of the standard form. -/
theorem units_descend : [TimeUnit.week, .day].Pairwise TimeUnit.Exceeds ∧
    [TimeUnit.hour, .minute, .second].Pairwise TimeUnit.Exceeds := by
  decide

theorem mem_dateUnits_iff (u : TimeUnit) : u ∈ [TimeUnit.week, .day] ↔ u.isClock = false := by
  cases u <;> decide

theorem mem_clockUnits_iff (u : TimeUnit) :
    u ∈ [TimeUnit.hour, .minute, .second] ↔ u.isClock = true := by
  cases u <;> decide

/-! ## Texts -/

theorem written_ne_nil {cs : List Component} (h : cs ≠ []) : written cs ≠ [] := by
  obtain ⟨c, ds, rfl⟩ := List.exists_cons_of_ne_nil h
  rw [written, List.flatMap_cons, Component.text, List.append_assoc]
  exact List.append_ne_nil_of_left_ne_nil c.numeral_ne_nil _

/-- A text of the standard form has a reading that is strict. -/
theorem IsWellFormed.exists_isStrict {text : List Char} (h : IsWellFormed text) :
    ∃ r : Reading, r.text = text ∧ r.IsStrict := by
  have hunits : ∀ {us : List TimeUnit} {cs : List Component},
      (cs.map Component.unit).Sublist us → ∀ c ∈ cs, c.unit ∈ us :=
    fun hcs c hc => hcs.subset (List.mem_map_of_mem hc)
  have hmark : ∀ {mark : Char}, mark = 'P' ∨ mark = 'p' →
      ∃ lower : Bool, (if lower then 'p' else 'P') = mark := by
    rintro _ (rfl | rfl)
    · exact ⟨false, rfl⟩
    · exact ⟨true, rfl⟩
  cases h with
  | date hm hd hne =>
    obtain ⟨lower, rfl⟩ := hmark hm
    obtain ⟨ds, hds, hn, rfl⟩ := isRun_iff.1 hd
    have hdate : ∀ c ∈ ds, c.unit.isClock = false :=
      fun c hc => (mem_dateUnits_iff _).1 (hunits hds c hc)
    refine ⟨{ lower, date := ds, date_units := hdate }, ?_, units_descend.1.sublist hds, .nil, ?_,
      fun c hc => ?_⟩
    · exact congrArg _ (Reading.body_of_none rfl)
    · rintro rfl
      exact hne rfl
    · rcases List.mem_append.1 hc with hc | hc
      · exact hn c hc
      · cases hc
  | clock b hm hd hc hne =>
    obtain ⟨lower, rfl⟩ := hmark hm
    obtain ⟨ds, hds, hn, rfl⟩ := isRun_iff.1 hd
    obtain ⟨cs, hcs, hn', rfl⟩ := isRun_iff.1 hc
    have hdate : ∀ c ∈ ds, c.unit.isClock = false :=
      fun c hc => (mem_dateUnits_iff _).1 (hunits hds c hc)
    have hclock : ∀ c ∈ cs, c.unit.isClock = true :=
      fun c hc => (mem_clockUnits_iff _).1 (hunits hcs c hc)
    refine ⟨{ lower, date := ds, time := some (b, cs), date_units := hdate, time_units := hclock },
      rfl, units_descend.1.sublist hds, units_descend.2.sublist hcs, ?_, fun c hc => ?_⟩
    · rintro rfl
      exact hne rfl
    · rcases List.mem_append.1 hc with hc | hc
      · exact hn c hc
      · exact hn' c hc

/-- A text has the standard form exactly if its components are so. -/
theorem isWellFormed_text_iff (r : Reading) : IsWellFormed r.text ↔ r.IsStrict := by
  constructor
  · intro h
    obtain ⟨r', htext, hstrict⟩ := h.exists_isStrict
    rwa [← Reading.text_injective htext]
  · intro h
    have hmark : (if r.lower then 'p' else 'P') = 'P' ∨ (if r.lower then 'p' else 'P') = 'p' := by
      cases r.lower
      · exact .inl rfl
      · exact .inr rfl
    have hrun : ∀ {us : List TimeUnit} {cs : List Component}, us.Pairwise TimeUnit.Exceeds →
        (∀ c ∈ cs, c.unit ∈ us) → Descending cs → (∀ c ∈ cs, c ∈ r.components) →
        IsRun us (written cs) :=
      fun hus hcs hdesc hmem => isRun_iff.2 ⟨_, (descending_iff hus hcs).1 hdesc,
        fun c hc => h.numbers c (hmem c hc), rfl⟩
    have hdate : IsRun [.week, .day] (written r.date) :=
      hrun units_descend.1 (fun c hc => (mem_dateUnits_iff _).2 (r.date_units c hc)) h.date
        fun c hc => List.mem_append_left _ hc
    have hclock : IsRun [.hour, .minute, .second] (written r.clock) :=
      hrun units_descend.2 (fun c hc => (mem_clockUnits_iff _).2 (r.time_units c hc)) h.clock
        fun c hc => List.mem_append_right _ hc
    have hlast := h.last_ne_nil
    cases htime : r.time with
    | none =>
      rw [htime, Option.elim_none] at hlast
      rw [Reading.text, Reading.body_of_none htime]
      exact .date hmark hdate (written_ne_nil hlast)
    | some t =>
      obtain ⟨b, cs⟩ := t
      rw [htime, Option.elim_some] at hlast
      rw [Reading.clock_of_some htime] at hclock
      rw [Reading.text, Reading.body_of_some htime]
      exact .clock b hmark hdate hclock (written_ne_nil hlast)

/-- A strict reading has components. -/
theorem Reading.IsStrict.components_ne_nil {r : Reading} (h : r.IsStrict) : r.components ≠ [] := by
  have hlast := h.last_ne_nil
  intro hnone
  obtain ⟨hdate, hclock⟩ := List.append_eq_nil_iff.1 hnone
  cases htime : r.time with
  | none =>
    rw [htime] at hlast
    exact hlast hdate
  | some t =>
    rw [Reading.clock_of_some htime] at hclock
    rw [htime] at hlast
    exact hlast hclock

/-- A text that is read as a duration has the standard form exactly if no unit comes twice or before
a longer one, something stands behind the `T`, and all amounts are numbers; what else has not the
standard form is refused. What has it is read unless it is too long. -/
theorem isWellFormed_iff_of_parseSeconds (s : String) :
    (∀ n, parseSeconds s = .ok n → ∃ r : Reading, (∀ r' : Reading, r'.Reads s ↔ r' = r) ∧
      (IsWellFormed (Text.trimChars s.toList) ↔ r.IsStrict)) ∧
    (IsWellFormed (Text.trimChars s.toList) →
      (∃ n, parseSeconds s = .ok n) ∨ parseSeconds s = .error (.overflow s)) := by
  constructor
  · intro n h
    obtain ⟨r, hr, -, -⟩ := exists_reads_iff_of_parseSeconds h
    have hreads : Text.trimChars s.toList = r.text := (hr r).2 rfl
    exact ⟨r, hr, hreads ▸ isWellFormed_text_iff r⟩
  · intro h
    obtain ⟨r, htext, hstrict⟩ := h.exists_isStrict
    have hparse := parseNat_of_reads htext.symm hstrict.components_ne_nil
    unfold parseSeconds
    split at hparse
    · rw [hparse]
      exact .inl ⟨_, rfl⟩
    · rw [hparse]
      exact .inr rfl

/-- A text with lower-case letters has the standard form; one with an hour behind a minute is read,
and would have it if the hour stood in front. -/
theorem isWellFormed_iff_of_parseSeconds_reversed :
    (∃ n, parseSeconds "PT1M1H" = .ok n ∧ ∃ r : Reading, r.Reads "PT1M1H" ∧
      (IsWellFormed (Text.trimChars "PT1M1H".toList) ↔ r.IsStrict)) ∧
    IsWellFormed (Text.trimChars "p1dt0,5s".toList) ∧
    ((∃ n, parseSeconds "p1dt0,5s" = .ok n) ∨
      parseSeconds "p1dt0,5s" = .error (.overflow "p1dt0,5s")) := by
  constructor
  · have hparse : parseSeconds "PT1M1H" = .ok 3660 := by decide +kernel
    obtain ⟨r, hr, hiff⟩ := (isWellFormed_iff_of_parseSeconds "PT1M1H").1 3660 hparse
    exact ⟨3660, hparse, r, (hr r).2 rfl, hiff⟩
  · have hday : IsNumber ['1'] := .whole ⟨by simp, by decide⟩
    have hsecond : IsNumber ['0', ',', '5'] :=
      @IsNumber.fraction ['0'] ['5'] ',' ⟨by simp, by decide⟩ ⟨by simp, by decide⟩ (.inr rfl)
    have hrun : IsRun [.week, .day] "1d".toList :=
      .skip (@IsRun.part .day [] _ [] true hday .done)
    have hrun' : IsRun [.hour, .minute, .second] "0,5s".toList :=
      .skip (.skip (@IsRun.part .second [] _ [] true hsecond .done))
    have hform : IsWellFormed (Text.trimChars "p1dt0,5s".toList) :=
      .clock true (.inr rfl) hrun hrun' (by decide)
    exact ⟨hform, (isWellFormed_iff_of_parseSeconds "p1dt0,5s").2 hform⟩

/-- Not every text that is read has the standard form: a unit can come twice or before a longer one,
the `T` can be the last character, and a number can lack its digits. -/
theorem parseSeconds_malformed :
    (parseSeconds "PT1M1M" = .ok 120 ∧ ¬ IsWellFormed (Text.trimChars "PT1M1M".toList)) ∧
    (parseSeconds "PT1M1H" = .ok 3660 ∧ ¬ IsWellFormed (Text.trimChars "PT1M1H".toList)) ∧
    (parseSeconds "P1DT" = .ok 86400 ∧ ¬ IsWellFormed (Text.trimChars "P1DT".toList)) ∧
    (parseSeconds "PT.S" = .ok 0 ∧ ¬ IsWellFormed (Text.trimChars "PT.S".toList)) := by
  have hform : ∀ {s : String} (r : Reading), r.Reads s → ¬ r.IsStrict →
      ¬ IsWellFormed (Text.trimChars s.toList) := by
    intro s r hr hstrict hform
    rw [hr] at hform
    exact hstrict ((isWellFormed_text_iff r).1 hform)
  let minute : Component := { numeral := ['1'], unit := .minute }
  let hour : Component := { numeral := ['1'], unit := .hour }
  let day : Component := { numeral := ['1'], unit := .day }
  let second : Component := { numeral := ['.'], unit := .second }
  refine ⟨⟨by decide +kernel, ?_⟩, ⟨by decide +kernel, ?_⟩, ⟨by decide +kernel, ?_⟩,
    ⟨by decide +kernel, ?_⟩⟩
  · refine hform { date := [], time := some (false, [minute, minute]) } (by decide +kernel) ?_
    intro h
    exact absurd h.clock (by decide)
  · refine hform { date := [], time := some (false, [minute, hour]) } (by decide +kernel) ?_
    intro h
    exact absurd h.clock (by decide)
  · refine hform { date := [day], time := some (false, []) } (by decide +kernel) ?_
    intro h
    exact h.last_ne_nil rfl
  · refine hform { date := [], time := some (false, [second]) } (by decide +kernel) ?_
    intro h
    have hnumber := h.numbers second (List.mem_singleton_self second)
    cases hnumber.isDigit_of_mem_head? '.' rfl

end ForecastJob.Duration
