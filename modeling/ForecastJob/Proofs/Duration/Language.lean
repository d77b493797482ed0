import Mathlib.Algebra.BigOperators.Group.List.Basic
import Mathlib.Data.List.Induction
import ForecastJob.Proofs.Duration

/-!
# The language of durations

A duration is a `P`, then components in weeks and days, and possibly a `T` with components in hours,
minutes and seconds behind it; a component is a numeral of digits, points and commas with the letter
of its unit. The components of either side of the `T` can come in any order and any number.

* `Duration.Component`, `Duration.Reading` : a component, and what a whole text is made up of;
* `Duration.Reading.text_injective` : a text is made up in one way only;
* `Duration.Scanned.step`, `Duration.exists_scanned` : what has been read is always a reading with
  the amount that is still to be closed behind it;
* `Duration.Reading.foldlM_body` : the seconds of a reading are added up, as long as they fit;
* `Duration.parseSeconds_language` : the texts that are read as durations, with their seconds.
-/

namespace ForecastJob

theorem Text.takeWhile_congr {p q : Char → Bool} {cs : List Char} (h : ∀ c ∈ cs, p c = q c) :
    cs.takeWhile p = cs.takeWhile q := by
  induction cs with
  | nil => rfl
  | cons c cs ih =>
    rw [List.takeWhile_cons, List.takeWhile_cons, h c List.mem_cons_self,
      ih fun x hx => h x (List.mem_cons_of_mem _ hx)]

namespace Duration

/-! ## Components -/

/-- The units of a fixed length. -/
inductive TimeUnit where
  | week
  | day
  | hour
  | minute
  | second
  deriving Repr, DecidableEq

namespace TimeUnit

def seconds : TimeUnit → Nat
  | week => 604800
  | day => 86400
  | hour => 3600
  | minute => 60
  | second => 1

/-- The letter of a unit, in lower case or not. -/
def letter : TimeUnit → Bool → Char
  | week, false => 'W'
  | week, true => 'w'
  | day, false => 'D'
  | day, true => 'd'
  | hour, false => 'H'
  | hour, true => 'h'
  | minute, false => 'M'
  | minute, true => 'm'
  | second, false => 'S'
  | second, true => 's'

/-- The unit is shorter than a day, so that it stands behind the `T`. -/
def isClock : TimeUnit → Bool
  | week => false
  | day => false
  | hour => true
  | minute => true
  | second => true

theorem seconds_pos (u : TimeUnit) : 0 < u.seconds := by
  cases u <;> decide

theorem letter_inj {u v : TimeUnit} {b b' : Bool} (h : u.letter b = v.letter b') :
    u = v ∧ b = b' := by
  revert h
  cases u <;> cases v <;> cases b <;> cases b' <;> decide

theorem isNumeral_letter (u : TimeUnit) (b : Bool) : isNumeral (u.letter b) = false := by
  cases u <;> cases b <;> rfl

end TimeUnit

/-- The designator of the time of day, in lower case or not. -/
def clockMark (lower : Bool) : Char :=
  if lower then 't' else 'T'

/-- A component of a duration as it is written. -/
structure Component where
  numeral : List Char
  unit : TimeUnit
  /-- The letter of the unit is in lower case. -/
  lower : Bool := false
  numeral_ne_nil : numeral ≠ [] := by decide
  numeral_chars : ∀ c ∈ numeral, c.isDigit = true ∨ c = '.' ∨ c = ',' := by simp

namespace Component

variable (c : Component)

def text : List Char :=
  c.numeral ++ [c.unit.letter c.lower]

/-- The number before the first point or comma, which is zero if no digits are there. -/
def whole : Nat :=
  Nat.ofDigitChars 10 (c.numeral.takeWhile fun x => x != '.' && x != ',') 0

def seconds : Nat :=
  c.whole * c.unit.seconds

theorem isNumeral_of_mem {x : Char} (h : x ∈ c.numeral) : isNumeral x = true := by
  simp only [isNumeral, Bool.or_eq_true, beq_iff_eq, or_assoc]
  exact c.numeral_chars x h

theorem wholePart_numeral : wholePart c.numeral = c.whole := by
  have hspan : c.numeral.takeWhile Char.isDigit =
      c.numeral.takeWhile fun x => x != '.' && x != ',' := by
    refine Text.takeWhile_congr fun x hx => ?_
    rcases c.numeral_chars x hx with h | rfl | rfl
    · rw [h]
      refine (Bool.and_eq_true_iff.2 ⟨bne_iff_ne.2 ?_, bne_iff_ne.2 ?_⟩).symm
      all_goals
        rintro rfl
        cases h
    · rfl
    · rfl
  rw [wholePart, whole, hspan, digitsValue, Nat.ofDigitChars_eq_foldl]
  simp only [Nat.mul_comm]

/-- What follows a component does not change what it is. -/
theorem text_append_inj {c c' : Component} {rest rest' : List Char}
    (h : c.text ++ rest = c'.text ++ rest') : c = c' ∧ rest = rest' := by
  have hspan : ∀ (d : Component) (r : List Char),
      (d.text ++ r).takeWhile isNumeral = d.numeral ∧
        (d.text ++ r).dropWhile isNumeral = d.unit.letter d.lower :: r := by
    intro d r
    have hletter := d.unit.isNumeral_letter d.lower
    rw [text, List.append_assoc, List.singleton_append,
      List.takeWhile_append_of_pos fun x hx => d.isNumeral_of_mem hx,
      List.dropWhile_append_of_pos fun x hx => d.isNumeral_of_mem hx,
      List.takeWhile_cons, List.dropWhile_cons, hletter]
    exact ⟨List.append_nil _, rfl⟩
  have hnumeral := (hspan c rest).1
  rw [h, (hspan c' rest').1] at hnumeral
  have htail := (hspan c rest).2
  rw [h, (hspan c' rest').2, List.cons.injEq] at htail
  obtain ⟨hunit, hlower⟩ := TimeUnit.letter_inj htail.1
  refine ⟨?_, htail.2.symm⟩
  cases c
  cases c'
  cases hnumeral
  cases hunit
  cases hlower
  rfl

end Component

def written (cs : List Component) : List Char :=
  cs.flatMap Component.text

/-- The seconds that components count for together. -/
def total (cs : List Component) : Nat :=
  (cs.map Component.seconds).sum

/-! ## Readings -/

/-- What a text is made up of. -/
structure Reading where
  /-- The `P` is in lower case. -/
  lower : Bool := false
  /-- The components before the `T`. -/
  date : List Component
  /-- The case of the `T` and the components behind it, if there is one. -/
  time : Option (Bool × List Component) := none
  date_units : ∀ c ∈ date, c.unit.isClock = false := by decide
  time_units : ∀ c ∈ time.elim [] Prod.snd, c.unit.isClock = true := by decide

namespace Reading

variable (r : Reading)

def clock : List Component :=
  r.time.elim [] Prod.snd

def components : List Component :=
  r.date ++ r.clock

def seconds : Nat :=
  total r.components

def body : List Char :=
  written r.date ++ r.time.elim [] fun (lower, cs) => clockMark lower :: written cs

def text : List Char :=
  (if r.lower then 'p' else 'P') :: r.body

/-- The text is made up so, but for the blanks around it. -/
def Reads (s : String) : Prop :=
  Text.trimChars s.toList = r.text

instance (s : String) : Decidable (r.Reads s) :=
  inferInstanceAs (Decidable (Text.trimChars s.toList = r.text))

section

variable {r}

theorem clock_of_none (h : r.time = none) : r.clock = [] := by
  rw [clock, h, Option.elim_none]

theorem clock_of_some {b : Bool} {cs : List Component} (h : r.time = some (b, cs)) :
    r.clock = cs := by
  rw [clock, h, Option.elim_some]

theorem body_of_none (h : r.time = none) : r.body = written r.date := by
  rw [body, h, Option.elim_none, List.append_nil]

theorem body_of_some {b : Bool} {cs : List Component} (h : r.time = some (b, cs)) :
    r.body = written r.date ++ clockMark b :: written cs := by
  rw [body, h, Option.elim_some]

end

/-- The time of day is opened without components. -/
theorem exists_open (b : Bool) (h : r.time = none) :
    ∃ r' : Reading, r'.body = r.body ++ [clockMark b] ∧ r'.components = r.components ∧
      r'.time.isSome = true := by
  refine ⟨{ r with time := some (b, []), time_units := nofun }, ?_, ?_, rfl⟩
  · rw [body_of_none h]
    rfl
  · rw [components, components, clock_of_none h]
    rfl

/-- One more component goes where its unit belongs. -/
theorem exists_push (c : Component) (h : c.unit.isClock = r.time.isSome) :
    ∃ r' : Reading, r'.body = r.body ++ c.text ∧ r'.components = r.components ++ [c] ∧
      r'.time.isSome = r.time.isSome := by
  obtain ⟨lower, date, time, hdate, htime⟩ := r
  cases time with
  | none =>
    refine ⟨⟨lower, date ++ [c], none, ?_, htime⟩, ?_, ?_, rfl⟩
    · intro x hx
      rcases List.mem_append.1 hx with hx | hx
      · exact hdate x hx
      · rw [List.mem_singleton.1 hx]
        exact h
    · simp [body, written]
    · simp [components, clock]
  | some t =>
    obtain ⟨lower', cs⟩ := t
    refine ⟨⟨lower, date, some (lower', cs ++ [c]), hdate, ?_⟩, ?_, ?_, rfl⟩
    · intro x hx
      rcases List.mem_append.1 hx with hx | hx
      · exact htime x hx
      · rw [List.mem_singleton.1 hx]
        exact h
    · simp [body, written]
    · simp [components, clock]

end Reading

theorem isNumeral_clockMark (b : Bool) : isNumeral (clockMark b) = false := by
  cases b <;> rfl

theorem clockMark_inj {b b' : Bool} (h : clockMark b = clockMark b') : b = b' := by
  revert h
  cases b <;> cases b' <;> decide

/-- The components of a text are told apart by their letters, up to where no numeral starts. -/
theorem written_append_inj {cs cs' : List Component} {rest rest' : List Char}
    (hrest : ∀ x ∈ rest.head?, isNumeral x = false)
    (hrest' : ∀ x ∈ rest'.head?, isNumeral x = false)
    (h : written cs ++ rest = written cs' ++ rest') : cs = cs' ∧ rest = rest' := by
  have hclash : ∀ (c : Component) (ds : List Component) (tail other : List Char),
      (∀ x ∈ other.head?, isNumeral x = false) → other ≠ written (c :: ds) ++ tail := by
    rintro c ds tail other hother rfl
    obtain ⟨x, xs, hx⟩ := List.exists_cons_of_ne_nil c.numeral_ne_nil
    have hnumeral : isNumeral x = true := c.isNumeral_of_mem (hx ▸ List.mem_cons_self)
    have hhead : (written (c :: ds) ++ tail).head? = some x := by
      rw [written, List.flatMap_cons, Component.text, hx]
      rfl
    cases (hother x hhead).symm.trans hnumeral
  induction cs generalizing cs' with
  | nil =>
    cases cs' with
    | nil => exact ⟨rfl, h⟩
    | cons c' ds' => exact absurd h (hclash c' ds' rest' rest hrest)
  | cons c ds ih =>
    cases cs' with
    | nil => exact absurd h.symm (hclash c ds rest rest' hrest')
    | cons c' ds' =>
      rw [written, written, List.flatMap_cons, List.flatMap_cons, List.append_assoc,
        List.append_assoc] at h
      obtain ⟨rfl, htail⟩ := Component.text_append_inj h
      obtain ⟨rfl, hr⟩ := ih htail
      exact ⟨rfl, hr⟩

/-- A text is made up in one way only. -/
theorem Reading.text_injective {r r' : Reading} (h : r.text = r'.text) : r = r' := by
  obtain ⟨lower, date, time, hd, ht⟩ := r
  obtain ⟨lower', date', time', hd', ht'⟩ := r'
  obtain ⟨hfront, hbody⟩ := List.cons.inj h
  have hhead : ∀ (t : Option (Bool × List Component)) (x : Char),
      x ∈ (t.elim [] fun (b, cs) => clockMark b :: written cs).head? → isNumeral x = false := by
    rintro (_ | ⟨b, cs⟩) x hx
    · cases hx
    · cases hx
      exact isNumeral_clockMark b
  obtain ⟨rfl, htail⟩ := written_append_inj (hhead time) (hhead time') hbody
  have hlower : lower = lower' := by
    change (if lower then 'p' else 'P') = (if lower' then 'p' else 'P') at hfront
    revert hfront
    cases lower <;> cases lower' <;> decide
  have hend : ∀ x ∈ ([] : List Char).head?, isNumeral x = false := by
    rintro x ⟨⟩
  have htime : time = time' := by
    rcases time with _ | ⟨b, cs⟩ <;> rcases time' with _ | ⟨b', cs'⟩
    · rfl
    · cases htail
    · cases htail
    · obtain ⟨hb, hcs⟩ := List.cons.inj htail
      rw [← List.append_nil (written cs), ← List.append_nil (written cs')] at hcs
      rw [clockMark_inj hb, (written_append_inj hend hend hcs).1]
  subst hlower htime
  rfl

/-! ## Steps of a reader -/

theorem eq_or_eq_of_toUpper {c u l : Char} (hl : l.toNat = u.toNat + 32) (h : c.toUpper = u) :
    c = u ∨ c = l := by
  unfold Char.toUpper at h
  split at h
  · next hc =>
    right
    have h₁ : 97 ≤ c.toNat := UInt32.le_iff_toNat_le.1 hc.1
    have h₂ : c.toNat ≤ 122 := UInt32.le_iff_toNat_le.1 hc.2
    have hsub : (c.val + ('A'.val - 'a'.val)).toNat = (c.toNat + 4294967264) % 4294967296 :=
      UInt32.toNat_add _ _
    have hu : u.toNat = (c.toNat + 4294967264) % 4294967296 := by
      rw [← h, ← hsub]
      rfl
    rw [← Char.toNat_inj]
    omega
  · exact .inl h

theorem exists_letter_of_scale? {c : Char} {inTime : Bool} {scale : Nat}
    (h : scale? c.toUpper inTime = some scale) :
    ∃ (u : TimeUnit) (b : Bool), c = u.letter b ∧ u.isClock = inTime ∧ u.seconds = scale := by
  have hcase : ∀ u : TimeUnit, c.toUpper = u.letter false → ∃ b, c = u.letter b := by
    intro u hu
    have hlower : (u.letter true).toNat = (u.letter false).toNat + 32 := by
      cases u <;> rfl
    rcases eq_or_eq_of_toUpper hlower hu with hc | hc
    · exact ⟨false, hc⟩
    · exact ⟨true, hc⟩
  unfold scale? at h
  split at h
  case h_1 hu =>
    obtain ⟨b, hb⟩ := hcase .week hu
    exact ⟨.week, b, hb, rfl, Option.some.inj h⟩
  case h_2 hu =>
    obtain ⟨b, hb⟩ := hcase .day hu
    exact ⟨.day, b, hb, rfl, Option.some.inj h⟩
  case h_3 hu =>
    obtain ⟨b, hb⟩ := hcase .hour hu
    exact ⟨.hour, b, hb, rfl, Option.some.inj h⟩
  case h_4 hu =>
    obtain ⟨b, hb⟩ := hcase .minute hu
    exact ⟨.minute, b, hb, rfl, Option.some.inj h⟩
  case h_5 hu =>
    obtain ⟨b, hb⟩ := hcase .second hu
    exact ⟨.second, b, hb, rfl, Option.some.inj h⟩
  case h_6 => cases h

variable {s : String} {st st' : State}

/-- A reader opens the time of day at a `T`, unless an amount is open. -/
theorem step_clockMark (b : Bool) (ht : st.inTime = false) (hn : st.numeral = []) :
    State.step s st (clockMark b) = .ok { st with inTime := true } := by
  have hmark : ((clockMark b).toUpper == 'T') = true := by
    cases b <;> rfl
  rw [State.step, hmark, ht, hn]
  rfl

/-- The letter of a unit adds the seconds of the amount before it, as long as the sum fits. -/
theorem step_letter (u : TimeUnit) (b : Bool) (ht : u.isClock = st.inTime)
    (hn : st.numeral ≠ []) : State.step s st (u.letter b) =
      if st.total + wholePart st.numeral * u.seconds < limit then
        .ok ⟨st.total + wholePart st.numeral * u.seconds, st.inTime, [], true⟩
      else .error (.overflow s) := by
  have hclose : State.step s st (u.letter b) = st.close s (u.letter b) := by
    cases u <;> cases b <;> rfl
  have hempty : st.numeral.isEmpty = false := by
    simpa using hn
  have hunit : isCalendar (u.letter b).toUpper u.isClock = false ∧
      scale? (u.letter b).toUpper u.isClock = some u.seconds := by
    cases u <;> cases b <;> exact ⟨rfl, rfl⟩
  have hamount : wholePart st.numeral ≤ wholePart st.numeral * u.seconds :=
    Nat.le_mul_of_pos_right _ u.seconds_pos
  rw [hclose, State.close, ← ht]
  simp only [hempty, hunit, Bool.false_eq_true, if_false, Bool.and_eq_true, decide_eq_true_eq]
  by_cases hl : st.total + wholePart st.numeral * u.seconds < limit
  · rw [if_pos hl, if_pos ⟨⟨by omega, by omega⟩, hl⟩]
  · rw [if_neg hl, if_neg fun h => hl h.2]

/-- Only the letter of a unit that stands on the right side of the `T` closes an amount. -/
theorem exists_letter_of_close {c : Char} (h : st.close s c = .ok st') :
    st.numeral ≠ [] ∧ ∃ (u : TimeUnit) (b : Bool), c = u.letter b ∧ u.isClock = st.inTime := by
  simp only [State.close] at h
  split at h
  · cases h
  · next hempty =>
    refine ⟨by simpa using hempty, ?_⟩
    split at h
    · cases h
    · split at h
      · cases h
      · next scale hscale =>
        obtain ⟨u, b, hc, ht, -⟩ := exists_letter_of_scale? hscale
        exact ⟨u, b, hc, ht⟩

/-- What a reader can do: open the time of day, go on with an amount, or close one at the letter of
its unit. -/
theorem step_eq_ok {c : Char} (h : State.step s st c = .ok st') :
    (∃ b, c = clockMark b ∧ st.inTime = false ∧ st.numeral = [] ∧
      st' = { st with inTime := true }) ∨
    (isNumeral c = true ∧ st' = { st with numeral := st.numeral ++ [c] }) ∨
    ∃ (u : TimeUnit) (b : Bool), c = u.letter b ∧ u.isClock = st.inTime ∧ st.numeral ≠ [] ∧
      st.total + wholePart st.numeral * u.seconds < limit ∧
      st' = ⟨st.total + wholePart st.numeral * u.seconds, st.inTime, [], true⟩ := by
  have hstep := h
  unfold State.step at h
  split at h
  · next hT =>
    simp only [Bool.and_eq_true, beq_iff_eq, Bool.not_eq_true', List.isEmpty_iff] at hT
    obtain ⟨⟨hc, ht⟩, hn⟩ := hT
    have hmark : ∃ b, c = clockMark b := by
      rcases eq_or_eq_of_toUpper (l := 't') rfl hc with hc | hc
      · exact ⟨false, hc⟩
      · exact ⟨true, hc⟩
    obtain ⟨b, hb⟩ := hmark
    exact .inl ⟨b, hb, ht, hn, (Except.ok.inj h).symm⟩
  · split at h
    · next hc => exact .inr (.inl ⟨hc, (Except.ok.inj h).symm⟩)
    · split at h
      · obtain ⟨hn, u, b, rfl, ht⟩ := exists_letter_of_close h
        rw [step_letter u b ht hn] at hstep
        split at hstep
        · next hl => exact .inr (.inr ⟨u, b, rfl, ht, hn, hl, (Except.ok.inj hstep).symm⟩)
        · cases hstep
      · cases h

/-! ## Runs of a reader -/

/-- The characters are a reading and the amount that is still open, and the reader knows of them
what it has to. -/
structure Scanned (cs : List Char) (st : State) (r : Reading) : Prop where
  text : cs = r.body ++ st.numeral
  numeral : ∀ c ∈ st.numeral, c.isDigit = true ∨ c = '.' ∨ c = ','
  total : st.total = r.seconds
  fits : r.seconds < limit
  inTime : st.inTime = r.time.isSome
  started : st.started = true ↔ r.components ≠ []

theorem Reading.seconds_of_components {r r' : Reading} {c : Component}
    (h : r'.components = r.components ++ [c]) : r'.seconds = r.seconds + c.seconds := by
  rw [seconds, seconds, h, Duration.total, Duration.total, List.map_append, List.sum_append,
    List.map_singleton, List.sum_singleton]

/-- Every step of a reader leaves it with a reading and an open amount. -/
theorem Scanned.step {cs : List Char} {r : Reading} {c : Char} (h : Scanned cs st r)
    (hstep : State.step s st c = .ok st') : ∃ r', Scanned (cs ++ [c]) st' r' := by
  rcases step_eq_ok hstep with ⟨b, rfl, ht, hn, rfl⟩ | ⟨hc, rfl⟩ | ⟨u, b, rfl, ht, hn, hl, rfl⟩
  · -- the time of day is opened
    have hnone : r.time = none := by
      rw [h.inTime, Option.isSome_eq_false_iff, Option.isNone_iff_eq_none] at ht
      exact ht
    obtain ⟨r', hbody, hcomponents, htime⟩ := r.exists_open b hnone
    have hseconds : r'.seconds = r.seconds := congrArg Duration.total hcomponents
    refine ⟨r', ?_, h.numeral, ?_, ?_, htime.symm, ?_⟩
    · rw [h.text, hbody, hn, List.append_nil, List.append_nil]
    · rw [hseconds]
      exact h.total
    · rw [hseconds]
      exact h.fits
    · rw [hcomponents]
      exact h.started
  · -- the amount goes on
    refine ⟨r, ?_, ?_, h.total, h.fits, h.inTime, h.started⟩
    · rw [h.text, List.append_assoc]
    · intro x hx
      rcases List.mem_append.1 hx with hx | hx
      · exact h.numeral x hx
      · rw [List.mem_singleton.1 hx]
        simpa only [isNumeral, Bool.or_eq_true, beq_iff_eq, or_assoc] using hc
  · -- the amount becomes a component
    let component : Component := ⟨st.numeral, u, b, hn, h.numeral⟩
    obtain ⟨r', hbody, hcomponents, htime⟩ := r.exists_push component (ht.trans h.inTime)
    have hseconds := Reading.seconds_of_components hcomponents
    have hamount : wholePart st.numeral * u.seconds = component.seconds :=
      congrArg (· * u.seconds) component.wholePart_numeral
    rw [hamount, h.total] at hl ⊢
    refine ⟨r', ?_, List.forall_mem_nil _, hseconds.symm, ?_, h.inTime.trans htime.symm, ?_⟩
    · rw [h.text, hbody, List.append_assoc, List.append_nil]
      rfl
    · rw [hseconds]
      exact hl
    · rw [hcomponents]
      exact iff_of_true rfl (List.concat_ne_nil _ _)

/-- Whatever a reader has read is a reading and an open amount. -/
theorem exists_scanned {cs : List Char} (h : cs.foldlM (State.step s) State.init = .ok st) :
    ∃ r, Scanned cs st r := by
  induction cs using List.reverseRecOn generalizing st with
  | nil =>
    cases h
    exact ⟨{ date := [] }, rfl, List.forall_mem_nil _, rfl, by decide, rfl, by decide⟩
  | append_singleton cs c ih =>
    rw [List.foldlM_append] at h
    obtain ⟨mid, hmid, h⟩ := Except.bind_eq_ok.1 h
    obtain ⟨r, hr⟩ := ih hmid
    obtain ⟨_, hstep, h⟩ := Except.bind_eq_ok.1 h
    cases h
    exact hr.step hstep

/-- A component is added as long as the sum fits. -/
theorem Component.foldlM_text (c : Component) (sum : Nat) (started : Bool) :
    c.text.foldlM (State.step s) ⟨sum, c.unit.isClock, [], started⟩ =
      if sum + c.seconds < limit then .ok ⟨sum + c.seconds, c.unit.isClock, [], true⟩
      else .error (.overflow s) := by
  have hletter := @step_letter s ⟨sum, c.unit.isClock, c.numeral, started⟩ c.unit c.lower rfl
    c.numeral_ne_nil
  rw [text, List.foldlM_append, foldlM_numeral fun x hx => c.isNumeral_of_mem hx, Except.ok_bind,
    List.nil_append, List.foldlM_cons, hletter, c.wholePart_numeral]
  show (ite _ _ _ >>= _) = _
  rw [← Component.seconds]
  split <;> rfl

/-- Components of one side of the `T` are added as long as the sum fits. -/
theorem foldlM_written {cs : List Component} {clock : Bool} (hu : ∀ c ∈ cs, c.unit.isClock = clock)
    {sum : Nat} (hsum : sum < limit) (started : Bool) :
    (written cs).foldlM (State.step s) ⟨sum, clock, [], started⟩ =
      if sum + total cs < limit then .ok ⟨sum + total cs, clock, [], started || !cs.isEmpty⟩
      else .error (.overflow s) := by
  induction cs generalizing sum started with
  | nil =>
    rw [total, List.map_nil, List.sum_nil, Nat.add_zero, if_pos hsum, List.isEmpty_nil,
      Bool.not_true, Bool.or_false]
    rfl
  | cons c cs ih =>
    have hc : c.unit.isClock = clock := hu c List.mem_cons_self
    have htotal : sum + total (c :: cs) = sum + c.seconds + total cs := by
      rw [total, List.map_cons, List.sum_cons, ← Nat.add_assoc]
      rfl
    have hfirst := c.foldlM_text (s := s) sum started
    rw [hc] at hfirst
    rw [written, List.flatMap_cons, List.foldlM_append, hfirst, htotal]
    by_cases hl : sum + c.seconds < limit
    · have hrest := ih (fun x hx => hu x (List.mem_cons_of_mem _ hx)) hl true
      rw [if_pos hl, Except.ok_bind, ← written, hrest, Bool.true_or]
      simp only [List.isEmpty_cons, Bool.not_false, Bool.or_true]
    · rw [if_neg hl, if_neg (by omega)]
      rfl

/-- A reader adds up the seconds of a reading as long as they fit. -/
theorem Reading.foldlM_body (r : Reading) : r.body.foldlM (State.step s) State.init =
    if r.seconds < limit then .ok ⟨r.seconds, r.time.isSome, [], !r.components.isEmpty⟩
    else .error (.overflow s) := by
  have hdate := @foldlM_written s r.date false r.date_units 0 (by decide) false
  rw [Nat.zero_add, Bool.false_or] at hdate
  have hseconds : r.seconds = Duration.total r.date + Duration.total r.clock := by
    rw [seconds, components, Duration.total, List.map_append, List.sum_append]
    rfl
  cases htime : r.time with
  | none =>
    rw [hseconds, components, clock_of_none htime, List.append_nil, body_of_none htime, State.init,
      hdate]
    rfl
  | some t =>
    obtain ⟨b, cs⟩ := t
    have hclock := clock_of_some htime
    have hunits : ∀ c ∈ cs, c.unit.isClock = true := hclock ▸ r.time_units
    have hempty : (r.date ++ cs).isEmpty = (r.date.isEmpty && cs.isEmpty) := by
      cases r.date <;> rfl
    rw [hseconds, components, hclock, body_of_some htime, List.foldlM_append, State.init, hdate]
    by_cases hl : Duration.total r.date < limit
    · have hmark := @step_clockMark s ⟨Duration.total r.date, false, [], !r.date.isEmpty⟩ b rfl rfl
      rw [if_pos hl, Except.ok_bind, List.foldlM_cons, hmark, Except.ok_bind,
        foldlM_written hunits hl, hempty, Bool.not_and, Option.isSome_some]
    · rw [if_neg hl, if_neg (by omega)]
      rfl

/-! ## Texts -/

/-- The body of a text stands behind its `P`. -/
theorem body?_eq_some_iff {body : List Char} :
    body? s = some body ↔ Text.trimChars s.toList = 'P' :: body ∨
      Text.trimChars s.toList = 'p' :: body := by
  unfold body?
  constructor
  · intro h
    split at h
    · next hs => exact .inl (hs.trans (congrArg _ (Option.some.inj h)))
    · next hs => exact .inr (hs.trans (congrArg _ (Option.some.inj h)))
    · cases h
  · rintro (h | h)
    all_goals
      rw [h]
      rfl

theorem Reading.Reads.body? {r : Reading} (h : r.Reads s) : body? s = some r.body := by
  rw [body?_eq_some_iff]
  unfold Reads text at h
  split at h
  · exact .inr h
  · exact .inl h

/-- What is read as a duration, and with which number of seconds. -/
theorem parseNat_of_reads {r : Reading} (h : r.Reads s) (hr : r.components ≠ []) :
    parseNat s = if r.seconds < limit then .ok r.seconds else .error (.overflow s) := by
  simp only [parseNat, h.body?, r.foldlM_body]
  split
  · have hstarted : (!r.components.isEmpty) = true := by simpa using hr
    rw [Except.ok_bind, hstarted]
    rfl
  · rfl

/-- A text that is read as a duration is made up of components. -/
theorem exists_reads_of_parseNat {n : Nat} (h : parseNat s = .ok n) :
    ∃ r : Reading, r.Reads s ∧ r.components ≠ [] ∧ r.seconds = n ∧ n < limit := by
  unfold parseNat at h
  split at h
  · next body hbody =>
    obtain ⟨st, hst, h⟩ := Except.bind_eq_ok.1 h
    obtain ⟨r, hr⟩ := exists_scanned hst
    split at h
    · cases h
    · next hlast =>
      have hn : st.numeral = [] := List.getLast?_eq_none_iff.1 hlast
      split at h
      · next hstarted =>
        cases h
        have htext : body = r.body := by
          rw [hr.text, hn, List.append_nil]
        have hreads : ∃ b, Reading.Reads { r with lower := b } s := by
          rcases body?_eq_some_iff.1 hbody with ht | ht
          · exact ⟨false, ht.trans (congrArg _ htext)⟩
          · exact ⟨true, ht.trans (congrArg _ htext)⟩
        obtain ⟨b, hb⟩ := hreads
        exact ⟨{ r with lower := b }, hb, hr.started.1 hstarted, hr.total.symm,
          hr.total ▸ hr.fits⟩
      · cases h
  · cases h

/-- A text that is read as a duration has one reading, with as many seconds. -/
theorem exists_reads_iff_of_parseSeconds {n : UInt64} (h : parseSeconds s = .ok n) :
    ∃ r : Reading, (∀ r' : Reading, r'.Reads s ↔ r' = r) ∧ r.components ≠ [] ∧
      r.seconds = n.toNat := by
  obtain ⟨m, hm, rfl⟩ := Except.map_eq_ok.1 h
  obtain ⟨r, hr, hne, rfl, hl⟩ := exists_reads_of_parseNat hm
  refine ⟨r, fun r' => ⟨fun hr' => ?_, ?_⟩, hne, (UInt64.toNat_ofNat_of_lt' hl).symm⟩
  · exact Reading.text_injective (hr'.symm.trans hr)
  · rintro rfl
    exact hr

/-! ## Faults -/

theorem step_ne_missingDesignator {c : Char} {v : String} :
    State.step s st c ≠ .error (.missingDesignator v) := by
  intro h
  simp only [State.step, State.close] at h
  split at h
  · cases h
  · split at h
    · cases h
    · split at h
      · split at h
        · cases h
        · split at h
          · cases h
          · split at h
            · cases h
            · split at h <;> cases h
      · cases h

theorem foldlM_ne_missingDesignator {cs : List Char} {v : String} :
    cs.foldlM (State.step s) st ≠ .error (.missingDesignator v) := by
  induction cs generalizing st with
  | nil => nofun
  | cons c cs ih =>
    intro h
    rw [List.foldlM_cons] at h
    cases hstep : State.step s st c with
    | error e =>
      rw [hstep] at h
      cases h
      exact step_ne_missingDesignator hstep
    | ok mid =>
      rw [hstep] at h
      exact ih h

/-- A text is refused for its front alone only if it has no `P` there. -/
theorem parseNat_eq_missingDesignator_iff {v : String} :
    parseNat s = .error (.missingDesignator v) ↔ v = s ∧ body? s = none := by
  unfold parseNat
  constructor
  · intro h
    split at h
    · next body hbody =>
      cases hfold : body.foldlM (State.step s) State.init with
      | error e =>
        rw [hfold] at h
        cases h
        exact absurd hfold foldlM_ne_missingDesignator
      | ok st =>
        rw [hfold, Except.ok_bind] at h
        split at h
        · cases h
        · split at h <;> cases h
    · next hbody =>
      cases h
      exact ⟨rfl, Option.eq_none_iff_forall_ne_some.2 hbody⟩
  · rintro ⟨rfl, h⟩
    rw [h]
    rfl

/-- The texts that are read as durations are those that are made up of components, as long as their
seconds fit; of the others, those without a `P` at their front are refused for that. -/
theorem parseSeconds_language (s : String) :
    (∀ r : Reading, r.Reads s → r.components ≠ [] →
      (r.seconds < UInt64.size → ∃ n, parseSeconds s = .ok n ∧ n.toNat = r.seconds) ∧
      (UInt64.size ≤ r.seconds → parseSeconds s = .error (.overflow s))) ∧
    ((¬ ∃ r : Reading, r.Reads s ∧ r.components ≠ []) →
      ∃ e, parseSeconds s = .error e ∧ ((∃ v, e = .missingDesignator v) ↔ ¬ ∃ body,
        Text.trimChars s.toList = 'P' :: body ∨ Text.trimChars s.toList = 'p' :: body)) := by
  refine ⟨fun r hr hne => ⟨fun hl => ?_, fun hl => ?_⟩, fun hno => ?_⟩
  · have hparse := parseNat_of_reads hr hne
    rw [limit, if_pos hl] at hparse
    refine ⟨UInt64.ofNat r.seconds, ?_, UInt64.toNat_ofNat_of_lt' hl⟩
    rw [parseSeconds, hparse]
    rfl
  · have hparse := parseNat_of_reads hr hne
    rw [limit, if_neg (Nat.not_lt.2 hl)] at hparse
    rw [parseSeconds, hparse]
    rfl
  · cases h : parseNat s with
    | ok n =>
      obtain ⟨r, hr, hne, -⟩ := exists_reads_of_parseNat h
      exact absurd ⟨r, hr, hne⟩ hno
    | error e =>
      have hbody : (¬ ∃ body, Text.trimChars s.toList = 'P' :: body ∨
          Text.trimChars s.toList = 'p' :: body) ↔ body? s = none := by
        simp only [Option.eq_none_iff_forall_ne_some, not_exists, ← body?_eq_some_iff, ne_eq]
      have hseconds : parseSeconds s = .error e := by
        rw [parseSeconds, h]
        rfl
      refine ⟨e, hseconds, ?_⟩
      rw [hbody]
      constructor
      · rintro ⟨v, rfl⟩
        exact (parseNat_eq_missingDesignator_iff.1 h).2
      · intro hnone
        have hmissing := parseNat_eq_missingDesignator_iff.2 ⟨rfl, hnone⟩
        exact ⟨s, Except.error.inj (h.symm.trans hmissing)⟩

/-- Components of one side of the `T` may come twice and in any order, and a numeral may lack its
digits; without a `P` there is no duration. -/
theorem parseSeconds_language_repeated :
    (∃ n, parseSeconds " p1d2Wt.S1,5M7.0.1m\n" = .ok n ∧ n.toNat = 1296480) ∧
    parseSeconds "P213503982334601DT7H16S" = .error (.overflow "P213503982334601DT7H16S") ∧
    ∃ e, parseSeconds "1D" = .error e ∧ ∃ v, e = .missingDesignator v := by
  refine ⟨?_, ?_, ?_⟩
  · let r : Reading := {
      lower := true
      date := [{ numeral := ['1'], unit := .day, lower := true },
        { numeral := ['2'], unit := .week }]
      time := some (true, [{ numeral := ['.'], unit := .second },
        { numeral := ['1', ',', '5'], unit := .minute },
        { numeral := ['7', '.', '0', '.', '1'], unit := .minute, lower := true }]) }
    exact ((parseSeconds_language _).1 r (by decide +kernel) (by decide)).1 (by decide +kernel)
  · let r : Reading := {
      date := [{ numeral := "213503982334601".toList, unit := .day }]
      time := some (false, [{ numeral := ['7'], unit := .hour },
        { numeral := ['1', '6'], unit := .second }]) }
    exact ((parseSeconds_language _).1 r (by decide +kernel) (by decide)).2 (by decide +kernel)
  · have hbody : body? "1D" = none := by decide
    have hno : ¬ ∃ r : Reading, r.Reads "1D" ∧ r.components ≠ [] := by
      rintro ⟨r, hr, -⟩
      cases hr.body?.symm.trans hbody
    obtain ⟨e, he, hiff⟩ := (parseSeconds_language "1D").2 hno
    refine ⟨e, he, hiff.2 ?_⟩
    rintro ⟨body, h⟩
    cases (body?_eq_some_iff.2 h).symm.trans hbody

end Duration

end ForecastJob
