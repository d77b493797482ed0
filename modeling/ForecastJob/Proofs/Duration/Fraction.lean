import Mathlib.Algebra.Order.BigOperators.Group.List
import Mathlib.Data.Rat.Floor
import Mathlib.Tactic.NormNum
import Mathlib.Tactic.Positivity
import Mathlib.Tactic.Ring
import ForecastJob.Proofs.Duration.Language

/-!
# Fractions of a duration

The amount of a component can have a fraction. It is dropped before the amount is scaled by its
unit, so that not only parts of a second are lost: a minute and a half counts for sixty seconds.

* `Duration.IsNumber` : the numerals of decimal digits with at most one point or comma among them;
* `Duration.Component.amount`, `Duration.Reading.length` : the exact amount of a component, and the
  exact length of a duration;
* `Duration.Reading.length_eq` : the length is made up of the seconds that count and those that are
  lost;
* `Duration.parseSeconds_floor` : a duration is read as the whole seconds of its length exactly if
  less than a second is lost;
* `Duration.parseSeconds_ne_floor` : half a minute is lost.
-/

namespace ForecastJob.Duration

/-! ## Numbers -/

/-- Decimal digits, at least one. -/
structure IsDigits (ds : List Char) : Prop where
  digits : ∀ c ∈ ds, c.isDigit = true
  nonempty : ds ≠ []

/-- Decimal digits, and possibly further ones behind a point or a comma. -/
inductive IsNumber : List Char → Prop
  | whole {ds : List Char} (h : IsDigits ds) : IsNumber ds
  | fraction {ds fs : List Char} {mark : Char} (h : IsDigits ds) (hf : IsDigits fs)
      (hm : mark = '.' ∨ mark = ',') : IsNumber (ds ++ mark :: fs)

/-- A number of so many digits is below that power of ten. -/
theorem ofDigitChars_lt {ds : List Char} (h : ∀ c ∈ ds, c.isDigit = true) (n : Nat) :
    Nat.ofDigitChars 10 ds n < (n + 1) * 10 ^ ds.length := by
  induction ds generalizing n with
  | nil => simp
  | cons d ds ih =>
    have hd : d.toNat - '0'.toNat < 10 := by
      have hdigit := h d List.mem_cons_self
      simp only [Char.isDigit, ge_iff_le, Bool.and_eq_true, decide_eq_true_eq,
        UInt32.le_iff_toNat_le] at hdigit
      have h₂ : d.toNat ≤ 57 := hdigit.2
      have hzero : '0'.toNat = 48 := rfl
      omega
    rw [Nat.ofDigitChars_cons, List.length_cons, pow_succ', ← mul_assoc]
    refine (ih (fun c hc => h c (List.mem_cons_of_mem _ hc)) _).trans_le ?_
    exact Nat.mul_le_mul_right _ (by omega)

namespace Component

variable (c : Component)

/-- The digits behind the first point or comma. -/
def decimals : List Char :=
  (c.numeral.dropWhile fun x => x != '.' && x != ',').tail

/-- The part of the amount that is no whole number. -/
def fraction : ℚ :=
  Nat.ofDigitChars 10 c.decimals 0 / 10 ^ c.decimals.length

/-- The amount, exactly. -/
def amount : ℚ :=
  c.whole + c.fraction

theorem fraction_nonneg : 0 ≤ c.fraction := by
  unfold fraction
  positivity

variable {c}

/-- The numeral of a number is split at its point or comma. -/
theorem decimals_eq {ds rest : List Char} (hds : IsDigits ds)
    (hrest : ∀ x ∈ rest.head?, x = '.' ∨ x = ',') (h : c.numeral = ds ++ rest) :
    c.decimals = rest.tail := by
  have hdigit : ∀ x ∈ ds, (x != '.' && x != ',') = true := by
    intro x hx
    have hx := hds.digits x hx
    refine Bool.and_eq_true_iff.2 ⟨bne_iff_ne.2 ?_, bne_iff_ne.2 ?_⟩
    all_goals
      rintro rfl
      cases hx
  rw [decimals, h, List.dropWhile_append_of_pos hdigit]
  cases rest with
  | nil => rfl
  | cons x xs =>
    rw [List.dropWhile_cons]
    rcases hrest x rfl with rfl | rfl <;> rfl

/-- Without a point or a comma there is no fraction. -/
theorem fraction_eq_zero (h : IsDigits c.numeral) : c.fraction = 0 := by
  have hdecimals : c.decimals = [] :=
    @decimals_eq c _ [] h (by rintro x ⟨⟩) (List.append_nil _).symm
  rw [fraction, hdecimals, Nat.ofDigitChars_nil, Nat.cast_zero, zero_div]

theorem fraction_lt_one (h : IsNumber c.numeral) : c.fraction < 1 := by
  have hdigits : ∀ x ∈ c.decimals, x.isDigit = true := by
    generalize hn : c.numeral = numeral at h
    cases h with
    | whole h =>
      have hdecimals : c.decimals = [] :=
        @decimals_eq c _ [] h (by rintro x ⟨⟩) (hn.trans (List.append_nil _).symm)
      rw [hdecimals]
      nofun
    | fraction h hf hm =>
      rw [decimals_eq h (by rintro x ⟨⟩; exact hm) hn]
      exact hf.digits
  have hlt := ofDigitChars_lt hdigits 0
  rw [Nat.zero_add, Nat.one_mul] at hlt
  rw [fraction, div_lt_one (by positivity)]
  exact_mod_cast hlt

end Component

/-! ## Lengths -/

/-- The length of a component in seconds, exactly. -/
def Component.length (c : Component) : ℚ :=
  c.amount * (c.unit.seconds : ℚ)

/-- The part of its length that the fraction makes up. -/
def Component.lost (c : Component) : ℚ :=
  c.fraction * (c.unit.seconds : ℚ)

theorem Component.length_eq (c : Component) : c.length = c.lost + c.seconds := by
  rw [length, lost, amount, seconds, add_mul, Nat.cast_mul, add_comm]

theorem Component.lost_eq_zero {c : Component} (h : IsDigits c.numeral) : c.lost = 0 := by
  rw [lost, fraction_eq_zero h, zero_mul]

namespace Reading

variable (r : Reading)

/-- The length of a duration in seconds, exactly. -/
def length : ℚ :=
  (r.components.map Component.length).sum

/-- The part of the length that fractions make up. -/
def lost : ℚ :=
  (r.components.map Component.lost).sum

theorem lost_nonneg : 0 ≤ r.lost := by
  refine List.sum_nonneg fun x hx => ?_
  obtain ⟨c, -, rfl⟩ := List.mem_map.1 hx
  exact mul_nonneg c.fraction_nonneg (Nat.cast_nonneg _)

/-- The length is made up of the seconds that are lost and those that count. -/
theorem length_eq : r.length = r.lost + r.seconds := by
  rw [length, lost, seconds, total]
  induction r.components with
  | nil => simp
  | cons c cs ih =>
    simp only [List.map_cons, List.sum_cons, Nat.cast_add]
    rw [ih, c.length_eq]
    ring

theorem floor_length : ⌊r.length⌋₊ = r.seconds + ⌊r.lost⌋₊ := by
  rw [length_eq, Nat.floor_add_natCast r.lost_nonneg, Nat.add_comm]

/-- Of a number of seconds behind whole amounts less than one is lost. -/
theorem lost_lt_one {cs : List Component} {c : Component} (h : r.components = cs ++ [c])
    (hcs : ∀ x ∈ cs, IsDigits x.numeral) (hunit : c.unit = .second) (hc : IsNumber c.numeral) :
    r.lost < 1 := by
  have hwhole : (cs.map Component.lost).sum = 0 := by
    refine List.sum_eq_zero fun x hx => ?_
    obtain ⟨d, hd, rfl⟩ := List.mem_map.1 hx
    exact Component.lost_eq_zero (hcs d hd)
  have hlast : c.lost = c.fraction := by
    rw [Component.lost, hunit, TimeUnit.seconds, Nat.cast_one, mul_one]
  rw [lost, h, List.map_append, List.sum_append, hwhole, List.map_singleton, List.sum_singleton,
    zero_add, hlast]
  exact Component.fraction_lt_one hc

end Reading

/-! ## Durations -/

/-- A duration whose amounts are numbers is read as the whole seconds of its length without those
that fractions make up, hence as the whole seconds of its length exactly if these are less than one;
so it is if only the seconds, behind all else, have a fraction. -/
theorem parseSeconds_floor {s : String} {n : UInt64} (h : parseSeconds s = .ok n) :
    ∃ r : Reading, (∀ r' : Reading, r'.Reads s ↔ r' = r) ∧
      ((∀ c ∈ r.components, IsNumber c.numeral) →
        n.toNat + ⌊r.lost⌋₊ = ⌊r.length⌋₊ ∧ (n.toNat = ⌊r.length⌋₊ ↔ r.lost < 1) ∧
        ∀ cs c, r.components = cs ++ [c] → (∀ x ∈ cs, IsDigits x.numeral) → c.unit = .second →
          n.toNat = ⌊r.length⌋₊) := by
  obtain ⟨r, hr, -, hseconds⟩ := exists_reads_iff_of_parseSeconds h
  have hfloor := r.floor_length
  rw [hseconds] at hfloor
  have hiff : n.toNat = ⌊r.length⌋₊ ↔ r.lost < 1 := by
    rw [hfloor, ← Nat.floor_eq_zero]
    omega
  refine ⟨r, hr, fun hnumber => ⟨hfloor.symm, hiff, fun cs c hcomponents hcs hunit => ?_⟩⟩
  have hc : c ∈ r.components := by
    rw [hcomponents]
    exact List.mem_append_right _ (List.mem_singleton_self c)
  exact hiff.2 (r.lost_lt_one hcomponents hcs hunit (hnumber c hc))

/-- Three quarters of a second are lost behind a day. -/
theorem parseSeconds_floor_seconds : parseSeconds "P1DT5.75S" = .ok 86405 ∧
    ∃ r : Reading, r.Reads "P1DT5.75S" ∧ (∀ c ∈ r.components, IsNumber c.numeral) ∧
      (86405 : UInt64).toNat = ⌊r.length⌋₊ := by
  have hparse : parseSeconds "P1DT5.75S" = .ok 86405 := by decide +kernel
  let day : Component := { numeral := ['1'], unit := .day }
  let second : Component := { numeral := ['5', '.', '7', '5'], unit := .second }
  let reading : Reading := { date := [day], time := some (false, [second]) }
  have hday : IsDigits day.numeral := ⟨by simp [day], by decide⟩
  have hnumber : ∀ c ∈ reading.components, IsNumber c.numeral := by
    intro c hc
    rcases List.mem_cons.1 hc with rfl | hc
    · exact .whole hday
    · rw [List.mem_singleton.1 hc]
      exact @IsNumber.fraction ['5'] ['7', '5'] '.' ⟨by simp, by decide⟩
        ⟨by simp, by decide⟩ (.inl rfl)
  have hreads : reading.Reads "P1DT5.75S" := by decide +kernel
  obtain ⟨r, hr, hfloor⟩ := parseSeconds_floor hparse
  obtain rfl := (hr reading).1 hreads
  refine ⟨hparse, reading, hreads, hnumber, ?_⟩
  refine (hfloor hnumber).2.2 [day] second rfl (fun x hx => ?_) rfl
  rw [List.mem_singleton.1 hx]
  exact hday

/-- Half a minute is lost: a minute and a half counts for sixty seconds. -/
theorem parseSeconds_ne_floor : parseSeconds "PT1.5M" = .ok 60 ∧
    ∃ r : Reading, r.Reads "PT1.5M" ∧ (∀ c ∈ r.components, IsNumber c.numeral) ∧
      ⌊r.length⌋₊ = 90 := by
  let minute : Component := { numeral := ['1', '.', '5'], unit := .minute }
  let reading : Reading := { date := [], time := some (false, [minute]) }
  have hlength : reading.length = (90 : Nat) := by
    have hwhole : minute.whole = 1 := rfl
    have hdecimals : minute.decimals = ['5'] := rfl
    have hfive : Nat.ofDigitChars 10 ['5'] 0 = 5 := rfl
    have hsum : reading.length = minute.length + 0 := rfl
    rw [hsum, Component.length, Component.amount, Component.fraction, hwhole, hdecimals, hfive]
    norm_num [minute, TimeUnit.seconds]
  refine ⟨by decide +kernel, reading, by decide +kernel, ?_, ?_⟩
  · intro c hc
    rw [List.mem_singleton.1 hc]
    exact @IsNumber.fraction ['1'] ['5'] '.' ⟨by simp, by decide⟩ ⟨by simp, by decide⟩ (.inl rfl)
  · rw [hlength, Nat.floor_natCast]

end ForecastJob.Duration
