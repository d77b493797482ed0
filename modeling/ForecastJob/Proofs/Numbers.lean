import Mathlib.Algebra.Group.Nat.Defs
import ForecastJob.Decimal.Binary

/-!
# Classes of doubles

* `Decimal.exponentBits_eq` : the exponent field is the one that arithmetic unpacks;
* `Decimal.beq_self`, `Decimal.isNaN_of_beq` : a number that is not NaN equals itself, and NaN
  equals nothing;
* `Decimal.isFinite_ofInt` : an integer of 64 bits is read as a finite number.
-/

namespace ForecastJob.Decimal

open Float.Model (Format UnpackedFloat totalExponent)
open Float.Model.UnpackedFloat

/-! ## Fields -/

theorem exponentBits_eq (x : Float) :
    exponentBits x = (@unpackExponent Format.binary64 x.toBits.toBitVec).toNat := by
  simp only [exponentBits, unpackExponent, BitVec.toNat_cast, BitVec.extractLsb_toNat,
    Nat.shiftRight_eq_div_pow]
  rfl

theorem fractionBits_eq (x : Float) :
    fractionBits x = (@unpackMantissa Format.binary64 x.toBits.toBitVec).toNat := by
  simp only [fractionBits, unpackMantissa, BitVec.toNat_cast, BitVec.extractLsb_toNat,
    Nat.shiftRight_zero]
  rfl

theorem exponentBits_eq_iff (x : Float) :
    exponentBits x = 2047 ↔ @unpackExponent Format.binary64 x.toBits.toBitVec = -1#_ := by
  rw [exponentBits_eq, ← BitVec.toNat_inj]
  rfl

theorem isNaN_of_isFinite {x : Float} (h : isFinite x = true) : isNaN x = false := by
  have h : exponentBits x ≠ 2047 := by simpa [isFinite] using h
  simp [isNaN, h]

/-- What holds of all that the fields of a double can mean holds of the unpacked double. -/
theorem unpack_cases {v : BitVec 64} {P : UnpackedFloat → Prop}
    (infinity : ∀ s, @unpackExponent Format.binary64 v = -1#_ → P (.infinity s))
    (notANumber : @unpackExponent Format.binary64 v = -1#_ →
      @unpackMantissa Format.binary64 v ≠ 0#_ → P .notANumber)
    (zero : ∀ s, P (.zero s))
    (finite : ∀ s m e hm, m < 2 ^ 53 →
      e = max (-1074) (((@unpackExponent Format.binary64 v).toNat : Int) - 1075) →
      P (.finite s m e hm)) :
    P (unpack Format.binary64 v) := by
  by_cases he : @unpackExponent Format.binary64 v = -1#_
  · by_cases hm : @unpackMantissa Format.binary64 v = 0#_
    · have hv : unpack Format.binary64 v = _ := (if_pos he).trans (if_pos hm)
      rw [hv]
      exact infinity _ he
    · have hv : unpack Format.binary64 v = _ := (if_pos he).trans (if_neg hm)
      rw [hv]
      exact notANumber he hm
  · by_cases he0 : @unpackExponent Format.binary64 v = 0#_
    · by_cases hm : @unpackMantissa Format.binary64 v = 0#_
      · have hv : unpack Format.binary64 v = _ :=
          (if_neg he).trans ((if_pos he0).trans (dif_pos hm))
        rw [hv]
        exact zero _
      · have hv : unpack Format.binary64 v = _ :=
          (if_neg he).trans ((if_pos he0).trans (dif_neg hm))
        rw [hv]
        refine finite _ _ _ _ (Nat.lt_trans (BitVec.isLt _) (by decide)) ?_
        rw [he0]
        rfl
    · have hv : unpack Format.binary64 v = _ := (if_neg he).trans (if_neg he0)
      have hpos : (@unpackExponent Format.binary64 v).toNat ≠ 0 :=
        fun h => he0 (BitVec.toNat_inj.1 h)
      rw [hv]
      refine finite _ _ _ _ (BitVec.isLt _) ?_
      show ((@unpackExponent Format.binary64 v).toNat : Int) - 1075 = _
      omega

/-! ## Equality -/

theorem unpack_ne_notANumber {x : Float} (h : isNaN x = false) :
    x.toModel.unpack ≠ .notANumber := by
  refine unpack_cases (P := (· ≠ .notANumber)) ?_ (fun he hm => ?_) ?_ ?_
  · exact fun _ _ => nofun
  · have hf : fractionBits x ≠ 0 := by
      rw [fractionBits_eq]
      exact fun h0 => hm (BitVec.toNat_inj.1 h0)
    simp [isNaN, (exponentBits_eq_iff x).2 he, hf] at h
  · exact fun _ => nofun
  · exact fun _ _ _ _ _ _ => nofun

theorem compare_self {u : UnpackedFloat} (h : u ≠ .notANumber) : u.compare u = some .eq := by
  cases u with
  | notANumber => exact absurd rfl h
  | infinity s => cases s <;> rfl
  | zero s => rfl
  | finite s m e hm =>
    have hcompare : (compare e e).then (compare m m) = .eq := by simp
    cases s with
    | positive => exact congrArg some hcompare
    | negative => exact congrArg (fun o => some o.swap) hcompare

/-- A number that is not NaN equals itself. -/
theorem beq_self {x : Float} (h : isNaN x = false) : (x == x) = true := by
  have hc := compare_self (unpack_ne_notANumber h)
  show (x.toModel.unpack.compare x.toModel.unpack == some .eq) = true
  rw [hc]
  rfl

theorem unpack_of_isNaN {x : Float} (h : isNaN x = true) : x.toModel.unpack = .notANumber := by
  simp only [isNaN, Bool.and_eq_true, beq_iff_eq, bne_iff_ne] at h
  have hm : @unpackMantissa Format.binary64 x.toBits.toBitVec ≠ 0#_ := by
    intro h0
    rw [fractionBits_eq, h0] at h
    exact h.2 rfl
  exact (if_pos ((exponentBits_eq_iff x).1 h.1)).trans (if_neg hm)

/-- Numbers that are equal are not NaN. -/
theorem isNaN_of_beq {x y : Float} (h : (x == y) = true) : isNaN x = false ∧ isNaN y = false := by
  have h : (x.toModel.unpack.compare y.toModel.unpack == some .eq) = true := h
  constructor
  · refine Bool.eq_false_iff.2 fun hx => ?_
    rw [unpack_of_isNaN hx] at h
    cases h
  · refine Bool.eq_false_iff.2 fun hy => ?_
    rw [unpack_of_isNaN hy] at h
    cases hu : x.toModel.unpack <;> rw [hu] at h <;> cases h

/-! ## Packed numbers -/

/-- The number is finite, and its exponent is not greater than the bound. -/
def Bounded (b : Int) : UnpackedFloat → Prop
  | .zero _ => True
  | .finite _ _ e _ => e ≤ b
  | _ => False

variable {b : Int} {u : UnpackedFloat}

theorem Bounded.neg (h : Bounded b u) : Bounded b u.neg := by
  cases u with
  | zero s => trivial
  | finite s m e hm => exact h
  | infinity s => cases h
  | notANumber => cases h

/-- A number whose exponent fits is packed with its exponent, or as one that is too small for it. -/
theorem Bounded.pack_eq (h : Bounded b u) (hb : b < 972) :
    ∃ s e m, pack Format.binary64 u = packComponents Format.binary64 s e m ∧ e ≠ -1#_ ∧
      (e = 0#_ ∨ (e.toNat : Int) ≤ max 0 (b + 1075)) := by
  match u, h with
  | .zero s, _ => exact ⟨s, 0, 0, rfl, by decide, .inl rfl⟩
  | .finite s m e hm, h =>
    have he : e ≤ b := h
    have hfits : ¬2 ^ Format.binary64.exponentBits ≤ (e + Format.binary64.exponentBias +
        Format.binary64.mantissaBitsWithoutImplicit).toNat + 1 := by
      show ¬2048 ≤ (e + 1023 + 52).toNat + 1
      omega
    unfold pack
    dsimp only
    rw [if_neg hfits]
    split
    · have hexp : (BitVec.ofNat Format.binary64.exponentBits (e + Format.binary64.exponentBias +
          Format.binary64.mantissaBitsWithoutImplicit).toNat).toNat = (e + 1075).toNat := by
        show (e + 1023 + 52).toNat % 2048 = (e + 1075).toNat
        omega
      refine ⟨s, _, _, rfl, fun hc => ?_, .inr ?_⟩
      · have hc := congrArg BitVec.toNat hc
        rw [hexp] at hc
        change (e + 1075).toNat = 2047 at hc
        omega
      · rw [hexp]
        omega
    · exact ⟨s, _, _, rfl, by decide, .inl rfl⟩

theorem Bounded.unpackExponent_pack (h : Bounded b u) (hb : b < 972) :
    unpackExponent (pack Format.binary64 u) ≠ -1#_ := by
  obtain ⟨s, e, m, hp, hne, -⟩ := h.pack_eq hb
  rw [hp, unpackExponent_packComponents]
  exact hne

theorem Bounded.unpack_pack (h : Bounded b u) (hb : b < 972) (hb' : -1074 ≤ b) :
    Bounded b (unpack Format.binary64 (pack Format.binary64 u)) := by
  obtain ⟨s, e, m, hp, hne, he⟩ := h.pack_eq hb
  have hexp : unpackExponent (pack Format.binary64 u) = e := by
    rw [hp, unpackExponent_packComponents]
  refine unpack_cases (fun _ hc => ?_) (fun hc _ => ?_) (fun _ => trivial)
    fun s m e' hm _ he' => ?_
  · exact absurd (hexp.symm.trans hc) hne
  · exact absurd (hexp.symm.trans hc) hne
  · show e' ≤ b
    rw [he', hexp]
    rcases he with rfl | he
    · exact Int.max_le.2 ⟨hb', by simp; omega⟩
    · omega

theorem mantissa_lt_of_unpack {v : BitVec 64} {s : Sign} {m : Nat} {e : Int} {hm : 0 < m}
    (h : unpack Format.binary64 v = .finite s m e hm) : m < 2 ^ 53 := by
  revert h
  refine unpack_cases (P := (· = .finite s m e hm → m < 2 ^ 53)) ?_ ?_ ?_ ?_
  · exact fun _ _ => nofun
  · exact fun _ _ => nofun
  · exact fun _ => nofun
  · rintro _ _ _ _ hlt - ⟨⟩
    exact hlt

/-! ## Rounding -/

theorem shiftRight_mantissa_le (em : ExtendedMantissa) (n : Nat) :
    (em >>> n).mantissa ≤ em.mantissa := by
  show (n.repeat ExtendedMantissa.shiftRightOne em).mantissa ≤ em.mantissa
  induction n with
  | zero => exact Nat.le_refl _
  | succ n ih => exact Nat.le_trans (Nat.div_le_self _ 2) ih

theorem roundedMantissa_le (em : ExtendedMantissa) : em.roundedMantissa ≤ em.mantissa + 1 := by
  obtain ⟨m, r, s⟩ := em
  cases r <;> cases s <;>
    simp only [ExtendedMantissa.roundedMantissa, ExtendedMantissa.accuracy,
      Accuracy.roundToNearestEven] <;> omega

theorem targetExponent_binary64 (t : Int) :
    Format.binary64.targetExponent t = max (t - 53) (-1074) := rfl

theorem log2_le_of_lt {m k : Nat} (hm : m < 2 ^ k) : m.log2 ≤ k := by
  by_cases h0 : m = 0
  · simp [h0]
  · exact Nat.le_of_lt ((Nat.log2_lt h0).2 hm)

/-- Dropping bits makes a mantissa no greater, and the exponent by no more than the bits. -/
theorem shiftToTargetExponent_le {m k : Nat} {e : Int} (hm : m < 2 ^ k) :
    (shiftToTargetExponent Format.binary64 m e .exact).1.mantissa ≤ m ∧
      (shiftToTargetExponent Format.binary64 m e .exact).2 ≤ max (e + k) (-1074) := by
  have hlog := log2_le_of_lt hm
  refine ⟨shiftRight_mantissa_le _ _, ?_⟩
  simp only [shiftToTargetExponent, shiftToExponent, targetExponent_binary64, totalExponent]
  omega

theorem bounded_roundWithAccuracy {m k : Nat} {e : Int} (s : Sign) (hm : m < 2 ^ k)
    (he : e + 2 * k < b) (hk : k - 1074 < b) :
    Bounded b (roundWithAccuracy Format.binary64 s m e .exact) := by
  obtain ⟨hm₁, he₁⟩ := shiftToTargetExponent_le hm (e := e)
  have hr := roundedMantissa_le (shiftToTargetExponent Format.binary64 m e .exact).1
  -- Rounding up may need one more bit.
  have hm₂ : (shiftToTargetExponent Format.binary64 m e .exact).1.roundedMantissa <
      2 ^ (k + 1) := by
    rw [Nat.pow_succ]
    omega
  obtain ⟨-, he₂⟩ :=
    shiftToTargetExponent_le hm₂ (e := (shiftToTargetExponent Format.binary64 m e .exact).2)
  by_cases h0 : (shiftToTargetExponent Format.binary64
      (shiftToTargetExponent Format.binary64 m e .exact).1.roundedMantissa
      (shiftToTargetExponent Format.binary64 m e .exact).2 .exact).1.mantissa = 0
  · have hzero : roundWithAccuracy Format.binary64 s m e .exact = _ := dif_pos h0
    rw [hzero]
    trivial
  · have hfinite : roundWithAccuracy Format.binary64 s m e .exact = _ := dif_neg h0
    rw [hfinite]
    exact Int.le_trans he₂ (by omega)

theorem bounded_round {m : Nat} (s : Sign) (hm : m < 2 ^ 64) :
    Bounded 240 (UnpackedFloat.round Format.binary64 s m 0) := by
  have hlog := log2_le_of_lt hm
  simp only [UnpackedFloat.round, decreaseExponent, targetExponent_binary64, totalExponent]
  generalize ht : (0 - max ((m.log2 : Int) + 1 + 0 - 53) (-1074)).toNat = t
  have ht : t ≤ 52 := by omega
  have hshift : m <<< t < 2 ^ (64 + t) := by
    rw [Nat.shiftLeft_eq, Nat.pow_add]
    exact Nat.mul_lt_mul_of_pos_right hm (Nat.two_pow_pos t)
  exact bounded_roundWithAccuracy s hshift (by omega) (by omega)

/-! ## Integers -/

theorem isFinite_of_bounded {x : Float} {u : UnpackedFloat} (h : Bounded b u) (hb : b < 972)
    (hx : x.toBits.toBitVec = pack Format.binary64 u) : isFinite x = true := by
  have he : exponentBits x ≠ 2047 := by
    rw [Ne, exponentBits_eq_iff, hx]
    exact h.unpackExponent_pack hb
  exact bne_iff_ne.2 he

theorem bounded_normalize {n : Nat} (hn : n < 2 ^ 64) :
    Bounded 240 (UnpackedFloat.normalize Format.binary64 n 0 .positive) := by
  unfold UnpackedFloat.normalize
  split
  · exact bounded_round .negative (by omega)
  · trivial
  · exact bounded_round .positive (by omega)

/-- Multiplication by one keeps a number far from the greatest one. -/
theorem Bounded.mul_one {v : BitVec 64} (h : Bounded 240 (unpack Format.binary64 v)) :
    Bounded 500 (mul Format.binary64 (unpack Format.binary64 v)
      (.finite .positive (2 ^ 52) (-52) (by decide))) := by
  match hu : unpack Format.binary64 v, h with
  | .zero s, _ => trivial
  | .finite s m e hm, h =>
    have he : e ≤ 240 := h
    have hm' := mantissa_lt_of_unpack hu
    exact bounded_roundWithAccuracy (k := 105) _ (by omega) (by omega) (by omega)

/-- A natural number of 64 bits is converted to a double that is not large. -/
theorem exists_bounded_ofNat {n : Nat} (hn : n < 2 ^ 64) :
    ∃ u, Bounded 500 u ∧ (Float.ofNat n).toModel = .pack u := by
  have hdef : Float.ofNat n = Float.ofScientific n false 0 := rfl
  rw [hdef, Float.ofScientific]
  split
  · -- A short number is multiplied by the zeroth power of ten.
    have hbound := (bounded_normalize hn).unpack_pack (by decide) (by decide)
    refine ⟨_, Bounded.mul_one hbound, ?_⟩
    have hone : (Float.ofBits 0x3FF0000000000000).toModel.unpack =
        .finite .positive (2 ^ 52) (-52) (by decide) := by rfl
    have hlong : n.toUInt64.toNat = n := Nat.mod_eq_of_lt hn
    have hmodel : n.toUInt64.toFloat.toModel =
        .pack (UnpackedFloat.normalize Format.binary64 n 0 .positive) := by
      show Float.Model.pack
        (UnpackedFloat.normalize Format.binary64 n.toUInt64.toNat 0 .positive) = _
      rw [hlong]
    show Float.Model.pack (mul Format.binary64 n.toUInt64.toFloat.toModel.unpack
      (Float.ofBits 0x3FF0000000000000).toModel.unpack) = _
    rw [hone, hmodel]
    rfl
  · next hlong =>
    -- A long number is multiplied by one as well.
    have hn0 : n ≠ 0 := by
      rintro rfl
      exact hlong (by decide)
    refine ⟨UnpackedFloat.ofScientific Format.binary64 n 0, ?_, rfl⟩
    have hlow : ¬(0 : Int) < -((2 ^ Format.binary64.exponentBits : Int) + n.log2) := by
      show ¬(0 : Int) < -(2048 + n.log2)
      omega
    have hshift : n <<< Format.binary64.mantissaBits * 10 ^ (0 : Int).toNat < 2 ^ 117 := by
      show n <<< 53 * 1 < 2 ^ 117
      rw [Nat.mul_one, Nat.shiftLeft_eq]
      omega
    rw [UnpackedFloat.ofScientific, dif_neg hn0, if_neg (by decide), if_neg hlow,
      if_pos (by decide)]
    unfold mul
    dsimp only
    have hexp : -(Format.binary64.mantissaBits : Int) + 0 = -53 := by decide
    rw [hexp]
    generalize n <<< Format.binary64.mantissaBits * 10 ^ (0 : Int).toNat = m at hshift ⊢
    exact bounded_roundWithAccuracy (k := 117) _ hshift (by omega) (by omega)

/-- An integer of 64 bits is read as a finite number. -/
theorem isFinite_ofInt {n : Int} (hn : n.natAbs < 2 ^ 64) : isFinite (Float.ofInt n) = true := by
  match n, hn with
  | .ofNat n, hn =>
    obtain ⟨u, hu, hx⟩ := exists_bounded_ofNat (n := n) hn
    refine isFinite_of_bounded hu (by decide) ?_
    show (Float.ofNat n).toModel.toBits.toBitVec = _
    rw [hx]
    rfl
  | .negSucc n, hn =>
    obtain ⟨u, hu, hx⟩ := exists_bounded_ofNat (n := n + 1) hn
    refine isFinite_of_bounded (hu.unpack_pack (by decide) (by decide)).neg (by decide) ?_
    show (-(Float.ofNat (n + 1)).toModel).toBits.toBitVec = _
    rw [hx]
    rfl

end ForecastJob.Decimal
