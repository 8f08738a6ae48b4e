import Datum.Json.Number
import Datum.Proofs.Single.Accuracy
import Mathlib.Tactic.NormNum

/-!
# How exact the scaling of a significand is

A significand of at most 53 bits is exact in double precision.  Scaling it by a power of ten rounds
the power, which is exact up to 10^22, and then the product or the quotient.  Either rounding changes
the number by one part in 2^53 at most, so that two of them leave the result within one part in 2^51
(`scaled?_within`); a result that double precision can hold is exact as long as the power is
(`scaled?_exact`).
-/

namespace Datum

-- the power of the core library, also where algebra has one of its own
attribute [local instance (high)] instPowNat

/-! ### Errors put together -/

namespace Within

variable {u v y q r s t : ℚ}

theorem mono (h : Within u y q) (hq : 0 ≤ q) (huv : u ≤ v) : Within v y q :=
  ⟨le_trans (mul_le_mul_of_nonneg_right (by linarith) hq) h.lower,
    le_trans h.upper (mul_le_mul_of_nonneg_right (by linarith) hq)⟩

theorem trans (hyq : Within u y q) (hqr : Within v q r) (hu : 0 ≤ u) (hu1 : u ≤ 1) (hv : 0 ≤ v)
    (hr : 0 ≤ r) : Within (u + v + u * v) y r := by
  constructor
  · calc (1 - (u + v + u * v)) * r
        ≤ (1 - u) * ((1 - v) * r) := by nlinarith [mul_nonneg (mul_nonneg hu hv) hr]
      _ ≤ (1 - u) * q := mul_le_mul_of_nonneg_left hqr.lower (by linarith)
      _ ≤ y := hyq.lower
  · calc y ≤ (1 + u) * q := hyq.upper
      _ ≤ (1 + u) * ((1 + v) * r) := mul_le_mul_of_nonneg_left hqr.upper (by linarith)
      _ = (1 + (u + v + u * v)) * r := by ring

theorem mul_left (h : Within u y q) (hs : 0 ≤ s) : Within u (s * y) (s * q) := by
  constructor
  · rw [mul_left_comm]
    exact mul_le_mul_of_nonneg_left h.lower hs
  · rw [mul_left_comm]
    exact mul_le_mul_of_nonneg_left h.upper hs

theorem rescale (h : Within u y (s * q)) (hs : 0 < s) (ht : 0 ≤ t) :
    Within u (y / s * t) (q * t) := by
  have hscaled := h.mul_left (s := t / s) (by positivity)
  rwa [div_mul_comm, ← mul_assoc, div_mul_cancel₀ _ hs.ne', mul_comm t q] at hscaled

theorem div_left (h : Within u y q) (hu : 0 ≤ u) (hu2 : 2 * u ≤ 1) (hq : 0 < q) (hs : 0 ≤ s) :
    Within (2 * u) (s / y) (s / q) := by
  have hy : 0 < y := lt_of_lt_of_le (mul_pos (by linarith) hq) h.lower
  constructor
  · rw [← mul_div_assoc, div_le_div_iff₀ hq hy]
    have := mul_le_mul_of_nonneg_left h.upper hs
    nlinarith [mul_nonneg (mul_nonneg hs hu) hy.le, mul_nonneg (mul_nonneg hs hu) hq.le]
  · rw [← mul_div_assoc, div_le_div_iff₀ hy hq]
    have := mul_le_mul_of_nonneg_left h.lower hs
    nlinarith [mul_nonneg (mul_nonneg hs hu) hy.le, mul_nonneg (mul_nonneg hs hu) hq.le]

end Within

namespace Json.Number

open BinaryFormat (double)

/-- The last bit of a double, as a part of its magnitude. -/
def halfBit : ℚ := 1 / 2 ^ 53

/-! ### Exact numbers -/

theorem infinity_double : double.infinity = 2 ^ double.fractionBits * 2047 := by decide

theorem nearest_double_lt_infinity {num den k : Nat} (hden : 0 < den) (hk : k ≤ 900)
    (hnum : num < double.scale * 2 ^ k * den) : double.nearest num den < double.infinity := by
  have hunit : double.unitExponent = 1074 := rfl
  have hfraction : double.fractionBits = 52 := rfl
  have hexp : double.unitExponent + k =
      double.fractionBits + (k + double.unitExponent - double.fractionBits) := by omega
  refine double.nearest_lt_infinity (k := k + double.unitExponent - double.fractionBits) hden ?_ ?_
  · rwa [← Nat.pow_add, ← hexp, Nat.pow_add]
  · rw [infinity_double]
    exact Nat.mul_lt_mul_of_pos_left (by omega) double.two_pow_fractionBits_pos

theorem exists_double {m k : Nat} (hm : m < 2 ^ 53) (hk : k < 2045) :
    ∃ code, double.units code = m * 2 ^ k ∧ code < double.infinity := by
  obtain ⟨code, hunits, hle⟩ := double.exists_code (show m < 2 * 2 ^ 52 by omega) k
  refine ⟨code, hunits, Nat.lt_of_le_of_lt hle ?_⟩
  rw [infinity_double]
  exact Nat.mul_lt_mul_of_pos_left (by omega) double.two_pow_fractionBits_pos

theorem units_ofNat {m k n : Nat} (hm : m < 2 ^ 53) (hk : k < 900) (hn : n = m * 2 ^ k) :
    double.units (double.ofNat n) = double.scale * n := by
  have hunit : double.unitExponent = 1074 := rfl
  obtain ⟨code, hunits, hlt⟩ := exists_double hm (show k + double.unitExponent < 2045 by omega)
  have hscale : double.scale * n = double.units code := by
    rw [hunits, hn, Nat.pow_add, Nat.mul_comm double.scale, Nat.mul_assoc, BinaryFormat.scale]
  rw [BinaryFormat.ofNat, hscale, double.nearest_units (Nat.le_of_lt hlt)]

/-- The powers of ten up to 10^22 are exact. -/
theorem units_power {e : Nat} (he : e ≤ 22) :
    double.units (double.ofNat (10 ^ e)) = double.scale * 10 ^ e := by
  have hfive : 5 ^ e < 2 ^ 53 :=
    Nat.lt_of_le_of_lt (Nat.pow_le_pow_right (by decide) he) (by decide)
  refine units_ofNat hfive (show e < 900 by omega) ?_
  rw [← Nat.mul_pow]

/-! ### Powers of ten -/

theorem power_lt {e : Nat} (he : e ≤ 60) : 10 ^ e < 2 ^ 200 :=
  Nat.lt_of_le_of_lt (Nat.pow_le_pow_right (by decide) he) (by decide)

theorem scale_pos : 0 < double.scale := Nat.two_pow_pos _

theorem two_pow_le_scale {k : Nat} (hk : k ≤ 1074) : 2 ^ k ≤ double.scale := by
  rw [BinaryFormat.scale]
  exact Nat.pow_le_pow_right Nat.two_pos hk

/-- A power of ten is off by a half of the last bit at most. -/
theorem power_within {e : Nat} (he : e ≤ 60) :
    Within halfBit (double.units (double.ofNat (10 ^ e))) (double.scale * 10 ^ e) := by
  have hfin : double.nearest (double.scale * 10 ^ e) 1 < double.infinity := by
    refine nearest_double_lt_infinity Nat.one_pos (show 200 ≤ 900 by decide) ?_
    rw [Nat.mul_one]
    exact Nat.mul_lt_mul_of_pos_left (power_lt he) scale_pos
  have hlow : 2 ^ double.fractionBits * 1 ≤ double.scale * 10 ^ e := by
    rw [Nat.mul_one]
    exact Nat.le_trans (two_pow_le_scale (by decide))
      (Nat.le_mul_of_pos_right _ (Nat.pow_pos (by decide)))
  have h := double.nearest_within Nat.one_pos hlow hfin
  rw [Nat.cast_one, div_one, Nat.cast_mul, Nat.cast_pow] at h
  exact h

theorem bounds_of_within {scale power y : ℚ} (h : Within halfBit y (scale * power))
    (hs : 0 ≤ scale) (hone : 1 ≤ power) : scale ≤ 2 * y ∧ y ≤ 2 * (scale * power) := by
  obtain ⟨hlower, hupper⟩ := h
  have hbit : 0 ≤ halfBit ∧ halfBit ≤ 1 / 2 := by norm_num [halfBit]
  have hle : scale ≤ scale * power := le_mul_of_one_le_right hs hone
  constructor
  · nlinarith
  · nlinarith

/-- The double that is nearest to a power of ten is neither zero nor far beyond it. -/
theorem power_bounds {e : Nat} (he : e ≤ 60) :
    double.scale ≤ 2 * double.units (double.ofNat (10 ^ e)) ∧
      double.units (double.ofNat (10 ^ e)) ≤ 2 * (double.scale * 10 ^ e) := by
  have h := bounds_of_within (power_within he) (Nat.cast_nonneg _) (one_le_pow₀ (by norm_num))
  exact_mod_cast h

/-! ### The scaled significand -/

variable {significand : Nat}

theorem units_significand (hs : significand < 2 ^ 53) :
    double.units (double.ofNat significand) = double.scale * significand :=
  units_ofNat hs (show 0 < 900 by decide) (Nat.mul_one _).symm

/-- Rounding twice is within one part in 2^51. -/
theorem within_of_two {y q r u : ℚ} (hyq : Within halfBit y q) (hqr : Within u q r)
    (hu : 0 ≤ u) (hu2 : u ≤ 2 * halfBit) (hr : 0 ≤ r) : Within (1 / 2 ^ 51) y r := by
  have hbit : 0 ≤ halfBit ∧ halfBit ≤ 1 / 2 := by norm_num [halfBit]
  refine (hyq.trans hqr hbit.1 (by linarith) hu hr).mono hr ?_
  have hbound : halfBit + u + halfBit * u ≤ 4 * halfBit := by nlinarith
  exact le_trans hbound (by norm_num [halfBit])

theorem timesPower_within {e : Nat} (h0 : significand ≠ 0) (hs : significand < 2 ^ 53)
    (he : e ≤ 60) :
    timesPower (double.ofNat significand) e < double.infinity ∧
      Within (1 / 2 ^ 51) (double.units (timesPower (double.ofNat significand) e))
        (double.scale * (significand * 10 ^ e)) := by
  have hpower := power_within he
  obtain ⟨hlower, hupper⟩ := power_bounds he
  have hspos := scale_pos
  have hscale := two_pow_le_scale (show 53 ≤ 1074 by decide)
  have hfar := @nearest_double_lt_infinity
  simp only [timesPower, units_significand hs]
  generalize double.units (double.ofNat (10 ^ e)) = power at *
  generalize double.scale = scale at *
  have hfin : double.nearest (scale * significand * power) scale < double.infinity := by
    refine hfar hspos (show 254 ≤ 900 by decide) ?_
    rw [Nat.mul_assoc, Nat.mul_assoc]
    refine Nat.mul_lt_mul_of_pos_left ?_ hspos
    calc significand * power
        ≤ significand * (2 * (scale * 2 ^ 200)) :=
          Nat.mul_le_mul_left _ (Nat.le_trans hupper
            (Nat.mul_le_mul_left _ (Nat.mul_le_mul_left _ (power_lt he).le)))
      _ < 2 ^ 53 * (2 * (scale * 2 ^ 200)) := Nat.mul_lt_mul_of_pos_right hs (by positivity)
      _ = 2 ^ 254 * scale := by ring
  have hlow : 2 ^ double.fractionBits * scale ≤ scale * significand * power := by
    rw [Nat.mul_assoc, Nat.mul_comm]
    refine Nat.mul_le_mul_left _ (Nat.le_trans ?_ (Nat.le_mul_of_pos_left _ (by omega)))
    show 2 ^ 52 ≤ power
    omega
  refine ⟨hfin, ?_⟩
  have hround := double.nearest_within hspos hlow hfin
  have hpos : (0 : ℚ) < scale := Nat.cast_pos.mpr hspos
  have hquotient : ((scale * significand * power : ℕ) : ℚ) / scale = significand * power := by
    push_cast
    rw [mul_assoc, mul_div_cancel_left₀ _ hpos.ne']
  have hexact : (scale : ℚ) * (significand * 10 ^ e) = significand * (scale * 10 ^ e) :=
    mul_left_comm _ _ _
  rw [hquotient] at hround
  rw [hexact]
  exact within_of_two hround (hpower.mul_left (Nat.cast_nonneg _)) (by norm_num [halfBit])
    (by norm_num [halfBit]) (by positivity)

theorem overPower_within {e : Nat} (h0 : significand ≠ 0) (hs : significand < 2 ^ 53)
    (he : e ≤ 60) :
    overPower (double.ofNat significand) e < double.infinity ∧
      Within (1 / 2 ^ 51) (double.units (overPower (double.ofNat significand) e))
        (double.scale * (significand / 10 ^ e)) := by
  have hpower := power_within he
  obtain ⟨hlower, hupper⟩ := power_bounds he
  have hspos := scale_pos
  have hscale := two_pow_le_scale (show 253 ≤ 1074 by decide)
  have hfar := @nearest_double_lt_infinity
  simp only [overPower, units_significand hs]
  generalize double.units (double.ofNat (10 ^ e)) = power at *
  generalize double.scale = scale at *
  have hppos : 0 < power := by omega
  have hfin : double.nearest (scale * significand * scale) power < double.infinity := by
    refine hfar hppos (show 54 ≤ 900 by decide) ?_
    rw [Nat.mul_assoc, Nat.mul_assoc]
    refine Nat.mul_lt_mul_of_pos_left ?_ hspos
    calc significand * scale ≤ significand * (2 * power) := Nat.mul_le_mul_left _ hlower
      _ < 2 ^ 53 * (2 * power) := Nat.mul_lt_mul_of_pos_right hs (by omega)
      _ = 2 ^ 54 * power := by ring
  have hlow : 2 ^ double.fractionBits * power ≤ scale * significand * scale := by
    calc 2 ^ double.fractionBits * power
        ≤ 2 ^ 52 * (2 * (scale * 2 ^ 200)) :=
          Nat.mul_le_mul_left _ (Nat.le_trans hupper
            (Nat.mul_le_mul_left _ (Nat.mul_le_mul_left _ (power_lt he).le)))
      _ = scale * 2 ^ 253 := by ring
      _ ≤ scale * scale := Nat.mul_le_mul_left _ hscale
      _ ≤ scale * significand * scale :=
          Nat.mul_le_mul_right _ (Nat.le_mul_of_pos_right _ (by omega))
  refine ⟨hfin, ?_⟩
  have hround := double.nearest_within hppos hlow hfin
  have hpos : (0 : ℚ) < scale := Nat.cast_pos.mpr hspos
  have hexact : (scale : ℚ) * (significand / 10 ^ e) =
      ((scale * significand * scale : ℕ) : ℚ) / (scale * 10 ^ e) := by
    push_cast
    field_simp
  rw [hexact]
  exact within_of_two hround
    (hpower.div_left (by norm_num [halfBit]) (by norm_num [halfBit]) (by positivity)
      (Nat.cast_nonneg _))
    (by norm_num [halfBit]) (le_refl _) (by positivity)

/-- With an exact power, a product that is a double is not rounded. -/
theorem timesPower_exact {e code : Nat} (hs : significand < 2 ^ 53) (he : e ≤ 22)
    (hpos : 0 < code) (hcode : code < double.infinity)
    (h : double.units code = double.scale * (significand * 10 ^ e)) :
    timesPower (double.ofNat significand) e = code := by
  simp only [timesPower, units_significand hs, units_power he]
  refine double.nearest_exact (by decide) scale_pos hpos hcode.le ?_
  rw [h]
  ring

theorem overPower_exact {e code : Nat} (hs : significand < 2 ^ 53) (he : e ≤ 22)
    (hpos : 0 < code) (hcode : code < double.infinity)
    (h : double.units code * 10 ^ e = double.scale * significand) :
    overPower (double.ofNat significand) e = code := by
  simp only [overPower, units_significand hs, units_power he]
  refine double.nearest_exact (by decide) (Nat.mul_pos scale_pos (Nat.pow_pos (by decide))) hpos
    hcode.le ?_
  rw [← h]
  ring

theorem scaled?_ofNat {e : Nat} (h0 : significand ≠ 0) (hs : significand < 2 ^ 53) (he : e ≤ 60) :
    scaled? significand (.ofNat e) = some (timesPower (double.ofNat significand) e) := by
  rw [scaled?, if_neg h0, if_pos (Nat.le_trans he (by decide)),
    if_pos (timesPower_within h0 hs he).1]

theorem scaled?_negSucc {n : Nat} (hn : n + 1 ≤ 60) :
    scaled? significand (.negSucc n) = some (overPower (double.ofNat significand) (n + 1)) := by
  rw [scaled?, if_pos (Nat.le_trans hn (by decide))]

variable {exponent : ℤ}

/-- **The scaled significand is off by one part in 2^51 at most.** -/
theorem scaled?_within (h0 : significand ≠ 0) (hs : significand < 2 ^ 53) (hlow : -60 ≤ exponent)
    (hhigh : exponent ≤ 60) :
    ∃ y, scaled? significand exponent = some y ∧
      Within (1 / 2 ^ 51) (double.units y) (double.scale * (significand * 10 ^ exponent)) := by
  cases exponent with
  | ofNat e =>
    have he : e ≤ 60 := by
      rw [Int.ofNat_eq_natCast] at hhigh
      omega
    refine ⟨timesPower (double.ofNat significand) e, scaled?_ofNat h0 hs he, ?_⟩
    rw [Int.ofNat_eq_natCast, zpow_natCast]
    exact (timesPower_within h0 hs he).2
  | negSucc n =>
    have he : n + 1 ≤ 60 := by
      rw [Int.negSucc_eq] at hlow
      omega
    refine ⟨overPower (double.ofNat significand) (n + 1), scaled?_negSucc he, ?_⟩
    rw [zpow_negSucc, ← div_eq_mul_inv]
    exact (overPower_within h0 hs he).2

/-- **A scaled significand that is a double is exact if the power of ten is.** -/
theorem scaled?_exact {code : Nat} (hs : significand < 2 ^ 53) (hlow : -22 ≤ exponent)
    (hhigh : exponent ≤ 22) (hpos : 0 < code) (hcode : code < double.infinity)
    (h : (double.units code : ℚ) = double.scale * (significand * 10 ^ exponent)) :
    scaled? significand exponent = some code := by
  have h0 : significand ≠ 0 := by
    rintro rfl
    rw [Nat.cast_zero, zero_mul, mul_zero, Nat.cast_eq_zero] at h
    exact absurd h (double.units_pos_iff.mpr hpos).ne'
  cases exponent with
  | ofNat e =>
    have he : e ≤ 22 := by
      rw [Int.ofNat_eq_natCast] at hhigh
      omega
    rw [Int.ofNat_eq_natCast, zpow_natCast] at h
    have hexact := timesPower_exact hs he hpos hcode (by exact_mod_cast h)
    rw [scaled?_ofNat h0 hs (by omega), hexact]
  | negSucc n =>
    have he : n + 1 ≤ 22 := by
      rw [Int.negSucc_eq] at hlow
      omega
    have hten : (0 : ℚ) < 10 ^ (n + 1) := by positivity
    rw [zpow_negSucc, ← div_eq_mul_inv, ← mul_div_assoc, eq_div_iff hten.ne'] at h
    have hexact := overPower_exact hs he hpos hcode (by exact_mod_cast h)
    rw [scaled?_negSucc (by omega), hexact]

end Json.Number

end Datum
