import Datum.Proofs.Json.ReadBack
import Mathlib.Data.Nat.Log

/-!
# The number of a single is read as the single

The decimal that is written lies in the interval of the single, and what is read in double
precision is off by one part in 2^51.  So the single is found again unless a midpoint of two singles
is that near to the decimal (`roundsTo_or_near`).  A decimal that is itself a midpoint is exact in
double precision, and the other decimals near a midpoint have all been tested.  Hence
`toSingle?_ofSingle`: every finite single is read back from the number that is written for it, bit
for bit.
-/

namespace Datum

-- the power of the core library, also where algebra has one of its own
attribute [local instance (high)] instPowNat

/-! ### Midpoints -/

namespace BinaryFormat

variable (f : BinaryFormat)

def twiceMidpoint (code : Nat) : Nat :=
  f.units code + f.units (code + 1)

/-- Twice a midpoint is an odd multiple of the spacing. -/
theorem twiceMidpoint_eq (code : Nat) :
    f.twiceMidpoint code = (2 * f.significand code + 1) * 2 ^ f.octave code := by
  rw [twiceMidpoint, units_succ, units]
  ring

/-- **What is little off rounds to the same encoding, unless a midpoint is near.** -/
theorem roundsTo_or_near {code : Nat} {q y u : ℚ} (hpos : 0 < code) (h : f.RoundsTo code q)
    (hy : Within u y q) :
    f.RoundsTo code y ∨ ∃ c ≤ code, |(f.twiceMidpoint c : ℚ) - 2 * q| ≤ u * (2 * q) := by
  by_cases hfar : ∃ c ≤ code, |(f.twiceMidpoint c : ℚ) - 2 * q| ≤ u * (2 * q)
  · exact .inr hfar
  left
  have hlow := lt_of_not_ge fun h => hfar ⟨code - 1, Nat.sub_le _ _, h⟩
  have hhigh := lt_of_not_ge fun h => hfar ⟨code, Nat.le_refl _, h⟩
  obtain ⟨hylow, hyhigh⟩ := hy
  obtain ⟨hlower, hupper, -⟩ := h
  rw [twiceMidpoint, Nat.sub_add_cancel hpos] at hlow
  rw [twiceMidpoint] at hhigh
  rw [abs_of_nonpos (by linarith)] at hlow
  rw [abs_of_nonneg (by linarith)] at hhigh
  exact ⟨by linarith, by linarith, fun _ => ⟨by linarith, by linarith⟩⟩

end BinaryFormat

namespace Json.Number

open BinaryFormat (double)

/-! ### Reading through double precision -/

variable {significand code : Nat} {exponent : ℤ}

theorem magnitude?_eq_some {y : Nat} (hy : scaled? significand exponent = some y) (hpos : 0 < code)
    (hinf : code ≤ BinaryFormat.single.infinity)
    (h : BinaryFormat.single.RoundsTo code
      (double.units y / double.scale * BinaryFormat.single.scale)) :
    magnitude? significand exponent = some code := by
  have hfraction : ((double.units y * BinaryFormat.single.scale : ℕ) : ℚ) / double.scale =
      double.units y / double.scale * BinaryFormat.single.scale := by
    rw [Nat.cast_mul]
    ring
  rw [magnitude?, hy, Option.map_some,
    BinaryFormat.single.nearest_eq (by decide) scale_pos hpos hinf (hfraction ▸ h)]

theorem magnitude?_of_exact {m k : Nat} (hs : significand < 2 ^ 53) (hlow : -22 ≤ exponent)
    (hhigh : exponent ≤ 22) (h0 : m ≠ 0) (hm : m < 2 ^ 53) (hk : k < 2045)
    (h : ((m * 2 ^ k : ℕ) : ℚ) = double.scale * (significand * 10 ^ exponent)) (hpos : 0 < code)
    (hinf : code ≤ BinaryFormat.single.infinity)
    (hround : BinaryFormat.single.RoundsTo code
      (significand * 10 ^ exponent * BinaryFormat.single.scale)) :
    magnitude? significand exponent = some code := by
  obtain ⟨y, hunits, hfin⟩ := exists_double hm hk
  have hy : 0 < y := by
    rw [← double.units_pos_iff, hunits]
    exact Nat.mul_pos (Nat.pos_of_ne_zero h0) (Nat.two_pow_pos _)
  have hscale : (double.scale : ℚ) ≠ 0 := Nat.cast_ne_zero.mpr scale_pos.ne'
  rw [← hunits] at h
  refine magnitude?_eq_some (scaled?_exact hs hlow hhigh hy hfin h) hpos hinf ?_
  rw [h, mul_div_cancel_left₀ _ hscale]
  exact hround

theorem magnitude?_of_whole {n : Nat} (h0 : n ≠ 0) (hn : n < 10 ^ 13) (hpos : 0 < code)
    (hinf : code ≤ BinaryFormat.single.infinity)
    (hround : BinaryFormat.single.RoundsTo code (n * BinaryFormat.single.scale)) :
    magnitude? (10 * n) (-1) = some code := by
  have hvalue : ((10 * n : ℕ) : ℚ) * 10 ^ (-1 : ℤ) = n := by
    push_cast
    ring
  refine magnitude?_of_exact (m := n) (k := double.unitExponent) (by omega) (by decide) (by decide)
    h0 (by omega) (by decide) ?_ hpos hinf ?_
  · rw [hvalue, Nat.cast_mul, mul_comm, BinaryFormat.scale]
  · rw [hvalue]
    exact hround

/-! ### Decimals that are midpoints -/

/-- A power of five in a number of few digits is a small one. -/
theorem le_of_five_pow_dvd {e n k : Nat} (h0 : n ≠ 0) (hn : n < 5 ^ 23) (h : 5 ^ e ∣ n * 2 ^ k) :
    e ≤ 22 := by
  have hcoprime : Nat.Coprime (5 ^ e) (2 ^ k) := Nat.Coprime.pow e k (by decide)
  have hle := Nat.le_of_dvd (Nat.pos_of_ne_zero h0) (hcoprime.dvd_of_dvd_mul_right h)
  by_contra he
  have := Nat.pow_le_pow_right (show 0 < 5 by decide) (show 23 ≤ e by omega)
  omega

/-- Decimals that are midpoints have exponents for which the power of ten is exact. -/
theorem exponent_of_midpoint {digits m k l : Nat} (h0 : digits ≠ 0) (hdigits : digits < 10 ^ 9)
    (hm : m < 2 ^ 25) (h : ((m * 2 ^ k : ℕ) : ℚ) = digits * 10 ^ exponent * (2 ^ l : ℕ)) :
    -22 ≤ exponent ∧ exponent ≤ 22 := by
  cases exponent with
  | ofNat e =>
    rw [Int.ofNat_eq_natCast, zpow_natCast] at h
    have heq : m * 2 ^ k = digits * 10 ^ e * 2 ^ l := by exact_mod_cast h
    have hm0 : m ≠ 0 := by
      rintro rfl
      rw [Nat.zero_mul] at heq
      exact absurd heq.symm (Nat.mul_ne_zero (Nat.mul_ne_zero h0 (Nat.pow_pos (by decide)).ne')
        (Nat.two_pow_pos _).ne')
    have hdvd : 5 ^ e ∣ m * 2 ^ k := by
      rw [heq, Nat.mul_assoc]
      exact Dvd.dvd.mul_left (Dvd.dvd.mul_right (pow_dvd_pow_of_dvd (by decide) e) _) _
    have := le_of_five_pow_dvd hm0 (by omega) hdvd
    rw [Int.ofNat_eq_natCast]
    omega
  | negSucc n =>
    have hten : (10 : ℚ) ^ (n + 1) ≠ 0 := by positivity
    rw [zpow_negSucc] at h
    have heq : m * 2 ^ k * 10 ^ (n + 1) = digits * 2 ^ l := by
      have : ((m * 2 ^ k : ℕ) : ℚ) * 10 ^ (n + 1) = digits * (2 ^ l : ℕ) := by
        rw [h]
        field_simp
      exact_mod_cast this
    have hdvd : 5 ^ (n + 1) ∣ digits * 2 ^ l := by
      rw [← heq]
      exact Dvd.dvd.mul_left (pow_dvd_pow_of_dvd (by decide) _) _
    have := le_of_five_pow_dvd h0 (by omega) hdvd
    rw [Int.negSucc_eq]
    omega

theorem octave_le {c : Nat} (hc : c < BinaryFormat.single.infinity) :
    BinaryFormat.single.octave c ≤ 253 := by
  have hinf : BinaryFormat.single.infinity = 2 ^ BinaryFormat.single.fractionBits * 255 := by decide
  rw [hinf, Nat.mul_comm,
    ← Nat.div_lt_iff_lt_mul BinaryFormat.single.two_pow_fractionBits_pos] at hc
  rw [BinaryFormat.octave]
  omega

theorem two_mul_scale (q : ℚ) : 2 * (q * BinaryFormat.single.scale) = q * (2 ^ 150 : ℕ) := by
  have hscale : 2 * BinaryFormat.single.scale = 2 ^ 150 := by decide
  rw [← hscale, Nat.cast_mul, Nat.cast_two]
  ring

theorem magnitude?_of_midpoint {digits c : Nat} (h0 : digits ≠ 0) (hdigits : digits < 10 ^ 9)
    (hc : c < BinaryFormat.single.infinity)
    (h : (BinaryFormat.single.twiceMidpoint c : ℚ) =
      2 * (digits * 10 ^ exponent * BinaryFormat.single.scale)) (hpos : 0 < code)
    (hinf : code ≤ BinaryFormat.single.infinity)
    (hround : BinaryFormat.single.RoundsTo code
      (digits * 10 ^ exponent * BinaryFormat.single.scale)) :
    magnitude? digits exponent = some code := by
  have hsig : BinaryFormat.single.significand c < 2 ^ 24 := BinaryFormat.single.significand_lt c
  have hoct := octave_le hc
  rw [two_mul_scale, BinaryFormat.twiceMidpoint_eq] at h
  obtain ⟨hlow, hhigh⟩ := exponent_of_midpoint h0 hdigits (by omega) h
  obtain ⟨l, hunit, hl⟩ : ∃ l, double.unitExponent = l + 150 ∧ l = 924 := ⟨924, rfl, rfl⟩
  have hscale : double.scale = 2 ^ l * 2 ^ 150 := by
    rw [BinaryFormat.scale, hunit, Nat.pow_add]
  refine magnitude?_of_exact (m := 2 * BinaryFormat.single.significand c + 1)
    (k := BinaryFormat.single.octave c + l) (by omega) hlow hhigh (by omega) (by omega) (by omega)
    ?_ hpos hinf hround
  rw [hscale, Nat.pow_add, ← Nat.mul_assoc, Nat.cast_mul, h, Nat.cast_mul]
  ring

/-! ### Decimals near midpoints -/

/-- A number of nine digits at most has nine with zeros behind it. -/
theorem exists_nine_digits {digits : Nat} (h0 : digits ≠ 0) (hdigits : digits < 10 ^ 9) :
    ∃ i < 9, 10 ^ 8 ≤ digits * 10 ^ i ∧ digits * 10 ^ i < 10 ^ 9 := by
  have hlow := Nat.pow_log_le_self 10 h0
  have hhigh := Nat.lt_pow_succ_log_self (show 1 < 10 by decide) digits
  have hlog : Nat.log 10 digits < 9 := Nat.log_lt_of_lt_pow h0 hdigits
  generalize Nat.log 10 digits = log at *
  refine ⟨8 - log, by omega, ?_, ?_⟩
  · calc 10 ^ 8 = 10 ^ log * 10 ^ (8 - log) := by
          rw [← Nat.pow_add, Nat.add_sub_cancel' (by omega)]
      _ ≤ digits * 10 ^ (8 - log) := Nat.mul_le_mul_right _ hlow
  · calc digits * 10 ^ (8 - log) < 10 ^ (log + 1) * 10 ^ (8 - log) :=
          Nat.mul_lt_mul_of_pos_right hhigh (Nat.pow_pos (by decide))
      _ = 10 ^ 9 := by
          rw [← Nat.pow_add]
          congr 1
          omega

theorem Near.of_abs {decimal midpoint : Nat} (hne : decimal ≠ midpoint)
    (h : |(midpoint : ℚ) - decimal| ≤ 1 / 2 ^ 51 * decimal) : Near decimal midpoint := by
  obtain ⟨hlower, hupper⟩ := abs_le.mp h
  rw [div_mul_eq_mul_div, one_mul] at hlower hupper
  refine ⟨hne, ?_, ?_⟩
  · have : (2 : ℚ) ^ 51 * midpoint ≤ 2 ^ 51 * decimal + decimal := by linarith
    exact_mod_cast this
  · have : (2 : ℚ) ^ 51 * decimal ≤ 2 ^ 51 * midpoint + decimal := by linarith
    exact_mod_cast this

theorem exists_octave {c : Nat} (hc : c < BinaryFormat.single.infinity) :
    ∃ s < 278, s - 24 = BinaryFormat.single.octave c ∧
      2 ^ min s 24 ≤ 2 * BinaryFormat.single.significand c + 1 ∧
      2 * BinaryFormat.single.significand c + 1 < 2 * 2 ^ min s 24 := by
  have hsig : BinaryFormat.single.significand c < 2 ^ 24 := BinaryFormat.single.significand_lt c
  have hoct := octave_le hc
  rcases BinaryFormat.single.octave_eq_zero_or c with hzero | hnormal
  · have hne : 2 * BinaryFormat.single.significand c + 1 ≠ 0 := Nat.succ_ne_zero _
    have hlow := Nat.log2_self_le hne
    have hhigh := Nat.lt_log2_self (n := 2 * BinaryFormat.single.significand c + 1)
    have hlog : Nat.log2 (2 * BinaryFormat.single.significand c + 1) < 25 :=
      (Nat.log2_lt hne).mpr (by omega)
    rw [Nat.pow_succ'] at hhigh
    refine ⟨Nat.log2 (2 * BinaryFormat.single.significand c + 1), by omega, by omega, ?_, ?_⟩
    · rwa [Nat.min_eq_left (by omega)]
    · rwa [Nat.min_eq_left (by omega)]
  · have hbits : 2 ^ 23 ≤ BinaryFormat.single.significand c := hnormal
    refine ⟨BinaryFormat.single.octave c + 24, by omega, by omega, ?_, ?_⟩
    · rw [Nat.min_eq_right (by omega)]
      omega
    · rw [Nat.min_eq_right (by omega)]
      omega

theorem exponent_of_bounds {d : Nat} {e : ℤ} (hd : 10 ^ 8 ≤ d) (hd' : d < 10 ^ 9)
    (hlow : (10 : ℚ) ^ (-46 : ℤ) < d * 10 ^ e) (hhigh : (d : ℚ) * 10 ^ e < 10 ^ (39 : ℤ)) :
    -54 ≤ e ∧ e ≤ 30 := by
  have hten : (0 : ℚ) < 10 ^ e := by positivity
  have hlower : (10 : ℚ) ^ (8 + e) < 10 ^ (39 : ℤ) := by
    rw [zpow_add₀ (by norm_num)]
    refine lt_of_le_of_lt (mul_le_mul_of_nonneg_right ?_ hten.le) hhigh
    exact_mod_cast hd
  have hupper : (10 : ℚ) ^ (-46 : ℤ) < 10 ^ (9 + e) := by
    rw [zpow_add₀ (by norm_num)]
    refine lt_trans hlow (mul_lt_mul_of_pos_right ?_ hten)
    exact_mod_cast hd'
  have h1 := (zpow_lt_zpow_iff_right₀ (by norm_num)).mp hlower
  have h2 := (zpow_lt_zpow_iff_right₀ (by norm_num)).mp hupper
  omega

/-- **A decimal near a midpoint has been tested.** -/
theorem readsBack_of_abs {d i c : Nat} {e : ℤ} (hlow : -54 ≤ e) (hhigh : e ≤ 30)
    (hd : 10 ^ 8 ≤ d) (hd' : d < 10 ^ 9) (hi : i < 10) (hdvd : 10 ^ i ∣ d)
    (hc : c < BinaryFormat.single.infinity)
    (hne : (BinaryFormat.single.twiceMidpoint c : ℚ) ≠
      2 * (d * 10 ^ e * BinaryFormat.single.scale))
    (h : |(BinaryFormat.single.twiceMidpoint c : ℚ) -
      2 * (d * 10 ^ e * BinaryFormat.single.scale)| ≤
        1 / 2 ^ 51 * (2 * (d * 10 ^ e * BinaryFormat.single.scale))) :
    readsBack (powerUnits (e + i)) (d / 10 ^ i) (e + i) = true := by
  obtain ⟨s, hs, hoct, hm, hm'⟩ := exists_octave hc
  have hp : (0 : ℚ) < wholePower e := Nat.cast_pos.mpr (Nat.pow_pos (by decide))
  have hdecimal : ((d * step e : ℕ) : ℚ) =
      2 * (d * 10 ^ e * BinaryFormat.single.scale) * wholePower e := by
    rw [two_mul_scale, ten_zpow, step, wholePower]
    push_cast
    field_simp
  have hmidpoint : (2 * BinaryFormat.single.significand c + 1) * (wholePower e * 2 ^ (s - 24)) =
      BinaryFormat.single.twiceMidpoint c * wholePower e := by
    rw [BinaryFormat.twiceMidpoint_eq, hoct, Nat.mul_assoc, Nat.mul_comm (wholePower e)]
  refine readsBack_of_near hlow hhigh hd hd' hi hdvd hs hm hm' ?_
  rw [hmidpoint]
  refine .of_abs ?_ ?_
  · intro heq
    have hcast := congrArg (Nat.cast (R := ℚ)) heq
    rw [hdecimal, Nat.cast_mul] at hcast
    exact hne (mul_right_cancel₀ hp.ne' hcast).symm
  · rw [hdecimal, Nat.cast_mul, ← sub_mul, abs_mul, abs_of_pos hp]
    exact (mul_le_mul_of_nonneg_right h hp.le).trans_eq (mul_assoc _ _ _)

/-! ### The number of a single -/

variable {x : Single}

/-- **The digits and the exponent of the shortest decimal are read as the magnitude.** -/
theorem magnitude?_shortest (hfin : x.isFinite = true) (h : x.units ≠ 0) :
    magnitude? (x.shortest .toEven).digits (x.shortest .toEven).exponent = some x.magnitude := by
  have hpos := Single.magnitude_pos h
  have hlt := Single.magnitude_lt hfin
  have h0 := Single.shortest_digits_ne_zero hfin .toEven h
  have hdigits := Single.shortest_digits_lt .toEven h
  have hround := Single.shortest_roundsTo .toEven h
  obtain ⟨hlow, hhigh⟩ := Single.shortest_bounds hfin .toEven h
  have hcode := Single.shortest_congr (x := .ofMagnitude false x.magnitude) (y := x)
    (Single.magnitude_ofMagnitude (Nat.lt_of_lt_of_le hlt (by decide))) .toEven
  generalize x.shortest .toEven = d at *
  obtain ⟨i, hi, hnine, hnine'⟩ := exists_nine_digits h0 hdigits
  have hvalue : d.value = (d.digits * 10 ^ i : ℕ) * 10 ^ (d.exponent - i) := by
    rw [Decimal.value, zpow_sub₀ (by norm_num), zpow_natCast]
    push_cast
    field_simp
  obtain ⟨helow, hehigh⟩ := exponent_of_bounds hnine hnine' (hvalue ▸ hlow) (hvalue ▸ hhigh)
  obtain ⟨y, hy, hwithin⟩ := scaled?_within h0 (by omega) (show -60 ≤ d.exponent by omega)
    (show d.exponent ≤ 60 by omega)
  have hrescaled : Within _ _ (d.value * BinaryFormat.single.scale) :=
    hwithin.rescale (Nat.cast_pos.mpr scale_pos) (Nat.cast_nonneg _)
  rcases BinaryFormat.single.roundsTo_or_near hpos hround hrescaled with hsame | ⟨c, hc, hnear⟩
  · exact magnitude?_eq_some hy hpos hlt.le hsame
  have hc := Nat.lt_of_le_of_lt hc hlt
  by_cases hmid : (BinaryFormat.single.twiceMidpoint c : ℚ) =
      2 * (d.value * BinaryFormat.single.scale)
  · exact magnitude?_of_midpoint h0 hdigits hc hmid hpos hlt.le hround
  · rw [hvalue] at hmid hnear
    have hread := readsBack_of_abs helow hehigh hnine hnine' (by omega) (Nat.dvd_mul_left _ _) hc
      hmid hnear
    rw [Int.sub_add_cancel, Nat.mul_div_cancel _ (Nat.pow_pos (by decide))] at hread
    exact magnitude?_of_readsBack h0 hdigits (by omega) (by omega) hread hpos hlt.le hround hcode

theorem magnitude?_significand (hfin : x.isFinite = true) (h : x.units ≠ 0) :
    magnitude? (ofDecimal false (x.shortest .toEven)).significand.1
      (ofDecimal false (x.shortest .toEven)).significand.2 = some x.magnitude := by
  have hdigits := Single.shortest_digits_lt .toEven h
  rcases significand_ofDecimal (d := x.shortest .toEven) hdigits with hs | ⟨n, hn, hvalue, hs⟩
  · rw [hs]
    exact magnitude?_shortest hfin h
  · have hround := Single.shortest_roundsTo .toEven h
    obtain ⟨hlow, -⟩ := Single.shortest_bounds hfin .toEven h
    rw [hvalue] at hround hlow
    have hn0 : n ≠ 0 := by
      rintro rfl
      exact absurd hlow (not_lt_of_ge (by positivity))
    rw [hs]
    exact magnitude?_of_whole hn0 hn (Single.magnitude_pos h) (Single.magnitude_lt hfin).le hround

/-- **The number of a finite single is read as the single, bit for bit.** -/
theorem toSingle?_ofSingle (hfin : x.isFinite = true) : (ofSingle x).toSingle? = some x := by
  have hread : magnitude? (ofDecimal false (x.shortest .toEven)).significand.1
      (ofDecimal false (x.shortest .toEven)).significand.2 = some x.magnitude := by
    by_cases h : x.units = 0
    · rw [Single.shortest, if_pos h, Single.magnitude_eq_zero h]
      decide +kernel
    · exact magnitude?_significand hfin h
  rw [ofSingle_eq, toSingle?_ofDecimal, hread, Option.map_some, x.ofMagnitude_magnitude]

end Json.Number

end Datum
