import Datum.Proofs.Single.NearestEven
import Datum.Single.Literal
import Mathlib.Algebra.Order.Field.Power

/-!
# The values of numerals

A numeral is taken exactly if its first digit is not far beyond the range of singles
(`unitFraction_of_near`).  The numbers that stand in for the others are beyond the range as well, on the
same side, so every numeral is rounded as its value is (`nearest_unitFraction`).
-/

namespace Datum.Single

-- the power of the core library, also where algebra has one of its own
attribute [local instance (high)] instPowNat

open BinaryFormat (single)

namespace Numeral

def value (n : Numeral) : ℚ :=
  n.digits * 10 ^ n.scale

theorem value_nonneg (n : Numeral) : 0 ≤ n.value := by
  unfold value
  positivity

theorem value_of_whole (whole : List Char) (e : ℤ) :
    value ⟨whole, [], e⟩ = Nat.ofDigitChars 10 whole 0 * 10 ^ e := by
  simp [value, digits, scale]

theorem value_bounds {n : Numeral} (h : n.digits ≠ 0) :
    (10 : ℚ) ^ (n.scale + (Nat.toDigits 10 n.digits).length - 1) ≤ n.value ∧
      n.value < 10 ^ (n.scale + (Nat.toDigits 10 n.digits).length) := by
  have hdigits {k : Nat} := Nat.length_toDigits_le_iff (n := n.digits) (k := k)
    (show 1 < 10 by decide)
  have hpos := Nat.length_toDigits_pos (b := 10) (n := n.digits)
  generalize (Nat.toDigits 10 n.digits).length = length at *
  have hten : (0 : ℚ) < 10 ^ n.scale := by positivity
  constructor
  · have hle : 10 ^ (length - 1) ≤ n.digits := by
      rcases Nat.eq_zero_or_pos (length - 1) with h0 | h0
      · rw [h0]
        exact Nat.pos_of_ne_zero h
      · rw [← Nat.not_lt, ← hdigits h0]
        omega
    have hexp : n.scale + (length : ℤ) - 1 = ((length - 1 : ℕ) : ℤ) + n.scale := by omega
    rw [hexp, zpow_add₀ (by norm_num), zpow_natCast, value]
    exact mul_le_mul_of_nonneg_right (by exact_mod_cast hle) hten.le
  · have hlt : n.digits < 10 ^ length := (hdigits hpos).mp (Nat.le_refl _)
    rw [add_comm, zpow_add₀ (by norm_num), zpow_natCast, value]
    exact mul_lt_mul_of_pos_right (by exact_mod_cast hlt) hten

/-- A numeral whose first digit is not far beyond the range of singles is taken exactly. -/
theorem unitFraction_of_near {n : Numeral} (h0 : n.digits ≠ 0)
    (hlow : -(farPower : ℤ) ≤ n.scale + (Nat.toDigits 10 n.digits).length)
    (hhigh : n.scale + (Nat.toDigits 10 n.digits).length ≤ farPower) :
    0 < n.unitFraction.2 ∧
      (n.unitFraction.1 : ℚ) / n.unitFraction.2 = n.value * single.scale := by
  rw [unitFraction, if_neg (not_or.mpr ⟨h0, not_lt.mpr hlow⟩), if_neg (not_lt.mpr hhigh), value]
  cases n.scale with
  | ofNat e =>
    refine ⟨Nat.one_pos, ?_⟩
    simp
  | negSucc e =>
    refine ⟨Nat.pow_pos (by decide), ?_⟩
    rw [zpow_negSucc]
    push_cast
    ring

/-- Zero, and what is far below the least magnitude. -/
theorem value_lt_of_low {n : Numeral}
    (h : n.digits = 0 ∨ n.scale + (Nat.toDigits 10 n.digits).length < -(farPower : ℤ)) :
    n.value < 10 ^ (-60 : ℤ) := by
  by_cases h0 : n.digits = 0
  · rw [value, h0, Nat.cast_zero, zero_mul]
    positivity
  · refine lt_of_lt_of_le (value_bounds h0).2 (zpow_le_zpow_right₀ (by norm_num) ?_)
    exact (h.resolve_left h0).le

theorem le_value_of_high {n : Numeral} (h0 : n.digits ≠ 0)
    (h : (farPower : ℤ) < n.scale + (Nat.toDigits 10 n.digits).length) :
    10 ^ (60 : ℤ) ≤ n.value :=
  le_trans (zpow_le_zpow_right₀ (by norm_num) (Int.le_sub_one_of_lt h)) (value_bounds h0).1

/-- **A numeral is rounded as its value is**, also where another number stands in for it. -/
theorem nearest_unitFraction {n : Numeral} {code : Nat}
    (h : single.RoundsTo code (n.value * single.scale)) :
    single.nearest n.unitFraction.1 n.unitFraction.2 = min code single.infinity := by
  by_cases hlow : n.digits = 0 ∨ n.scale + (Nat.toDigits 10 n.digits).length < -(farPower : ℤ)
  · -- less than half a unit
    have hvalue := value_lt_of_low hlow
    have hlower := h.lower
    rw [cast_scale] at hlower
    have hsum : ((single.units (code - 1) + single.units code : ℕ) : ℚ) < 1 :=
      calc ((single.units (code - 1) + single.units code : ℕ) : ℚ)
          ≤ 2 * (n.value * 2 ^ 149) := hlower
        _ < 2 * (10 ^ (-60 : ℤ) * 2 ^ 149) := by gcongr
        _ < 1 := by norm_num
    have hsum : single.units (code - 1) + single.units code < 1 := by exact_mod_cast hsum
    obtain rfl : code = 0 := by
      refine Nat.eq_zero_of_not_pos fun hpos => ?_
      have := single.units_pos_iff.mpr hpos
      omega
    rw [unitFraction, if_pos hlow, Nat.zero_min]
    exact single.nearest_eq_zero Nat.one_pos (by decide)
  have hne : n.digits ≠ 0 := fun h0 => hlow (.inl h0)
  by_cases hhigh : (farPower : ℤ) < n.scale + (Nat.toDigits 10 n.digits).length
  · -- the value and its stand-in are both beyond the greatest magnitude
    have hinf {code : Nat} {q : ℚ} (h : single.RoundsTo code (q * single.scale))
        (hq : 10 ^ (60 : ℤ) ≤ q) : single.infinity ≤ code := by
      rw [← not_lt, lt_infinity_iff h, not_lt]
      exact le_trans (by norm_num) hq
    obtain ⟨code', h'⟩ := single.exists_roundsTo (q := 10 ^ (60 : ℤ) * single.scale) (by positivity)
    have hcast : ((10 ^ farPower * single.scale : ℕ) : ℚ) / (1 : ℕ) =
        10 ^ (60 : ℤ) * single.scale := by
      push_cast
      rw [div_one]
      rfl
    rw [unitFraction, if_neg hlow, if_pos hhigh, Nat.min_eq_right (hinf h (le_value_of_high hne hhigh)),
      single.nearest_of_roundsTo (by decide) Nat.one_pos (hcast ▸ h'),
      Nat.min_eq_right (hinf h' le_rfl)]
  · have hlow : -(farPower : ℤ) ≤ n.scale + (Nat.toDigits 10 n.digits).length :=
      not_lt.mp fun h => hlow (.inr h)
    obtain ⟨hden, hfraction⟩ := unitFraction_of_near hne hlow (not_lt.mp hhigh)
    rw [← hfraction] at h
    exact single.nearest_of_roundsTo (by decide) hden h

end Numeral

/-- **A numeral denotes the single that is nearest to its value**, or an infinity if that is half a
spacing above the greatest finite single or beyond. -/
theorem denote_number (negative : Bool) (n : Numeral) :
    (2 ^ 128 - 2 ^ 103 ≤ n.value → denote negative (.number n) = infinity negative) ∧
    (n.value < 2 ^ 128 - 2 ^ 103 →
      (denote negative (.number n)).isNegative = negative ∧
      (denote negative (.number n)).IsNearestEven (Text.signed negative n.value)) := by
  obtain ⟨code, h⟩ := single.exists_roundsTo (q := n.value * single.scale)
    (mul_nonneg n.value_nonneg (Nat.cast_nonneg _))
  have hdenote : denote negative (.number n) = ofMagnitude negative (min code single.infinity) := by
    rw [← Numeral.nearest_unitFraction h]
    rfl
  rw [hdenote]
  exact ofMagnitude_of_roundsTo negative n.value_nonneg h

end Datum.Single
