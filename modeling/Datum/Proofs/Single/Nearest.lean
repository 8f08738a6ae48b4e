import Datum.Proofs.Single.Units
import Mathlib.Algebra.Order.Field.Basic
import Mathlib.Algebra.Order.Field.Rat
import Mathlib.Tactic.FieldSimp
import Mathlib.Tactic.Linarith
import Mathlib.Tactic.Positivity
import Mathlib.Tactic.Ring

/-!
# The interval of an encoding

The numbers that are nearest to an encoding lie between the midpoints to its neighbours; the midpoints
are among them if the encoding is even (`RoundsTo`).  `nearest_eq` says that rounding finds the
encoding from any number of its interval.
-/

namespace Datum

-- the power of the core library, also where algebra has one of its own
attribute [local instance (high)] instPowNat

/-- A quotient that is nearest to `m`, where a half goes to the even neighbour, is rounded to `m`. -/
theorem roundHalfEven_eq {num den m : Nat} (hden : 0 < den) (hlower : 2 * m * den ≤ 2 * num + den)
    (hupper : 2 * num ≤ 2 * m * den + den)
    (hodd : m % 2 = 1 → 2 * m * den < 2 * num + den ∧ 2 * num < 2 * m * den + den) :
    roundHalfEven num den = m := by
  have hnum := Nat.div_add_mod num den
  have hr := Nat.mod_lt num hden
  unfold roundHalfEven
  generalize num / den = q at hnum
  generalize num % den = r at hnum hr
  subst hnum
  have hle : q ≤ m := by
    by_contra hlt
    have := Nat.mul_le_mul_right den (show m + 1 ≤ q by omega)
    rw [Nat.add_mul, Nat.one_mul, Nat.mul_comm q] at this
    rw [Nat.mul_assoc] at hupper
    omega
  have hge : m ≤ q + 1 := by
    by_contra hlt
    have := Nat.mul_le_mul_right den (show q + 2 ≤ m by omega)
    rw [Nat.add_mul, Nat.mul_comm q] at this
    rw [Nat.mul_assoc] at hlower
    omega
  rcases Nat.lt_or_ge q m with hlt | hge'
  · obtain rfl : m = q + 1 := by omega
    have hm : 2 * (q + 1) * den = 2 * (den * q) + 2 * den := by ring
    rw [hm] at hlower hupper hodd
    simp only
    split_ifs <;> omega
  · obtain rfl : m = q := by omega
    have hm : 2 * m * den = 2 * (den * m) := by ring
    rw [hm] at hlower hupper hodd
    simp only
    split_ifs <;> omega

namespace BinaryFormat

variable (f : BinaryFormat)

/-! ### The interval -/

/-- The interval of the numbers that are nearest to an encoding: between the midpoints to its two
neighbours.  The ends belong to it if the encoding is even. -/
structure RoundsTo (code : Nat) (q : ℚ) : Prop where
  lower : ((f.units (code - 1) + f.units code : ℕ) : ℚ) ≤ 2 * q
  upper : 2 * q ≤ ((f.units code + f.units (code + 1) : ℕ) : ℚ)
  inside_of_odd : code % 2 = 1 → ((f.units (code - 1) + f.units code : ℕ) : ℚ) < 2 * q ∧
    2 * q < ((f.units code + f.units (code + 1) : ℕ) : ℚ)

theorem octaveOfUnits_eq {n k : Nat} (hlt : n < 2 * 2 ^ f.fractionBits * 2 ^ k)
    (hge : k = 0 ∨ 2 ^ f.fractionBits * 2 ^ k ≤ n) : f.octaveOfUnits n = k := by
  have hp := f.two_pow_fractionBits_pos
  rw [octaveOfUnits]
  by_cases hn : n = 0
  · rcases hge with hk | hk
    · rw [hn, hk, Nat.log2_zero, Nat.zero_sub]
    · have := Nat.mul_pos hp (Nat.two_pow_pos k)
      omega
  have hhigh : n.log2 < f.fractionBits + k + 1 := by
    rw [Nat.log2_lt hn, Nat.pow_succ', Nat.pow_add, ← Nat.mul_assoc]
    exact hlt
  rcases hge with rfl | hge
  · omega
  · have hlow : f.fractionBits + k ≤ n.log2 := by
      rw [Nat.le_log2 hn, Nat.pow_add]
      exact hge
    omega

theorem octave_mono {code code' : Nat} (h : code ≤ code') : f.octave code ≤ f.octave code' :=
  Nat.sub_le_sub_right (Nat.div_le_div_right h) 1

/-- The encoding before one that is not the least of its octave lies in the same octave. -/
theorem octave_pred {code : Nat} (h : 2 ^ f.fractionBits < f.significand code ∨ f.octave code = 0) :
    f.octave (code - 1) = f.octave code := by
  have hm := f.significand_lt code
  have hc := f.octave_add_significand code
  by_cases h0 : f.significand code = 0
  · have hk : f.octave code = 0 := by omega
    rw [hk, h0] at hc
    rw [← hc]
    simp
  · have hcode : code - 1 = 2 ^ f.fractionBits * f.octave code + (f.significand code - 1) := by
      omega
    rw [hcode, f.octave_encode (by omega) (by omega)]

theorem octave_pred_of_least {code : Nat} (h : f.significand code = 2 ^ f.fractionBits)
    (hk : f.octave code ≠ 0) : f.octave (code - 1) = f.octave code - 1 := by
  have hp := f.two_pow_fractionBits_pos
  have hc := f.octave_add_significand code
  obtain ⟨k, hk⟩ := Nat.exists_eq_succ_of_ne_zero hk
  have hcode : code - 1 = 2 ^ f.fractionBits * k + (2 * 2 ^ f.fractionBits - 1) := by
    rw [hk, Nat.mul_succ, h] at hc
    omega
  rw [hcode, f.octave_encode (by omega) (by omega), hk, Nat.succ_sub_one]

theorem units_pred {code : Nat} (h : 0 < code) :
    f.units code = f.units (code - 1) + 2 ^ f.octave (code - 1) := by
  rw [← f.units_succ, Nat.sub_add_cancel h]

theorem nearest_of_octave {num den k m : Nat} (hden : 0 < den)
    (hlt : num < 2 * 2 ^ f.fractionBits * 2 ^ k * den)
    (hge : k = 0 ∨ 2 ^ f.fractionBits * 2 ^ k * den ≤ num)
    (hm : roundHalfEven num (den * 2 ^ k) = m) (hinf : 2 ^ f.fractionBits * k + m ≤ f.infinity) :
    f.nearest num den = 2 ^ f.fractionBits * k + m := by
  have hoct : f.octaveOfUnits (num / den) = k := by
    refine f.octaveOfUnits_eq ((Nat.div_lt_iff_lt_mul hden).mpr hlt) ?_
    exact hge.imp_right (Nat.le_div_iff_mul_le hden).mpr
  simp only [nearest, hoct, hm]
  exact Nat.min_eq_left hinf

theorem nearest_eq_within {code num den : Nat} (hbits : f.fractionBits ≠ 0) (hden : 0 < den)
    (hpos : 0 < code) (hinf : code ≤ f.infinity)
    (hlower : (f.units (code - 1) + f.units code) * den ≤ 2 * num)
    (hupper : 2 * num ≤ (f.units code + f.units (code + 1)) * den)
    (hodd : code % 2 = 1 → (f.units (code - 1) + f.units code) * den < 2 * num ∧
      2 * num < (f.units code + f.units (code + 1)) * den)
    (hge : f.octave code = 0 ∨ 2 ^ f.fractionBits * 2 ^ f.octave code * den ≤ num) :
    f.nearest num den = code := by
  have hcode := f.octave_add_significand code
  have hlt := f.significand_lt code
  have hpred := f.octave_mono (Nat.sub_le code 1)
  have hstep : f.units code ≤ f.units (code - 1) + 2 ^ f.octave code := by
    rw [f.units_pred hpos]
    exact Nat.add_le_add_left (Nat.pow_le_pow_right Nat.two_pos hpred) _
  have hparity : code % 2 = f.significand code % 2 := by
    obtain ⟨b, hb⟩ := Nat.exists_eq_succ_of_ne_zero hbits
    have hmul : 2 ^ f.fractionBits * f.octave code = 2 * (2 ^ b * f.octave code) := by
      rw [hb, Nat.pow_succ', Nat.mul_assoc]
    omega
  rw [units_succ] at hupper hodd
  rw [hparity] at hodd
  -- all magnitudes in spacings of the octave
  have hunits : f.units code * den = f.significand code * (den * 2 ^ f.octave code) := by
    rw [units, Nat.mul_assoc, Nat.mul_comm den]
  have hspace : 0 < den * 2 ^ f.octave code := Nat.mul_pos hden (Nat.two_pow_pos _)
  have hstep' := Nat.mul_le_mul_right den hstep
  have hfull : 2 * 2 ^ f.fractionBits * 2 ^ f.octave code * den =
      2 * 2 ^ f.fractionBits * (den * 2 ^ f.octave code) := by
    rw [Nat.mul_assoc _ _ den, Nat.mul_comm den]
  have hmul := Nat.mul_le_mul_right (den * 2 ^ f.octave code) (Nat.succ_le_of_lt hlt)
  rw [Nat.succ_mul] at hmul
  simp only [Nat.add_mul, hunits, Nat.mul_comm (2 ^ f.octave code) den] at hlower hupper hodd hstep'
  have hnearest : f.nearest num den =
      2 ^ f.fractionBits * f.octave code + f.significand code := by
    refine f.nearest_of_octave hden ?_ hge (roundHalfEven_eq hspace ?_ ?_ ?_) (by omega)
    · omega
    · rw [Nat.mul_assoc]
      omega
    · rw [Nat.mul_assoc]
      omega
    · rw [Nat.mul_assoc]
      omega
  rw [hnearest, hcode]

/-- Below the least encoding of an octave the octave before is rounded to, whose encodings are
nearer to each other. -/
theorem nearest_eq_below {code num den : Nat} (hden : 0 < den) (hinf : code ≤ f.infinity)
    (hlower : (f.units (code - 1) + f.units code) * den ≤ 2 * num) (hk : f.octave code ≠ 0)
    (hlt : num < 2 ^ f.fractionBits * 2 ^ f.octave code * den) : f.nearest num den = code := by
  have hcode := f.octave_add_significand code
  have hp := f.two_pow_fractionBits_pos
  have hnormal := (f.octave_eq_zero_or code).resolve_left hk
  have hpos : 0 < code := by omega
  have hpred := f.units_pred hpos
  have hleast : f.significand code = 2 ^ f.fractionBits := by
    by_contra hne
    rw [f.octave_pred (.inl (by omega))] at hpred
    have hge : f.units code ≥ (2 ^ f.fractionBits + 1) * 2 ^ f.octave code :=
      Nat.mul_le_mul_right _ (by omega)
    rw [Nat.add_mul, Nat.one_mul] at hge
    have hspacing : 0 < 2 ^ f.octave code := Nat.two_pow_pos _
    have hsum : 2 * (2 ^ f.fractionBits * 2 ^ f.octave code) ≤ f.units (code - 1) + f.units code := by
      omega
    have := Nat.mul_le_mul_right den hsum
    rw [Nat.mul_assoc] at this
    omega
  rw [f.octave_pred_of_least hleast hk] at hpred
  obtain ⟨k, hk⟩ := Nat.exists_eq_succ_of_ne_zero hk
  have hunits : f.units code = 2 * 2 ^ f.fractionBits * 2 ^ k := by
    rw [units, hleast, hk, Nat.pow_succ']
    ring
  rw [hk, Nat.succ_sub_one] at hpred
  have hfull : 2 ^ f.fractionBits * 2 ^ f.octave code * den =
      2 * 2 ^ f.fractionBits * (den * 2 ^ k) := by
    rw [hk, Nat.pow_succ']
    ring
  have hsum : f.units (code - 1) + f.units code + 2 ^ k = 2 * (2 * 2 ^ f.fractionBits * 2 ^ k) := by
    omega
  have hsum' := congrArg (· * den) hsum
  have hdouble : 2 * (2 * 2 ^ f.fractionBits * 2 ^ k) * den =
      2 * (2 * 2 ^ f.fractionBits * (den * 2 ^ k)) := by
    ring
  simp only [hdouble, Nat.add_mul _ (2 ^ k), Nat.mul_comm (2 ^ k) den] at hsum'
  have hspace : 0 < den * 2 ^ k := Nat.mul_pos hden (Nat.two_pow_pos _)
  have hone : den * 2 ^ k ≤ 2 ^ f.fractionBits * (den * 2 ^ k) := Nat.le_mul_of_pos_left _ hp
  have hfold : 2 * 2 ^ f.fractionBits * (den * 2 ^ k) =
      2 * (2 ^ f.fractionBits * (den * 2 ^ k)) := Nat.mul_assoc _ _ _
  have hnearest : f.nearest num den = 2 ^ f.fractionBits * k + 2 * 2 ^ f.fractionBits := by
    have hsucc : 2 ^ f.fractionBits * f.octave code =
        2 ^ f.fractionBits * k + 2 ^ f.fractionBits := by rw [hk, Nat.mul_succ]
    refine f.nearest_of_octave hden ?_ (.inr ?_) (roundHalfEven_eq hspace ?_ ?_ ?_) (by omega)
    · rw [Nat.mul_assoc _ _ den, Nat.mul_comm (2 ^ k)]
      omega
    · rw [Nat.mul_assoc _ _ den, Nat.mul_comm (2 ^ k)]
      omega
    · rw [Nat.mul_assoc]
      omega
    · rw [Nat.mul_assoc]
      omega
    · omega
  rw [hnearest, ← hcode, hk, hleast, Nat.mul_succ]
  omega

/-- **A number of the interval of an encoding is rounded to it.** -/
theorem nearest_eq {code num den : Nat} (hbits : f.fractionBits ≠ 0) (hden : 0 < den)
    (hpos : 0 < code) (hinf : code ≤ f.infinity) (h : f.RoundsTo code ((num : ℚ) / den)) :
    f.nearest num den = code := by
  have hq : (0 : ℚ) < den := Nat.cast_pos.mpr hden
  have hlower : (f.units (code - 1) + f.units code) * den ≤ 2 * num := by
    have := h.lower
    rw [← mul_div_assoc, le_div_iff₀ hq] at this
    exact_mod_cast this
  have hupper : 2 * num ≤ (f.units code + f.units (code + 1)) * den := by
    have := h.upper
    rw [← mul_div_assoc, div_le_iff₀ hq] at this
    exact_mod_cast this
  have hodd : code % 2 = 1 → (f.units (code - 1) + f.units code) * den < 2 * num ∧
      2 * num < (f.units code + f.units (code + 1)) * den := by
    intro hc
    obtain ⟨hl, hu⟩ := h.inside_of_odd hc
    rw [← mul_div_assoc, lt_div_iff₀ hq] at hl
    rw [← mul_div_assoc, div_lt_iff₀ hq] at hu
    exact ⟨by exact_mod_cast hl, by exact_mod_cast hu⟩
  by_cases hge : f.octave code = 0 ∨ 2 ^ f.fractionBits * 2 ^ f.octave code * den ≤ num
  · exact f.nearest_eq_within hbits hden hpos hinf hlower hupper hodd hge
  · rw [not_or, Nat.not_le] at hge
    exact f.nearest_eq_below hden hinf hlower hge.1 hge.2

end BinaryFormat

end Datum
