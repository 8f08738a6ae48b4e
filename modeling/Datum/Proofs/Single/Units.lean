import Datum.Binary
import Mathlib.Order.Monotone.Basic

/-!
# The magnitudes of a binary format

An encoding is read as a significand and a number of doublings, `octave`.  `units_encode` says that
every pair of the two that is in normal form belongs to the encoding `2 ^ fractionBits * k + m`, and
`units_succ` that the next encoding is one spacing further, so that `units` is strictly increasing
(`units_strictMono`).

Rounding a magnitude of the format gives its own encoding (`nearest_units`).  So a natural number
below the first infinite magnitude is exact in the format if and only if some finite encoding has
it as its magnitude (`isExact_iff`): the test on the nearest encoding misses none.
-/

namespace Datum

-- the power of the core library, also where algebra has one of its own
attribute [local instance (high)] instPowNat

theorem roundHalfEven_mul_self {den : Nat} (h : 0 < den) (n : Nat) :
    roundHalfEven (n * den) den = n := by
  have hr : n * den % den = 0 := Nat.mul_mod_left n den
  have hq : n * den / den = n := Nat.mul_div_cancel n h
  simp only [roundHalfEven, hr, hq]
  rw [if_pos (by omega)]

namespace BinaryFormat

variable (f : BinaryFormat)

theorem two_pow_fractionBits_pos : 0 < 2 ^ f.fractionBits := Nat.two_pow_pos _

/-! ### Significand and octave -/

theorem significand_eq (code : Nat) :
    f.significand code =
      code % 2 ^ f.fractionBits +
        if code / 2 ^ f.fractionBits = 0 then 0 else 2 ^ f.fractionBits := by
  have hc := Nat.div_add_mod code (2 ^ f.fractionBits)
  rw [significand, octave]
  cases hq : code / 2 ^ f.fractionBits with
  | zero =>
    rw [hq] at hc
    simp at hc ⊢
    exact hc.symm
  | succ q =>
    rw [hq, Nat.mul_succ] at hc
    rw [if_neg (by omega), Nat.add_sub_cancel]
    omega

theorem significand_lt (code : Nat) : f.significand code < 2 * 2 ^ f.fractionBits := by
  have hr := Nat.mod_lt code f.two_pow_fractionBits_pos
  rw [significand_eq]
  split <;> omega

theorem octave_eq_zero_or (code : Nat) :
    f.octave code = 0 ∨ 2 ^ f.fractionBits ≤ f.significand code := by
  rw [significand_eq, octave]
  split <;> omega

theorem octave_add_significand (code : Nat) :
    2 ^ f.fractionBits * f.octave code + f.significand code = code := by
  have h : 2 ^ f.fractionBits * f.octave code ≤ code := by
    calc 2 ^ f.fractionBits * f.octave code
        ≤ 2 ^ f.fractionBits * (code / 2 ^ f.fractionBits) :=
          Nat.mul_le_mul_left _ (Nat.sub_le _ 1)
      _ ≤ code := Nat.mul_div_le code _
  rw [significand]
  omega

theorem octave_encode {m k : Nat} (hm : m < 2 * 2 ^ f.fractionBits)
    (hk : k = 0 ∨ 2 ^ f.fractionBits ≤ m) : f.octave (2 ^ f.fractionBits * k + m) = k := by
  have hp := f.two_pow_fractionBits_pos
  rw [octave, Nat.mul_add_div hp]
  rcases Nat.lt_or_ge m (2 ^ f.fractionBits) with h | h
  · rw [Nat.div_eq_of_lt h]
    omega
  · have h1 : m / 2 ^ f.fractionBits = 1 := by
      rw [Nat.div_eq_iff hp]
      omega
    omega

/-- The magnitude of the encoding that is made from a significand and a number of doublings.  The
significand may be one too large, which is the least of the next octave. -/
theorem units_encode {m k : Nat} (hm : m ≤ 2 * 2 ^ f.fractionBits)
    (hk : k = 0 ∨ 2 ^ f.fractionBits ≤ m) : f.units (2 ^ f.fractionBits * k + m) = m * 2 ^ k := by
  have hp := f.two_pow_fractionBits_pos
  rcases Nat.lt_or_eq_of_le hm with h | h
  · rw [units, significand, octave_encode f h hk, Nat.add_sub_cancel_left]
  · have hc : 2 ^ f.fractionBits * k + m = 2 ^ f.fractionBits * (k + 1) + 2 ^ f.fractionBits := by
      rw [Nat.mul_succ]
      omega
    rw [hc, units, significand, octave_encode f (by omega) (.inr (Nat.le_refl _)),
      Nat.add_sub_cancel_left, h, Nat.pow_succ']
    exact (Nat.mul_left_comm _ _ _).trans (Nat.mul_assoc _ _ _).symm

@[simp] theorem units_zero : f.units 0 = 0 := by
  simp [units, significand]

theorem units_succ (code : Nat) : f.units (code + 1) = f.units code + 2 ^ f.octave code := by
  have hm := f.significand_lt code
  have hk := f.octave_eq_zero_or code
  have hc : code + 1 = 2 ^ f.fractionBits * f.octave code + (f.significand code + 1) := by
    rw [← Nat.add_assoc, octave_add_significand]
  rw [hc, units_encode f (by omega) (by omega), Nat.succ_mul, units]

/-- **Larger encodings have larger magnitudes.** -/
theorem units_strictMono : StrictMono f.units := by
  apply strictMono_nat_of_lt_succ
  intro code
  rw [units_succ]
  exact Nat.lt_add_of_pos_right (Nat.two_pow_pos _)

theorem units_pos_iff {code : Nat} : 0 < f.units code ↔ 0 < code := by
  conv_lhs => rw [← f.units_zero]
  exact f.units_strictMono.lt_iff_lt

/-! ### Rounding a magnitude of the format -/

theorem octaveOfUnits_units (code : Nat) : f.octaveOfUnits (f.units code) = f.octave code := by
  have hm := f.significand_lt code
  rw [octaveOfUnits, units]
  rcases f.octave_eq_zero_or code with hk | hk
  · rw [hk, Nat.pow_zero, Nat.mul_one]
    by_cases h0 : f.significand code = 0
    · rw [h0, Nat.log2_zero, Nat.zero_sub]
    · have hlog : (f.significand code).log2 < f.fractionBits + 1 := by
        rw [Nat.log2_lt h0, Nat.pow_succ']
        exact hm
      omega
  · have hp := f.two_pow_fractionBits_pos
    have h0 : f.significand code * 2 ^ f.octave code ≠ 0 :=
      Nat.mul_ne_zero (by omega) (Nat.two_pow_pos _).ne'
    have hlog : (f.significand code * 2 ^ f.octave code).log2 = f.fractionBits + f.octave code := by
      rw [Nat.log2_eq_iff h0, Nat.pow_add, Nat.add_right_comm, Nat.pow_add, Nat.pow_succ']
      exact ⟨Nat.mul_le_mul_right _ hk, Nat.mul_lt_mul_of_pos_right hm (Nat.two_pow_pos _)⟩
    rw [hlog, Nat.add_sub_cancel_left]

/-- **Every encoding is the nearest one to its own magnitude.** -/
theorem nearest_units {code : Nat} (h : code ≤ f.infinity) : f.nearest (f.units code) 1 = code := by
  simp only [nearest, Nat.div_one, octaveOfUnits_units, Nat.one_mul]
  rw [units, roundHalfEven_mul_self (Nat.two_pow_pos _), octave_add_significand]
  exact Nat.min_eq_left h

/-- Whether a natural number has an encoding of exactly its value. -/
def IsExact (n : Nat) : Prop :=
  f.units (f.ofNat n) = f.scale * n

instance (n : Nat) : Decidable (f.IsExact n) :=
  inferInstanceAs (Decidable (_ = _))

def InRange (n : Nat) : Prop :=
  f.scale * n < f.units f.infinity

/-- **A natural number is exact if and only if a finite encoding has it as its magnitude.** -/
theorem isExact_iff {n : Nat} (hn : f.InRange n) :
    f.IsExact n ↔ ∃ code < f.infinity, f.units code = f.scale * n := by
  constructor
  · intro h
    refine ⟨f.ofNat n, ?_, h⟩
    rw [← f.units_strictMono.lt_iff_lt, h]
    exact hn
  · rintro ⟨code, hc, h⟩
    have ho : f.ofNat n = code := by
      rw [ofNat, ← h]
      exact f.nearest_units (Nat.le_of_lt hc)
    rw [IsExact, ho]
    exact h

end BinaryFormat

end Datum
