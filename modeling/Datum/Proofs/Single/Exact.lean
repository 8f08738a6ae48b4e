import Datum.Proofs.Single.Accuracy
import Mathlib.NumberTheory.Padics.PadicVal.Basic

/-!
# Integers that a format has exactly

A natural number is exact in a binary format if its odd part fits the significand
(`isExact_iff_oddPart`).  Every single is a double (`units_convert_double`), and so is every integer
below 2^53.  So an integer and its nearest single are the same number if and only if they are the
same in double precision (`convert_ofNat_eq_iff`).
-/

namespace Datum

-- the power of the core library, also where algebra has one of its own
attribute [local instance (high)] instPowNat

namespace BinaryFormat

variable (f : BinaryFormat)

/-! ### Odd parts -/

theorem isExact_of_units {code n : Nat} (hc : code < f.infinity)
    (h : f.units code = f.scale * n) : f.IsExact n := by
  have hn : f.InRange n := by
    rw [InRange, ← h]
    exact f.units_strictMono hc
  exact (f.isExact_iff hn).mpr ⟨code, hc, h⟩

theorem isExact_of_lt {m k n : Nat} (hm : m < 2 * 2 ^ f.fractionBits) (h : n = m * 2 ^ k)
    (hn : f.InRange n) : f.IsExact n := by
  obtain ⟨code, hcode, -⟩ := f.exists_code hm (k + f.unitExponent)
  have hu : f.units code = f.scale * n := by
    rw [hcode, h, scale, Nat.pow_add]
    ring
  refine f.isExact_of_units ?_ hu
  rw [← f.units_strictMono.lt_iff_lt, hu]
  exact hn

/-- The odd part of a number that is exact divides its significand. -/
theorem lt_of_isExact {m k n : Nat} (hodd : m % 2 = 1) (h : n = m * 2 ^ k) (he : f.IsExact n) :
    m < 2 * 2 ^ f.fractionBits := by
  have hu : f.significand (f.ofNat n) * 2 ^ f.octave (f.ofNat n) =
      m * 2 ^ (k + f.unitExponent) := by
    rw [Nat.pow_add, ← Nat.mul_assoc, ← h, Nat.mul_comm n]
    exact he
  have hpos : 0 < f.significand (f.ofNat n) := by
    by_contra h0
    rw [Nat.eq_zero_of_not_pos h0, Nat.zero_mul] at hu
    have := Nat.mul_pos (show 0 < m by omega) (Nat.two_pow_pos (k + f.unitExponent))
    omega
  have hcop : Nat.Coprime m (2 ^ f.octave (f.ofNat n)) :=
    Nat.Coprime.pow_right _ (Nat.coprime_two_right.mpr (Nat.odd_iff.mpr hodd))
  have hdvd : m ∣ f.significand (f.ofNat n) * 2 ^ f.octave (f.ofNat n) :=
    ⟨2 ^ (k + f.unitExponent), hu⟩
  exact Nat.lt_of_le_of_lt (Nat.le_of_dvd hpos (hcop.dvd_of_dvd_mul_right hdvd))
    (f.significand_lt _)

/-- **An integer is exact if and only if its odd part fits the significand.** -/
theorem isExact_iff_oddPart {n : Nat} (h0 : n ≠ 0) (hn : f.InRange n) :
    f.IsExact n ↔ n / 2 ^ padicValNat 2 n < 2 * 2 ^ f.fractionBits := by
  have hn' : n = n / 2 ^ padicValNat 2 n * 2 ^ padicValNat 2 n :=
    (Nat.div_mul_cancel pow_padicValNat_dvd).symm
  have hodd : n / 2 ^ padicValNat 2 n % 2 = 1 := by
    by_contra heven
    have hdvd := Nat.mul_dvd_mul_right
      (Nat.dvd_of_mod_eq_zero (show n / 2 ^ padicValNat 2 n % 2 = 0 by omega))
      (2 ^ padicValNat 2 n)
    rw [← hn', ← Nat.pow_succ'] at hdvd
    exact pow_succ_padicValNat_not_dvd h0 hdvd
  exact ⟨f.lt_of_isExact hodd hn', fun hlt => f.isExact_of_lt hlt hn' hn⟩

/-- From the octave of the integers on, every number is one. -/
theorem units_eq_or_lt (code : Nat) :
    (∃ n, f.units code = f.scale * n) ∨ f.units code < 2 ^ f.fractionBits * f.scale := by
  rw [scale]
  rcases Nat.lt_or_ge (f.octave code) f.unitExponent with hk | hk
  · right
    calc f.units code
        < 2 * 2 ^ f.fractionBits * 2 ^ f.octave code :=
          Nat.mul_lt_mul_of_pos_right (f.significand_lt code) (Nat.two_pow_pos _)
      _ = 2 ^ f.fractionBits * 2 ^ (f.octave code + 1) := by
          rw [Nat.pow_succ]
          ring
      _ ≤ 2 ^ f.fractionBits * 2 ^ f.unitExponent :=
          Nat.mul_le_mul_left _ (Nat.pow_le_pow_right Nat.two_pos hk)
  · obtain ⟨k, hk⟩ := Nat.exists_eq_add_of_le hk
    exact .inl ⟨f.significand code * 2 ^ k, by rw [units, hk, Nat.pow_add, Nat.mul_left_comm]⟩

/-! ### Singles as doubles -/

@[simp] theorem nearest_zero (den : Nat) : f.nearest 0 den = 0 := by
  simp [nearest, octaveOfUnits, roundHalfEven]

/-- **Every single is a double.** -/
theorem units_convert_double {code : Nat} (h : code < single.infinity) :
    double.units (single.convert double code) * single.scale = double.scale * single.units code := by
  by_cases h0 : code = 0
  · rw [h0, convert, units_zero, Nat.mul_zero, nearest_zero, units_zero, Nat.zero_mul]
  have hoct : single.octave code ≤ 253 := by
    have : code < 0x7f800000 := h
    show code / 2 ^ 23 - 1 ≤ 253
    omega
  have hm : single.significand code < 2 * 2 ^ double.fractionBits :=
    Nat.lt_trans (single.significand_lt code) (by decide)
  obtain ⟨shift, hshift, hexp⟩ :
      ∃ shift ≤ 925, double.unitExponent = shift + single.unitExponent :=
    ⟨925, Nat.le_refl _, rfl⟩
  obtain ⟨wide, hwide, hle⟩ := double.exists_code hm (single.octave code + shift)
  have hu : double.scale * single.units code = double.units wide * single.scale := by
    rw [hwide, scale, scale, hexp, units, Nat.pow_add, Nat.pow_add]
    ring
  have hscale : 0 < single.scale := Nat.two_pow_pos _
  have hpos : 0 < wide := by
    rw [← double.units_pos_iff, ← Nat.mul_pos_iff_of_pos_right hscale, ← hu]
    exact Nat.mul_pos (Nat.two_pow_pos _) (single.units_pos_iff.mpr (Nat.pos_of_ne_zero h0))
  have hinf : wide ≤ double.infinity := by
    refine Nat.le_trans hle (Nat.le_trans (Nat.mul_le_mul_left _ ?_)
      (show 2 ^ double.fractionBits * 1180 ≤ double.infinity by decide))
    omega
  rw [hu, convert, double.nearest_exact (by decide) hscale hpos hinf hu]

theorem isExact_double {n : Nat} (hn : n < 2 ^ 53) : double.IsExact n := by
  obtain ⟨code, hcode, hle⟩ := double.exists_code (m := n) hn double.unitExponent
  refine double.isExact_of_units (Nat.lt_of_le_of_lt hle (by decide)) ?_
  rw [hcode, Nat.mul_comm, scale]

/-- **In double precision an integer is its nearest single only if that single is exact.** -/
theorem convert_ofNat_eq_iff {n : Nat} (hn : n < 2 ^ 53) :
    single.convert double (single.ofNat n) = double.ofNat n ↔ single.IsExact n := by
  have hfin : single.ofNat n < single.infinity := by
    refine single.nearest_lt_infinity (k := 180) Nat.one_pos ?_ (by decide)
    show 2 ^ 149 * n < 2 ^ 23 * 2 ^ 180 * 1
    omega
  have hs := units_convert_double hfin
  have hd : double.units (double.ofNat n) = double.scale * n := isExact_double hn
  have hpos : 0 < double.scale := Nat.two_pow_pos _
  rw [← double.units_strictMono.injective.eq_iff, hd, IsExact]
  constructor
  · intro h
    rw [h, Nat.mul_assoc] at hs
    rw [← Nat.eq_of_mul_eq_mul_left hpos hs, Nat.mul_comm]
  · intro h
    rw [h, Nat.mul_left_comm, Nat.mul_comm _ single.scale] at hs
    exact Nat.eq_of_mul_eq_mul_left (show 0 < single.scale from Nat.two_pow_pos _) hs

end BinaryFormat

end Datum
