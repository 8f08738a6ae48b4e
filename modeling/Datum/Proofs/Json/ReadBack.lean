import Datum.Proofs.Json.Decimal
import Datum.Proofs.Json.Midpoints
import Datum.Proofs.Json.Scaling
import Mathlib.Tactic.IntervalCases

/-!
# Decimals near a midpoint are read back

Most of the decimals near a midpoint are read as the nearest single all the same, and the others are
not the shortest decimal of a single, so that they are never written.  This is a computation for each
exponent (`exponentReadsBack_eq_true`).
-/

namespace Datum

-- the power of the core library, also where algebra has one of its own
attribute [local instance (high)] instPowNat

/-! ### Rounding by fewer steps -/

theorem log2_eq_add {n s : Nat} (h : 2 ^ s ≤ n) : Nat.log2 n = s + Nat.log2 (n / 2 ^ s) := by
  have hpos : 0 < 2 ^ s := Nat.two_pow_pos s
  have hq : n / 2 ^ s ≠ 0 := Nat.ne_of_gt (Nat.div_pos h hpos)
  have hlow := Nat.log2_self_le hq
  have hhigh := Nat.lt_log2_self (n := n / 2 ^ s)
  rw [Nat.log2_eq_iff (by omega), Nat.pow_add, Nat.add_assoc, Nat.pow_add, Nat.mul_comm,
    Nat.mul_comm (2 ^ s)]
  exact ⟨(Nat.le_div_iff_mul_le hpos).mp hlow, (Nat.div_lt_iff_lt_mul hpos).mp hhigh⟩

/-- The logarithm by halving the number of bits, `2 ^ i` at first. -/
def floorLog : Nat → Nat → Nat
  | 0, n => Nat.log2 n
  | i + 1, n =>
    bif (2 ^ 2 ^ i).ble n then withNat (n / 2 ^ 2 ^ i) fun q => 2 ^ i + floorLog i q
    else floorLog i n

theorem floorLog_eq (i n : Nat) : floorLog i n = Nat.log2 n := by
  induction i generalizing n with
  | zero => rfl
  | succ i ih =>
    simp only [floorLog, withNat_eq, Bool.cond_eq_ite, Nat.ble_eq, ih]
    split_ifs with h
    · exact (log2_eq_add h).symm
    · rfl

namespace BinaryFormat

variable (f : BinaryFormat)

/-- The encoding nearest to `num / den` units, computed step by step. -/
def nearestBy (num den : Nat) : Nat :=
  withNat num fun num => withNat den fun den =>
    withNat (floorLog 12 (num / den) - f.fractionBits) fun k =>
      min (2 ^ f.fractionBits * k + roundHalfEven num (den * 2 ^ k)) f.infinity

theorem nearestBy_eq (num den : Nat) : f.nearestBy num den = f.nearest num den := by
  simp only [nearestBy, withNat_eq, floorLog_eq]
  rfl

end BinaryFormat

namespace Json.Number

/-! ### Their singles -/

open BinaryFormat (double)

def powerUnits (e : Int) : Nat :=
  withNat (double.nearestBy (double.scale * 10 ^ e.natAbs) 1) double.units

/-- The magnitude that a significand and an exponent are read as, computed step by step. -/
def readMagnitude (power significand : Nat) (e : Int) : Nat :=
  withNat (match e with
    | .ofNat _ => double.nearestBy (double.scale * significand * power) double.scale
    | .negSucc _ => double.nearestBy (double.scale * significand * double.scale) power) fun y =>
  withNat (double.units y) fun y =>
    BinaryFormat.single.nearestBy (y * BinaryFormat.single.scale) double.scale

/-- Whether a decimal is read as the nearest single, or is not the shortest decimal of that. -/
def readsBack (power digits : Nat) (e : Int) : Bool :=
  withNat power fun power => withNat digits fun digits =>
    withNat (BinaryFormat.single.nearestBy (digits * 10 ^ e.toNat * BinaryFormat.single.scale)
      (wholePower e)) fun code =>
    withNat (readMagnitude power digits e) fun read =>
      read.beq code || (Single.ofMagnitude false code).shortest .toEven ≠ ⟨digits, e⟩

/-- Whether the decimals with the exponent that are near a midpoint read back, also if they are
written with fewer digits. -/
def exponentReadsBack (e : Int) : Bool :=
  withNat (step e) fun a => withNat (wholePower e) fun p => withNat (powerUnits e) fun power =>
    (octaves a p).all fun s => (nearMidpoints s a p).all fun d => withNat d fun d =>
      readsBack power d e && (!(d % 10).beq 0 || (List.range 10).all fun j =>
        !(d % 10 ^ j).beq 0 || readsBack (powerUnits (e + j)) (d / 10 ^ j) (e + j))

-- every exponent is evaluated by itself, and few enough in one theorem to stay within its limit

theorem exponentReadsBack_tiny {e : Int} (hlow : -54 ≤ e) (hhigh : e ≤ -36) :
    exponentReadsBack e = true := by
  interval_cases e <;> decide +kernel

theorem exponentReadsBack_small {e : Int} (hlow : -35 ≤ e) (hhigh : e ≤ -24) :
    exponentReadsBack e = true := by
  interval_cases e <;> decide +kernel

theorem exponentReadsBack_middle {e : Int} (hlow : -23 ≤ e) (hhigh : e ≤ -9) :
    exponentReadsBack e = true := by
  interval_cases e <;> decide +kernel

theorem exponentReadsBack_large {e : Int} (hlow : -8 ≤ e) (hhigh : e ≤ 19) :
    exponentReadsBack e = true := by
  interval_cases e <;> decide +kernel

theorem exponentReadsBack_huge {e : Int} (hlow : 20 ≤ e) (hhigh : e ≤ 30) :
    exponentReadsBack e = true := by
  interval_cases e <;> decide +kernel

theorem exponentReadsBack_eq_true {e : Int} (hlow : -54 ≤ e) (hhigh : e ≤ 30) :
    exponentReadsBack e = true := by
  rcases lt_or_ge (-36) e with h1 | h1
  · rcases lt_or_ge (-24) e with h2 | h2
    · rcases lt_or_ge (-9) e with h3 | h3
      · rcases lt_or_ge 19 e with h4 | h4
        · exact exponentReadsBack_huge h4 hhigh
        · exact exponentReadsBack_large h3 h4
      · exact exponentReadsBack_middle h2 h3
    · exact exponentReadsBack_small h1 h2
  · exact exponentReadsBack_tiny hlow h1

/-! ### What the computation says -/

theorem readsBack_of_near {e : Int} {d i s m : Nat} (hlow : -54 ≤ e) (hhigh : e ≤ 30)
    (hd : 10 ^ 8 ≤ d) (hd' : d < 10 ^ 9) (hi : i < 10) (hdvd : 10 ^ i ∣ d) (hs : s < 278)
    (hm : 2 ^ min s 24 ≤ 2 * m + 1) (hm' : 2 * m + 1 < 2 * 2 ^ min s 24)
    (hnear : Near (d * step e) ((2 * m + 1) * (wholePower e * 2 ^ (s - 24)))) :
    readsBack (powerUnits (e + i)) (d / 10 ^ i) (e + i) = true := by
  have hstep : 0 < step e := Nat.mul_pos (Nat.pow_pos (by decide)) (Nat.two_pow_pos _)
  have hpower : 0 < wholePower e := Nat.pow_pos (by decide)
  have hall := exponentReadsBack_eq_true hlow hhigh
  simp only [exponentReadsBack, withNat_eq, List.all_eq_true, Bool.and_eq_true] at hall
  obtain ⟨hread, hzeros⟩ := hall s (mem_octaves hs hpower hd hd' hm hm' hnear) d
    (mem_nearMidpoints hstep hpower hd hd' hm hm' hnear)
  rcases Nat.eq_zero_or_pos i with rfl | hpos
  · simpa using hread
  · have hten : d % 10 = 0 :=
      Nat.mod_eq_zero_of_dvd (Dvd.dvd.trans (dvd_pow_self 10 hpos.ne') hdvd)
    have hzero : d % 10 ^ i = 0 := Nat.mod_eq_zero_of_dvd hdvd
    simp only [hten, Nat.beq_refl, Bool.not_true, Bool.false_or, List.all_eq_true,
      Bool.or_eq_true] at hzeros
    simpa [hzero] using hzeros i (List.mem_range.mpr hi)

theorem ten_zpow (e : Int) : (10 : ℚ) ^ e = 10 ^ e.toNat / 10 ^ (-e).toNat := by
  have he : e = (e.toNat : ℤ) - ((-e).toNat : ℤ) := by omega
  conv_lhs => rw [he, zpow_sub₀ (by norm_num), zpow_natCast, zpow_natCast]

theorem powerUnits_eq (e : Int) : powerUnits e = double.units (double.ofNat (10 ^ e.natAbs)) := by
  rw [powerUnits, withNat_eq, BinaryFormat.nearestBy_eq, BinaryFormat.ofNat]

/-- The steps compute the magnitude that is read. -/
theorem magnitude?_eq {significand : Nat} {e : Int} (h0 : significand ≠ 0)
    (hs : significand < 2 ^ 53) (hlow : -60 ≤ e) (hhigh : e ≤ 60) :
    magnitude? significand e = some (readMagnitude (powerUnits e) significand e) := by
  simp only [magnitude?, readMagnitude, withNat_eq, BinaryFormat.nearestBy_eq, powerUnits_eq]
  cases e with
  | ofNat e =>
    rw [Int.ofNat_eq_natCast] at hhigh
    rw [scaled?_ofNat h0 hs (by omega), timesPower, units_significand hs]
    rfl
  | negSucc n =>
    rw [scaled?_negSucc (by omega), overPower, units_significand hs]
    rfl

/-- **A decimal that passes, and is the shortest one of a magnitude, is read as that.** -/
theorem magnitude?_of_readsBack {digits code : Nat} {e : Int} (h0 : digits ≠ 0)
    (hdigits : digits < 10 ^ 9) (hlow : -60 ≤ e) (hhigh : e ≤ 60)
    (h : readsBack (powerUnits e) digits e = true) (hpos : 0 < code)
    (hinf : code ≤ BinaryFormat.single.infinity)
    (hround : BinaryFormat.single.RoundsTo code
      ((⟨digits, e⟩ : Decimal).value * BinaryFormat.single.scale))
    (hshortest : (Single.ofMagnitude false code).shortest .toEven = ⟨digits, e⟩) :
    magnitude? digits e = some code := by
  have hfraction : ((digits * 10 ^ e.toNat * BinaryFormat.single.scale : ℕ) : ℚ) / wholePower e =
      (⟨digits, e⟩ : Decimal).value * BinaryFormat.single.scale := by
    rw [Decimal.value, ten_zpow, wholePower]
    push_cast
    ring
  have hcode : BinaryFormat.single.nearest (digits * 10 ^ e.toNat * BinaryFormat.single.scale)
      (wholePower e) = code :=
    BinaryFormat.single.nearest_eq (by decide) (Nat.pow_pos (by decide)) hpos hinf
      (hfraction ▸ hround)
  simp only [readsBack, withNat_eq, BinaryFormat.nearestBy_eq, hcode, hshortest] at h
  have hread : readMagnitude (powerUnits e) digits e = code := by simpa using h
  rw [magnitude?_eq h0 (by omega) hlow hhigh, hread]

end Json.Number

end Datum
