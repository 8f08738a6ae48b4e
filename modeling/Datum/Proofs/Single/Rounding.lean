import Datum.Proofs.Single.Number
import Mathlib.Algebra.Order.Group.Unbundled.Abs
import Mathlib.Tactic.Linarith

/-!
# Rounding to 32-bit integers

`IsNearestAway q n` says that no integer is nearer to `q` than `n`, and that `n` is further from zero
than any other at the same distance.  There is one such integer at most, and it does not decrease with
the number.

A finite single is rounded to this integer (`isNearestAway_roundHalfAway`), which is always a single
again (`isExact_roundHalfAway`).  So the bounds, which are compared with the rounded single, are those
of the integer, and the final truncation is never out of range (`toInt32?_of_isFinite`).
-/

namespace Datum

/-- The integer nearest to a number, and of two at the same distance the one further from zero. -/
def IsNearestAway (q : ℚ) (n : ℤ) : Prop :=
  ∀ m : ℤ, |q - n| < |q - m| ∨ |q - n| = |q - m| ∧ m.natAbs ≤ n.natAbs

/-! ### Nearest integers -/

/-- Squared distances to two points differ in proportion to the distance from the midpoint. -/
theorem sq_sub_sub_sq_sub (q a b : ℚ) :
    (q - b) ^ 2 - (q - a) ^ 2 = (b - a) * (a + b - 2 * q) := by
  ring

theorem abs_sub_lt_abs_sub_iff {q a b : ℚ} (h : a < b) : |q - a| < |q - b| ↔ 2 * q < a + b := by
  rw [← sq_lt_sq, ← sub_pos, sq_sub_sub_sq_sub, mul_pos_iff_of_pos_left (sub_pos.mpr h), sub_pos]

theorem abs_sub_lt_abs_sub_iff' {q a b : ℚ} (h : a < b) : |q - b| < |q - a| ↔ a + b < 2 * q := by
  have hsq : (q - a) ^ 2 - (q - b) ^ 2 = (b - a) * (2 * q - (a + b)) := by ring
  rw [← sq_lt_sq, ← sub_pos, hsq, mul_pos_iff_of_pos_left (sub_pos.mpr h), sub_pos]

theorem abs_sub_eq_abs_sub_iff {q a b : ℚ} (h : a < b) : |q - a| = |q - b| ↔ 2 * q = a + b := by
  rw [← sq_eq_sq_iff_abs_eq_abs, eq_comm, ← sub_eq_zero, sq_sub_sub_sq_sub,
    mul_eq_zero_iff_left (sub_pos.mpr h).ne', sub_eq_zero, eq_comm]

namespace IsNearestAway

variable {q r : ℚ} {m n : ℤ}

theorem neg (h : IsNearestAway q n) : IsNearestAway (-q) (-n) := by
  have hdist : ∀ k : ℤ, |-q - k| = |q - (-k : ℤ)| := by
    intro k
    rw [← abs_neg]
    congr 1
    push_cast
    ring
  intro m
  have hm := h (-m)
  rw [Int.natAbs_neg] at hm
  rwa [hdist, hdist, neg_neg, Int.natAbs_neg]

theorem le_midpoint (h : IsNearestAway q n) :
    2 * q < 2 * n + 1 ∨ 2 * q = 2 * n + 1 ∧ n < 0 := by
  have hlt : (n : ℚ) < (n + 1 : ℤ) := by exact_mod_cast Int.lt_succ n
  have hsum : (n : ℚ) + (n + 1 : ℤ) = 2 * n + 1 := by
    push_cast
    ring
  have hn := h (n + 1)
  rw [abs_sub_lt_abs_sub_iff hlt, abs_sub_eq_abs_sub_iff hlt, hsum] at hn
  exact hn.imp_right fun ⟨heq, habs⟩ => ⟨heq, by omega⟩

theorem midpoint_le (h : IsNearestAway q n) :
    2 * n - 1 < 2 * q ∨ 2 * q = 2 * n - 1 ∧ 0 < n := by
  rcases h.neg.le_midpoint with hlt | ⟨heq, hn⟩
  · push_cast at hlt
    exact .inl (by linarith)
  · push_cast at heq
    exact .inr ⟨by linarith, by omega⟩

/-- **A greater number does not have a smaller nearest integer.** -/
theorem mono (hq : q ≤ r) (hm : IsNearestAway q m) (hn : IsNearestAway r n) : m ≤ n := by
  by_contra hlt
  have hle : (n : ℚ) + 1 ≤ m := by exact_mod_cast (show n + 1 ≤ m by omega)
  rcases hm.midpoint_le with h₁ | ⟨h₁, hpos⟩
  · rcases hn.le_midpoint with h₂ | ⟨h₂, -⟩ <;> linarith
  · rcases hn.le_midpoint with h₂ | ⟨h₂, hneg⟩
    · linarith
    · -- both are the same half, which cannot be above zero and below
      have h : (2 * m - 1 : ℚ) ≤ 2 * n + 1 := by linarith
      have h' : 2 * m - 1 ≤ 2 * n + 1 := by exact_mod_cast h
      omega

theorem unique (hm : IsNearestAway q m) (hn : IsNearestAway q n) : m = n :=
  le_antisymm (hm.mono le_rfl hn) (hn.mono le_rfl hm)

theorem of_nonneg (hq : 0 ≤ q) (hlower : 2 * n - 1 ≤ 2 * q) (hupper : 2 * q < 2 * n + 1) :
    IsNearestAway q n := by
  have hn : 0 ≤ n := by
    have : (-1 : ℚ) < 2 * n := by linarith
    have : -1 < 2 * n := by exact_mod_cast this
    omega
  intro m
  rcases lt_trichotomy m n with h | rfl | h
  · have hlt : (m : ℚ) < n := Int.cast_lt.mpr h
    have hle : (m : ℚ) + 1 ≤ n := by exact_mod_cast h
    rcases lt_or_ge (m + n : ℚ) (2 * q) with hmid | hmid
    · left
      refine lt_of_le_of_ne (not_lt.mp fun h => ?_) (Ne.symm fun h => ?_)
      · rw [abs_sub_lt_abs_sub_iff hlt] at h
        linarith
      · rw [abs_sub_eq_abs_sub_iff hlt] at h
        linarith
    · right
      have heq : 2 * q = m + n := by linarith
      refine ⟨((abs_sub_eq_abs_sub_iff hlt).mpr heq).symm, ?_⟩
      have : (-1 : ℚ) < m + n := by linarith
      have : -1 < m + n := by exact_mod_cast this
      omega
  · exact .inr ⟨rfl, le_rfl⟩
  · have hlt : (n : ℚ) < m := Int.cast_lt.mpr h
    have hle : (n : ℚ) + 1 ≤ m := by exact_mod_cast h
    exact .inl ((abs_sub_lt_abs_sub_iff hlt).mpr (by linarith))

theorem intCast (n : ℤ) : IsNearestAway n n := by
  rcases le_or_gt 0 n with h | h
  · exact of_nonneg (Int.cast_nonneg h) (by linarith) (by linarith)
  · have hneg := (of_nonneg (n := -n) (Int.cast_nonneg (show 0 ≤ -n by omega))
      (by linarith) (by linarith)).neg
    rwa [Int.cast_neg, neg_neg, neg_neg] at hneg

end IsNearestAway

theorem isNearestAway_div (u : Nat) {den : Nat} (hden : 0 < den) :
    IsNearestAway ((u : ℚ) / den) ((2 * u + den) / (2 * den) : Nat) := by
  have hdiv := Nat.div_add_mod (2 * u + den) (2 * den)
  have hmod := Nat.mod_lt (2 * u + den) (show 0 < 2 * den by omega)
  generalize (2 * u + den) / (2 * den) = n at *
  have hlower : 2 * den * n ≤ 2 * u + den := by omega
  have hupper : 2 * u + den < 2 * den * n + 2 * den := by omega
  have hq : (0 : ℚ) < den := Nat.cast_pos.mpr hden
  have hlower' : (2 * den * n : ℚ) ≤ 2 * u + den := by exact_mod_cast hlower
  have hupper' : (2 * u + den : ℚ) < 2 * den * n + 2 * den := by exact_mod_cast hupper
  refine .of_nonneg (div_nonneg (Nat.cast_nonneg u) hq.le) ?_ ?_
  · rw [← mul_div_assoc, le_div_iff₀ hq]
    push_cast
    linarith
  · rw [← mul_div_assoc, div_lt_iff₀ hq]
    push_cast
    linarith

namespace Single

variable {x : Single}

/-! ### Finite singles -/

theorem isNaN_of_isFinite (h : x.isFinite = true) : x.isNaN = false := by
  rw [isFinite, decide_eq_true_iff] at h
  rw [isNaN, decide_eq_false_iff_not]
  omega

theorem isFinite_iff_units : x.isFinite = true ↔ x.units < infiniteUnits := by
  rw [isFinite, decide_eq_true_iff]
  exact BinaryFormat.single.units_strictMono.lt_iff_lt.symm

theorem number_of_isFinite (h : x.isFinite = true) :
    x.number = .ofRat (x.signedUnits / 2 ^ 149) := by
  have hu := isFinite_iff_units.mp h
  rcases number_cases (isNaN_of_isFinite h) with ⟨hx, -⟩ | ⟨-, hx⟩ | ⟨-, hx⟩
  · exact hx
  · have := signedUnits_bounds hu
    omega
  · have := signedUnits_bounds hu
    omega

theorem number_of_not_isFinite (h : x.isFinite = false) :
    x.number = .nan ∨ x.number = .posInfinity ∨ x.number = .negInfinity := by
  cases hnan : x.isNaN with
  | true => exact .inl (number_eq_nan_iff.mpr hnan)
  | false =>
    rcases number_cases hnan with ⟨-, hu⟩ | ⟨hx, -⟩ | ⟨hx, -⟩
    · rw [isFinite_iff_units.mpr hu] at h
      cases h
    · exact .inr (.inr hx)
    · exact .inr (.inl hx)

/-! ### Rounding as a single -/

theorem natAbs_roundHalfAway (x : Single) :
    x.roundHalfAway.natAbs =
      (2 * x.units + BinaryFormat.single.scale) / (2 * BinaryFormat.single.scale) := by
  simp only [roundHalfAway]
  split
  · rw [Int.natAbs_neg, Int.natAbs_natCast]
  · rw [Int.natAbs_natCast]

theorem roundHalfAway_eq (x : Single) : x.roundHalfAway =
    if x.isNegative then -(x.roundHalfAway.natAbs : ℤ) else x.roundHalfAway.natAbs := by
  rw [natAbs_roundHalfAway]
  rfl

theorem isNearestAway_roundHalfAway (x : Single) :
    IsNearestAway (x.signedUnits / 2 ^ 149) x.roundHalfAway := by
  have hdiv := isNearestAway_div x.units (show 0 < BinaryFormat.single.scale from Nat.two_pow_pos _)
  rw [← natAbs_roundHalfAway, cast_scale] at hdiv
  rw [roundHalfAway_eq, signedUnits]
  split
  · rw [Int.cast_neg, neg_div]
    exact hdiv.neg
  · exact hdiv

/-- **The nearest integer is a single again.** -/
theorem isExact_roundHalfAway (h : x.isFinite = true) :
    BinaryFormat.single.IsExact x.roundHalfAway.natAbs := by
  have hcode : x.magnitude < BinaryFormat.single.infinity := of_decide_eq_true h
  have hscale : 0 < BinaryFormat.single.scale := Nat.two_pow_pos _
  rw [natAbs_roundHalfAway]
  rcases BinaryFormat.single.units_eq_or_lt x.magnitude with ⟨n, hn⟩ | hlt
  · have hdiv : (2 * x.units + BinaryFormat.single.scale) / (2 * BinaryFormat.single.scale) = n := by
      rw [show x.units = BinaryFormat.single.scale * n from hn, ← Nat.mul_assoc, Nat.add_comm,
        Nat.add_mul_div_left _ _ (by omega), Nat.div_eq_of_lt (by omega), Nat.zero_add]
    rw [hdiv]
    exact BinaryFormat.single.isExact_of_units hcode hn
  · have hlt : x.units < 2 ^ 23 * BinaryFormat.single.scale := hlt
    have hdiv : (2 * x.units + BinaryFormat.single.scale) / (2 * BinaryFormat.single.scale) <
        2 * 2 ^ 23 := by
      rw [Nat.div_lt_iff_lt_mul (by omega)]
      omega
    exact BinaryFormat.single.isExact_of_lt (k := 0) hdiv (Nat.mul_one _).symm
      (inRange_of_lt (Nat.lt_trans hdiv (by decide)))

theorem round_of_isFinite (h : x.isFinite = true) :
    x.round.signedUnits = 2 ^ 149 * x.roundHalfAway ∧ x.round.isNaN = false := by
  have hs := signedUnits_ofMagnitude x.isNegative (isExact_roundHalfAway h)
  rw [← roundHalfAway_eq] at hs
  unfold round
  rw [if_pos h]
  exact hs

/-! ### The integer -/

theorem signedUnits_int32Bound : int32Bound.signedUnits = 2 ^ 149 * 2 ^ 31 := by
  rw [show int32Bound = ofInt (2 ^ 31) by decide]
  exact (signedUnits_ofInt (by decide)).1

theorem signedUnits_int32Least : int32Least.signedUnits = 2 ^ 149 * -2 ^ 31 := by
  rw [show int32Least = ofInt (-2 ^ 31) by decide]
  exact (signedUnits_ofInt (by decide)).1

theorem truncate_eq {n : ℤ} (hnan : x.isNaN = false) (hs : x.signedUnits = 2 ^ 149 * n)
    (hlower : -2 ^ 31 ≤ n) (hupper : n < 2 ^ 31) : x.truncate = .ofInt n := by
  have hn : (if x.isNegative then -((x.units / 2 ^ 149 : Nat) : ℤ) else (x.units / 2 ^ 149 : Nat)) =
      n := by
    rw [signedUnits] at hs
    split at hs
    · rw [if_pos ‹_›]
      omega
    · rw [if_neg ‹_›]
      omega
  unfold truncate
  rw [if_neg (by rw [hnan]; exact Bool.false_ne_true)]
  show Int32.ofInt (max (-0x80000000) (min 0x7fffffff (if x.isNegative then _ else _))) = _
  rw [BinaryFormat.scale, show BinaryFormat.single.unitExponent = 149 from rfl, hn]
  congr 1
  omega

theorem toInt32?_of_isFinite (h : x.isFinite = true) :
    x.toInt32? =
      if -2 ^ 31 ≤ x.roundHalfAway ∧ x.roundHalfAway < 2 ^ 31 then some (.ofInt x.roundHalfAway)
      else none := by
  obtain ⟨hs, hnan⟩ := round_of_isFinite h
  have hlower : x.round.rank < int32Least.rank ↔ x.roundHalfAway < -2 ^ 31 := by
    rw [rank_lt_rank_iff, hs, signedUnits_int32Least]
    omega
  have hupper : int32Bound.rank ≤ x.round.rank ↔ 2 ^ 31 ≤ x.roundHalfAway := by
    rw [← not_lt, rank_lt_rank_iff, hs, signedUnits_int32Bound]
    omega
  unfold toInt32?
  simp only [hnan, hlower, hupper, Bool.false_eq_true, false_or]
  by_cases hr : -2 ^ 31 ≤ x.roundHalfAway ∧ x.roundHalfAway < 2 ^ 31
  · rw [if_pos hr, if_neg (by omega), truncate_eq hnan hs hr.1 hr.2]
  · rw [if_neg hr, if_pos (by omega)]

theorem toInt32?_of_not_isFinite (h : x.isFinite = false) : x.toInt32? = none := by
  have hround : x.round = x := by
    unfold round
    rw [if_neg (by rw [h]; exact Bool.false_ne_true)]
  have hm : BinaryFormat.single.infinity ≤ x.magnitude := not_lt.mp (of_decide_eq_false h)
  have hlower : int32Least.rank = -0x4f000000 := by decide
  have hupper : int32Bound.rank = 0x4f000000 := by decide
  have hinf : BinaryFormat.single.infinity = 0x7f800000 := rfl
  unfold toInt32?
  simp only [hround, hlower, hupper]
  refine if_pos (.inr ?_)
  unfold rank
  split <;> omega

/-- The single is finite, and `n` is the integer nearest to its number. -/
def RoundsToInt (x : Single) (n : ℤ) : Prop :=
  ∃ q, x.number = .ofRat q ∧ IsNearestAway q n

theorem roundsToInt_iff {n : ℤ} : x.RoundsToInt n ↔ x.isFinite = true ∧ x.roundHalfAway = n := by
  have hn := x.isNearestAway_roundHalfAway
  constructor
  · rintro ⟨q, hq, hn'⟩
    cases h : x.isFinite with
    | false =>
      rcases number_of_not_isFinite h with hx | hx | hx <;> rw [hx] at hq <;> cases hq
    | true =>
      rw [number_of_isFinite h] at hq
      rw [Number.ofRat_injective hq] at hn
      exact ⟨rfl, hn.unique hn'⟩
  · rintro ⟨h, rfl⟩
    exact ⟨_, number_of_isFinite h, hn⟩

/-- **A single becomes the 32-bit integer nearest to it.** -/
theorem toInt32?_eq_some_iff {n : Int32} : x.toInt32? = some n ↔ x.RoundsToInt n.toInt := by
  rw [roundsToInt_iff]
  cases h : x.isFinite with
  | false => simp [toInt32?_of_not_isFinite h]
  | true =>
    rw [toInt32?_of_isFinite h]
    constructor
    · intro hsome
      split at hsome
      · rename_i hr
        rw [← Option.some.inj hsome, Int32.toInt_ofInt_of_le hr.1 hr.2]
        exact ⟨rfl, rfl⟩
      · cases hsome
    · rintro ⟨-, hn⟩
      rw [hn, if_pos ⟨n.le_toInt, n.toInt_lt⟩, Int32.ofInt_toInt]

theorem toInt32?_eq_none_iff : x.toInt32? = none ↔
    x.number = .nan ∨ x.number = .posInfinity ∨ x.number = .negInfinity ∨
      ∃ n, x.RoundsToInt n ∧ (n < -2 ^ 31 ∨ 2 ^ 31 ≤ n) := by
  cases h : x.isFinite with
  | false =>
    simp only [toInt32?_of_not_isFinite h, true_iff]
    rcases number_of_not_isFinite h with hx | hx | hx
    · exact .inl hx
    · exact .inr (.inl hx)
    · exact .inr (.inr (.inl hx))
  | true =>
    rw [toInt32?_of_isFinite h, number_of_isFinite h]
    constructor
    · intro hnone
      split at hnone
      · cases hnone
      · exact .inr (.inr (.inr ⟨x.roundHalfAway, roundsToInt_iff.mpr ⟨h, rfl⟩, by omega⟩))
    · rintro (hx | hx | hx | ⟨n, hn, hr⟩)
      · cases hx
      · cases hx
      · cases hx
      · obtain ⟨-, rfl⟩ := roundsToInt_iff.mp hn
        exact if_neg (by omega)

/-- **The nearest integer does not decrease along the order of singles.** -/
theorem RoundsToInt.mono {y : Single} {m n : ℤ} (hxy : x.compare y ≠ .gt) (hm : x.RoundsToInt m)
    (hn : y.RoundsToInt n) : m ≤ n := by
  obtain ⟨q, hq, hm⟩ := hm
  obtain ⟨r, hr, hn⟩ := hn
  rw [compare_eq_cmp, hq, hr, ne_eq, cmp_eq_gt_iff, Number.ofRat_lt_ofRat, not_lt] at hxy
  exact hm.mono hxy hn

theorem roundsToInt_of_number_eq {n : ℤ} (h : x.number = .ofRat n) : x.RoundsToInt n :=
  ⟨n, h, .intCast n⟩

end Single

end Datum
