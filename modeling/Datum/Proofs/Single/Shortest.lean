import Datum.Proofs.Single.Nearest
import Datum.Single.Shortest
import Mathlib.Tactic.NormNum

/-!
# The shortest decimal lies in the interval

The search for the shortest decimal tests candidates in units of 10^-149.  `roundsTo_sound` says that
a candidate that passes lies in the interval of the number, and `shortest_roundsTo` that the decimal
of a number that is not zero does.  The grid on which the number has nine digits is always hit, so
that there are never more (`shortest_digits_lt`).
-/

namespace Datum

-- the power of the core library, also where algebra has one of its own
attribute [local instance (high)] instPowNat

def Decimal.value (d : Decimal) : ℚ :=
  d.digits * 10 ^ d.exponent

namespace Single

open BinaryFormat (single)

variable {x : Single} {tie : Tie}

theorem magnitude_pos (h : x.units ≠ 0) : 0 < x.magnitude :=
  single.units_pos_iff.mp (Nat.pos_of_ne_zero h)

theorem magnitude_eq_zero (h : x.units = 0) : x.magnitude = 0 :=
  Nat.eq_zero_of_not_pos fun hpos => (single.units_pos_iff.mpr hpos).ne' h

theorem magnitude_lt (hfin : x.isFinite = true) : x.magnitude < single.infinity :=
  of_decide_eq_true hfin

/-! ### The candidates -/

theorem gaps_snd (x : Single) :
    x.gaps.2 = 2 * (5 ^ decimalPlaces * 2 ^ single.octave x.magnitude) := by
  unfold gaps
  simp only
  split <;> rfl

/-- The gap below is at most the spacing there, and at least half the spacing above. -/
theorem gaps_fst (x : Single) :
    x.gaps.1 ≤ 2 * (5 ^ decimalPlaces * 2 ^ single.octave (x.magnitude - 1)) ∧
      5 ^ decimalPlaces * 2 ^ single.octave x.magnitude ≤ x.gaps.1 := by
  have hsig := single.significand_eq x.magnitude
  have hdiv := Nat.div_add_mod x.magnitude (2 ^ single.fractionBits)
  have hle : single.octave (x.magnitude - 1) ≤ single.octave x.magnitude :=
    single.octave_mono (Nat.sub_le _ _)
  unfold gaps
  generalize 5 ^ decimalPlaces = scale
  simp only
  split
  · rename_i hpow
    have hone : x.magnitude / 2 ^ single.fractionBits ≠ 0 := by
      rw [ne_eq, Nat.div_eq_zero_iff]
      have := single.two_pow_fractionBits_pos
      omega
    rw [if_neg hone, hpow.1, Nat.zero_add] at hsig
    refine ⟨?_, Nat.le_refl _⟩
    by_cases hk : single.octave x.magnitude = 0
    · rw [hk, Nat.pow_zero]
      have := Nat.mul_le_mul_left scale (Nat.one_le_two_pow (n := single.octave (x.magnitude - 1)))
      omega
    · obtain ⟨k, hk'⟩ := Nat.exists_eq_succ_of_ne_zero hk
      rw [single.octave_pred_of_least hsig hk, hk', Nat.succ_sub_one, Nat.pow_succ']
      exact Nat.le_of_eq (Nat.mul_left_comm _ _ _)
  · rename_i hpow
    rw [single.octave_pred]
    · exact ⟨Nat.le_refl _, by omega⟩
    · by_cases hlt : x.magnitude < 2 ^ single.fractionBits
      · right
        rw [BinaryFormat.octave, Nat.div_eq_of_lt hlt]
      · left
        rw [hsig, if_neg]
        · omega
        · rw [Nat.div_eq_zero_iff]
          have := single.two_pow_fractionBits_pos
          omega

theorem roundsTo_eq_true_iff (candidate : Nat) :
    x.roundsTo candidate = true ↔
      if x.magnitude % 2 = 0 then
        4 * x.decimalUnits - x.gaps.1 ≤ 4 * candidate ∧ 4 * candidate ≤ 4 * x.decimalUnits + x.gaps.2
      else
        4 * x.decimalUnits - x.gaps.1 < 4 * candidate ∧
          4 * candidate < 4 * x.decimalUnits + x.gaps.2 := by
  unfold roundsTo
  simp only
  split <;> simp

/-- **A candidate that passes lies in the interval of the number.** -/
theorem roundsTo_sound (h : x.units ≠ 0) {candidate : Nat} (hc : x.roundsTo candidate = true) :
    single.RoundsTo x.magnitude ((candidate : ℚ) / (5 ^ decimalPlaces : ℕ)) := by
  have hscale : (0 : ℚ) < (5 ^ decimalPlaces : ℕ) := Nat.cast_pos.mpr (Nat.pow_pos (by decide))
  have hbelow := x.gaps_fst.1
  have hpred := single.units_pred (magnitude_pos h)
  have hsucc := single.units_succ x.magnitude
  rw [roundsTo_eq_true_iff, gaps_snd] at hc
  -- twice the distances to the neighbours, in units of 10^-149
  have hlow : 5 ^ decimalPlaces * (single.units (x.magnitude - 1) + single.units x.magnitude) +
      5 ^ decimalPlaces * 2 ^ single.octave (x.magnitude - 1) = 2 * x.decimalUnits := by
    rw [decimalUnits, units, ← Nat.mul_add, Nat.mul_left_comm]
    congr 1
    omega
  have hhigh : 5 ^ decimalPlaces * (single.units x.magnitude + single.units (x.magnitude + 1)) =
      2 * x.decimalUnits + 5 ^ decimalPlaces * 2 ^ single.octave x.magnitude := by
    rw [decimalUnits, units, Nat.mul_left_comm, ← Nat.mul_add]
    congr 1
    omega
  have hspace : 0 < 5 ^ decimalPlaces * single.units (x.magnitude - 1) + 5 ^ decimalPlaces := by
    have := Nat.pow_pos (n := decimalPlaces) (show 0 < 5 by decide)
    omega
  generalize 5 ^ decimalPlaces = scale at *
  constructor
  · rw [← mul_div_assoc, le_div_iff₀ hscale, mul_comm]
    exact_mod_cast (by split at hc <;> omega :
      scale * (single.units (x.magnitude - 1) + single.units x.magnitude) ≤ 2 * candidate)
  · rw [← mul_div_assoc, div_le_iff₀ hscale, mul_comm _ (scale : ℚ)]
    exact_mod_cast (by split at hc <;> omega :
      2 * candidate ≤ scale * (single.units x.magnitude + single.units (x.magnitude + 1)))
  · intro hodd
    rw [if_neg (by omega)] at hc
    rw [← mul_div_assoc, lt_div_iff₀ hscale, div_lt_iff₀ hscale, mul_comm, mul_comm _ (scale : ℚ)]
    constructor
    · exact_mod_cast (by omega :
        scale * (single.units (x.magnitude - 1) + single.units x.magnitude) < 2 * candidate)
    · exact_mod_cast (by omega :
        2 * candidate < scale * (single.units x.magnitude + single.units (x.magnitude + 1)))

theorem roundsTo_of_near {candidate distance : Nat}
    (hd : 4 * distance < 5 ^ decimalPlaces * 2 ^ single.octave x.magnitude)
    (hlower : x.decimalUnits ≤ candidate + distance)
    (hupper : candidate ≤ x.decimalUnits + distance) (hpos : 0 < candidate) :
    x.roundsTo candidate = true := by
  have hbelow := x.gaps_fst.2
  have habove := x.gaps_snd
  rw [roundsTo_eq_true_iff]
  split <;> omega

/-! ### The search -/

theorem nearestOnGrid?_eq_some {grid n : Nat} (h : x.nearestOnGrid? tie grid = some n) :
    x.roundsTo (n * grid) = true ∧ n ≤ x.decimalUnits / grid + 1 := by
  have hle := Nat.le_succ (x.decimalUnits / grid)
  unfold nearestOnGrid? at h
  cases hfloor : decide (0 < x.decimalUnits / grid) &&
      x.roundsTo (x.decimalUnits / grid * grid) with
  | false =>
    simp only [hfloor, Bool.false_and, Bool.false_eq_true, if_false] at h
    split at h <;> cases h
    rename_i hceil
    exact ⟨hceil, Nat.le_refl _⟩
  | true =>
    simp only [hfloor, Bool.true_and, if_true] at h
    have hfloor := (Bool.and_eq_true_iff.mp hfloor).2
    split at h
    · rename_i hceil
      split at h <;> cases h
      · exact ⟨hfloor, hle⟩
      · exact ⟨hceil, Nat.le_refl _⟩
      · split
        · exact ⟨hfloor, hle⟩
        · exact ⟨hceil, Nat.le_refl _⟩
    · cases h
      exact ⟨hfloor, hle⟩

/-- A grid that is finer than a quarter of the spacing is hit. -/
theorem nearestOnGrid?_ne_none {grid : Nat}
    (hgrid : 4 * grid < 5 ^ decimalPlaces * 2 ^ single.octave x.magnitude) (hpos : 0 < grid) :
    x.nearestOnGrid? tie grid ≠ none := by
  have hdiv := Nat.div_add_mod x.decimalUnits grid
  have hmod := Nat.mod_lt x.decimalUnits hpos
  have hceil : x.roundsTo ((x.decimalUnits / grid + 1) * grid) = true := by
    have hmul : (x.decimalUnits / grid + 1) * grid = grid * (x.decimalUnits / grid) + grid := by
      ring
    apply roundsTo_of_near hgrid <;> omega
  unfold nearestOnGrid?
  simp only [hceil, Bool.and_true, if_true]
  split
  · split <;> exact Option.some_ne_none _
  · exact Option.some_ne_none _

theorem roundsTo_decimalUnits (h : x.units ≠ 0) : x.roundsTo x.decimalUnits = true := by
  have hpos : 0 < x.decimalUnits := Nat.mul_pos (Nat.pow_pos (by decide)) (Nat.pos_of_ne_zero h)
  have hspacing : 0 < 5 ^ decimalPlaces * 2 ^ single.octave x.magnitude :=
    Nat.mul_pos (Nat.pow_pos (by decide)) (Nat.two_pow_pos _)
  have hbelow := x.gaps_fst.2
  have habove := x.gaps_snd
  rw [roundsTo_eq_true_iff]
  split <;> omega

theorem firstHit_spec (tie : Tie) (h : x.units ≠ 0) (n : Nat) :
    x.roundsTo ((x.firstHit tie n).1 * 10 ^ (x.firstHit tie n).2) = true ∧
      (x.firstHit tie n).1 ≤ x.decimalUnits / 10 ^ (x.firstHit tie n).2 + 1 := by
  induction n with
  | zero => simp [firstHit, roundsTo_decimalUnits h]
  | succ k ih =>
    rw [firstHit]
    cases hgrid : x.nearestOnGrid? tie (10 ^ (k + 1)) with
    | none => exact ih
    | some steps => exact nearestOnGrid?_eq_some hgrid

/-- The search ends at the latest on a grid that is finer than a quarter of the spacing. -/
theorem le_firstHit {k n : Nat} (hk : k ≤ n)
    (hgrid : 4 * 10 ^ k < 5 ^ decimalPlaces * 2 ^ single.octave x.magnitude) :
    k ≤ (x.firstHit tie n).2 := by
  induction n with
  | zero => omega
  | succ n ih =>
    rw [firstHit]
    cases hhit : x.nearestOnGrid? tie (10 ^ (n + 1)) with
    | some steps => exact hk
    | none =>
      rcases Nat.lt_or_eq_of_le hk with hlt | rfl
      · exact ih (by omega)
      · exact absurd hhit (nearestOnGrid?_ne_none hgrid (Nat.pow_pos (by decide)))

theorem stripZeros_spec (bound digits zeros : Nat) :
    (stripZeros bound digits zeros).1 * 10 ^ (stripZeros bound digits zeros).2 =
        digits * 10 ^ zeros ∧
      (stripZeros bound digits zeros).1 ≤ digits := by
  induction bound generalizing digits zeros with
  | zero => exact ⟨rfl, Nat.le_refl _⟩
  | succ bound ih =>
    rw [stripZeros]
    split
    · rename_i h
      obtain ⟨hvalue, hle⟩ := ih (digits / 10) (zeros + 1)
      refine ⟨?_, Nat.le_trans hle (Nat.div_le_self _ _)⟩
      rw [hvalue, Nat.pow_succ', ← Nat.mul_assoc, Nat.div_mul_cancel (Nat.dvd_of_mod_eq_zero h.2)]
    · exact ⟨rfl, Nat.le_refl _⟩

theorem stripZeros_lt {bound digits : Nat} (zeros : Nat) (hbound : 0 < bound)
    (hd : digits ≤ 10 ^ 9) : (stripZeros bound digits zeros).1 < 10 ^ 9 := by
  rcases Nat.lt_or_eq_of_le hd with hlt | rfl
  · exact Nat.lt_of_le_of_lt (stripZeros_spec _ _ _).2 hlt
  · obtain ⟨bound, rfl⟩ := Nat.exists_eq_succ_of_ne_zero hbound.ne'
    rw [stripZeros, if_pos (by decide)]
    exact Nat.lt_of_le_of_lt (stripZeros_spec _ _ _).2 (by decide)

theorem nineDigits_fine (h : x.units ≠ 0) :
    9 ≤ (Nat.toDigits 10 x.decimalUnits).length ∧
      4 * 10 ^ ((Nat.toDigits 10 x.decimalUnits).length - 9) <
        5 ^ decimalPlaces * 2 ^ single.octave x.magnitude := by
  have hdigits {k : Nat} := Nat.length_toDigits_le_iff (n := x.decimalUnits) (k := k)
    (show 1 < 10 by decide)
  generalize (Nat.toDigits 10 x.decimalUnits).length = length at *
  have hmany : 10 ^ 8 ≤ x.decimalUnits :=
    Nat.le_trans (show 10 ^ 8 ≤ 5 ^ decimalPlaces by decide)
      (Nat.le_mul_of_pos_right _ (Nat.pos_of_ne_zero h))
  have hnine : 9 ≤ length := by
    by_contra hlt
    have := (hdigits (k := 8) (by decide)).mp (by omega)
    omega
  refine ⟨hnine, ?_⟩
  have hlower : 10 ^ 8 * 10 ^ (length - 9) ≤ x.decimalUnits := by
    rw [← Nat.pow_add, ← Nat.not_lt, ← hdigits (by omega)]
    omega
  have hsig : single.significand x.magnitude ≤ 2 ^ 24 := Nat.le_of_lt (single.significand_lt _)
  have hupper : x.decimalUnits ≤ 2 ^ 24 * (5 ^ decimalPlaces * 2 ^ single.octave x.magnitude) := by
    rw [decimalUnits, units, BinaryFormat.units, Nat.mul_left_comm]
    exact Nat.mul_le_mul_right _ hsig
  have hpos : 0 < 5 ^ decimalPlaces * 2 ^ single.octave x.magnitude :=
    Nat.mul_pos (Nat.pow_pos (by decide)) (Nat.two_pow_pos _)
  omega

/-- The decimal of a number as a multiple of one of the grids of the search. -/
theorem shortest_spec (tie : Tie) (h : x.units ≠ 0) :
    ∃ steps k, x.roundsTo (steps * 10 ^ k) = true ∧ (x.shortest tie).digits < 10 ^ 9 ∧
      (x.shortest tie).value = steps * 10 ^ k / 10 ^ decimalPlaces := by
  obtain ⟨hnine, hfine⟩ := nineDigits_fine h
  rw [shortest, if_neg h]
  have hdigits := Nat.length_toDigits_le_iff (n := x.decimalUnits)
    (k := (Nat.toDigits 10 x.decimalUnits).length) (show 1 < 10 by decide) (by omega)
  generalize (Nat.toDigits 10 x.decimalUnits).length = length at *
  obtain ⟨hround, hsteps⟩ := firstHit_spec tie h (length - 1)
  have hcoarse : length - 9 ≤ (x.firstHit tie (length - 1)).2 := le_firstHit (by omega) hfine
  simp only
  generalize x.firstHit tie (length - 1) = hit at *
  obtain ⟨steps, k⟩ := hit
  have hvalue := (stripZeros_spec length steps 0).1
  refine ⟨steps, k, hround, stripZeros_lt 0 (by omega) ?_, ?_⟩
  · have hlt : x.decimalUnits / 10 ^ k < 10 ^ 9 := by
      rw [Nat.div_lt_iff_lt_mul (Nat.pow_pos (by decide)), ← Nat.pow_add]
      exact Nat.lt_of_lt_of_le (hdigits.mp (Nat.le_refl _))
        (Nat.pow_le_pow_right (by decide) (by simp only at hcoarse; omega))
    simp only at hsteps
    omega
  · have hvalue' := congrArg (Nat.cast (R := ℚ)) hvalue
    push_cast at hvalue'
    simp only [Decimal.value]
    rw [zpow_sub₀ (by norm_num), zpow_natCast, zpow_natCast, pow_add, ← mul_div_assoc,
      mul_left_comm, hvalue', mul_one, mul_comm]

/-- **The decimal of a number lies in its interval.** -/
theorem shortest_roundsTo (tie : Tie) (h : x.units ≠ 0) :
    single.RoundsTo x.magnitude ((x.shortest tie).value * single.scale) := by
  obtain ⟨steps, k, hround, -, hvalue⟩ := shortest_spec tie h
  have hten : (10 : ℚ) ^ decimalPlaces = 5 ^ decimalPlaces * single.scale := by
    have hpow : 10 ^ decimalPlaces = 5 ^ decimalPlaces * single.scale := by decide
    exact_mod_cast congrArg (Nat.cast (R := ℚ)) hpow
  have hscale : (single.scale : ℚ) ≠ 0 := Nat.cast_ne_zero.mpr (Nat.two_pow_pos _).ne'
  have hunits : (x.shortest tie).value * single.scale =
      ((steps * 10 ^ k : ℕ) : ℚ) / (5 ^ decimalPlaces : ℕ) := by
    rw [hvalue, hten, div_mul_eq_mul_div, mul_div_mul_right _ _ hscale]
    push_cast
    rfl
  rw [hunits]
  exact roundsTo_sound h hround

/-- **Nine digits suffice.** -/
theorem shortest_digits_lt (tie : Tie) (h : x.units ≠ 0) : (x.shortest tie).digits < 10 ^ 9 := by
  obtain ⟨-, -, -, hdigits, -⟩ := shortest_spec tie h
  exact hdigits

/-! ### The sign has no part in it -/

theorem firstHit_congr {x y : Single} (h : x.magnitude = y.magnitude) (tie : Tie) (n : Nat) :
    x.firstHit tie n = y.firstHit tie n := by
  have hgrid (grid : Nat) : x.nearestOnGrid? tie grid = y.nearestOnGrid? tie grid := by
    unfold nearestOnGrid? roundsTo gaps decimalUnits units
    rw [h]
  induction n with
  | zero => simp only [firstHit, decimalUnits, units, h]
  | succ n ih => rw [firstHit, firstHit, hgrid, ih]

theorem shortest_congr {x y : Single} (h : x.magnitude = y.magnitude) (tie : Tie) :
    x.shortest tie = y.shortest tie := by
  have hunits : x.units = y.units := by rw [units, units, h]
  have hdecimal : x.decimalUnits = y.decimalUnits := by rw [decimalUnits, decimalUnits, hunits]
  simp only [shortest, hunits, hdecimal, firstHit_congr h]

end Single

end Datum
