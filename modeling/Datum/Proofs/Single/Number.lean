import Datum.Proofs.Single.Exact
import Datum.Single.Basic
import Mathlib.Algebra.Order.Field.Rat
import Mathlib.Order.Compare
import Mathlib.Order.WithBot
import Mathlib.Tactic.FieldSimp
import Mathlib.Tactic.Positivity
import Mathlib.Tactic.Ring

/-!
# The exact numbers of singles

A bit pattern is read by the rules of the format: a sign, eight bits of biased exponent and 23 bits
of fraction.  The numbers it can stand for are the rationals, an infinity at either end, and one
point above everything else for the patterns that are not a number (`Number`); the zeros of both
signs are the one number zero.

`value_eq` relates this reading to the units in which the format counts, and
`compare_eq_cmp` says that the total order of singles, which compares encodings, is the order of the
numbers.  `ofIntExact?_cases` is about integers below 2^53: one passes the test for exactness if some
single is that number, and otherwise no single is.
-/

namespace Datum

/-- Integers are compared as the elements of a linear order that lie in the same order. -/
theorem compare_eq_cmp_of_lt_iff {α : Type} [LinearOrder α] {m n : ℤ} {a b : α}
    (hlt : m < n ↔ a < b) (hgt : n < m ↔ b < a) : compare m n = cmp a b := by
  rcases lt_trichotomy m n with h | h | h
  · rw [Int.compare_eq_lt.mpr h, (cmp_eq_lt_iff a b).mpr (hlt.mp h)]
  · have hab : a = b := le_antisymm (not_lt.mp (fun hb => absurd (hgt.mpr hb) (by omega)))
      (not_lt.mp (fun ha => absurd (hlt.mpr ha) (by omega)))
    rw [Int.compare_eq_eq.mpr h, (cmp_eq_eq_iff a b).mpr hab]
  · rw [Int.compare_eq_gt.mpr h, (cmp_eq_gt_iff a b).mpr (hgt.mp h)]

/-- The numbers that singles stand for: the rationals between two infinities, and one point above
them for what is not a number. -/
abbrev Number := WithTop (WithTop (WithBot ℚ))

namespace Number

def ofRat (q : ℚ) : Number := ((q : WithBot ℚ) : WithTop (WithBot ℚ))

def negInfinity : Number := ((⊥ : WithBot ℚ) : WithTop (WithBot ℚ))

def posInfinity : Number := ((⊤ : WithTop (WithBot ℚ)) : Number)

def nan : Number := ⊤

@[simp] theorem ofRat_lt_ofRat {q r : ℚ} : ofRat q < ofRat r ↔ q < r := by
  simp only [ofRat, WithTop.coe_lt_coe, WithBot.coe_lt_coe]

theorem ofRat_injective {q r : ℚ} (h : ofRat q = ofRat r) : q = r :=
  WithBot.coe_injective (WithTop.coe_injective (WithTop.coe_injective h))

@[simp] theorem negInfinity_lt_ofRat (q : ℚ) : negInfinity < ofRat q :=
  WithTop.coe_lt_coe.mpr (WithTop.coe_lt_coe.mpr (WithBot.bot_lt_coe q))

@[simp] theorem ofRat_lt_posInfinity (q : ℚ) : ofRat q < posInfinity :=
  WithTop.coe_lt_coe.mpr (WithTop.coe_lt_top _)

@[simp] theorem negInfinity_lt_posInfinity : negInfinity < posInfinity :=
  WithTop.coe_lt_coe.mpr (WithTop.coe_lt_top _)

@[simp] theorem ofRat_lt_nan (q : ℚ) : ofRat q < nan := WithTop.coe_lt_top _

end Number

namespace Single

/-! ### The reading of a bit pattern -/

def exponentField (x : Single) : Nat :=
  x.bits.toNat / 2 ^ 23 % 2 ^ 8

def fractionField (x : Single) : Nat :=
  x.bits.toNat % 2 ^ 23

/-- The exact value of a finite single.  The fraction stands behind a leading bit, which is missing
if the biased exponent is zero. -/
def value (x : Single) : ℚ :=
  let magnitude : ℚ :=
    if x.exponentField = 0 then x.fractionField * 2 ^ (-149 : ℤ)
    else (2 ^ 23 + x.fractionField) * 2 ^ ((x.exponentField : ℤ) - 150)
  if x.isNegative then -magnitude else magnitude

/-- The number that a bit pattern stands for.  With the greatest biased exponent it is infinite, or
not a number if there is a fraction. -/
def number (x : Single) : Number :=
  if x.exponentField = 255 then
    if x.fractionField ≠ 0 then .nan
    else if x.isNegative then .negInfinity
    else .posInfinity
  else .ofRat x.value

theorem magnitude_eq_fields (x : Single) :
    x.magnitude = 2 ^ 23 * x.exponentField + x.fractionField := by
  unfold magnitude exponentField fractionField
  omega

theorem fractionField_lt (x : Single) : x.fractionField < 2 ^ 23 := by
  unfold fractionField
  omega

theorem exponentField_le (x : Single) : x.exponentField ≤ 255 := by
  unfold exponentField
  omega

theorem isNaN_iff (x : Single) :
    x.isNaN = true ↔ x.exponentField = 255 ∧ x.fractionField ≠ 0 := by
  have hf := x.fractionField_lt
  have he := x.exponentField_le
  rw [isNaN, decide_eq_true_iff, magnitude_eq_fields]
  show 0x7f800000 < _ ↔ _
  omega

/-! ### Units -/

/-- The magnitude of the infinities, were it finite. -/
def infiniteUnits : Nat :=
  BinaryFormat.single.units BinaryFormat.single.infinity

theorem units_of_exponentField_eq_zero {x : Single} (h : x.exponentField = 0) :
    x.units = x.fractionField := by
  have hf := x.fractionField_lt
  have hu := BinaryFormat.single.units_encode (m := x.fractionField) (k := 0)
    (show x.fractionField ≤ 2 * 2 ^ 23 by omega) (.inl rfl)
  rw [Nat.pow_zero, Nat.mul_one] at hu
  rw [units, magnitude_eq_fields, h]
  exact hu

theorem units_of_exponentField_ne_zero {x : Single} (h : x.exponentField ≠ 0) :
    x.units = (2 ^ 23 + x.fractionField) * 2 ^ (x.exponentField - 1) := by
  have hf := x.fractionField_lt
  have hu := BinaryFormat.single.units_encode (m := 2 ^ 23 + x.fractionField)
    (k := x.exponentField - 1) (show 2 ^ 23 + x.fractionField ≤ 2 * 2 ^ 23 by omega)
    (.inr (Nat.le_add_right _ _))
  have hm : x.magnitude = 2 ^ 23 * (x.exponentField - 1) + (2 ^ 23 + x.fractionField) := by
    rw [magnitude_eq_fields]
    omega
  rw [units, hm]
  exact hu

/-- **The value of a single is its number of units of 2^-149.** -/
theorem value_eq (x : Single) : x.value = x.signedUnits / 2 ^ 149 := by
  have hmag : (if x.exponentField = 0 then (x.fractionField : ℚ) * 2 ^ (-149 : ℤ)
      else (2 ^ 23 + x.fractionField) * 2 ^ ((x.exponentField : ℤ) - 150)) = x.units / 2 ^ 149 := by
    by_cases h : x.exponentField = 0
    · rw [if_pos h, units_of_exponentField_eq_zero h, zpow_neg, div_eq_mul_inv]
      norm_cast
    · obtain ⟨k, hk⟩ := Nat.exists_eq_succ_of_ne_zero h
      have hz : ((x.exponentField : ℤ) - 150) = (k : ℤ) - 149 := by omega
      rw [if_neg h, units_of_exponentField_ne_zero h, hz, hk, zpow_sub₀ two_ne_zero]
      push_cast
      rw [mul_div_assoc]
      norm_cast
  simp only [value, hmag, signedUnits]
  split
  · push_cast
    ring
  · push_cast
    rfl

theorem infiniteUnits_pos : 0 < infiniteUnits := by
  have h := BinaryFormat.single.units_strictMono (show 0 < BinaryFormat.single.infinity by decide)
  rwa [BinaryFormat.units_zero] at h

/-- A number that is not a NaN is finite or one of the infinities, which lie at the ends of the
finite ones also when they are counted in units. -/
theorem number_cases {x : Single} (h : x.isNaN = false) :
    (x.number = .ofRat (x.signedUnits / 2 ^ 149) ∧ x.units < infiniteUnits) ∨
    (x.number = .negInfinity ∧ x.signedUnits = -(infiniteUnits : ℤ)) ∨
    (x.number = .posInfinity ∧ x.signedUnits = infiniteUnits) := by
  have hn : ¬ (x.exponentField = 255 ∧ x.fractionField ≠ 0) := by
    rw [← isNaN_iff, h]
    exact Bool.false_ne_true
  by_cases he : x.exponentField = 255
  · have hf : x.fractionField = 0 := by
      by_contra hf
      exact hn ⟨he, hf⟩
    have hu : x.units = infiniteUnits := by
      rw [units, magnitude_eq_fields, he, hf]
      rfl
    rw [number, if_pos he, if_neg (not_not.mpr hf), signedUnits, hu]
    cases x.isNegative with
    | true => exact .inr (.inl ⟨rfl, rfl⟩)
    | false => exact .inr (.inr ⟨rfl, rfl⟩)
  · refine .inl ⟨by rw [number, if_neg he, value_eq], ?_⟩
    have hlt : x.magnitude < BinaryFormat.single.infinity := by
      have hf := x.fractionField_lt
      have hle := x.exponentField_le
      rw [magnitude_eq_fields]
      show _ < 0x7f800000
      omega
    exact BinaryFormat.single.units_strictMono hlt

/-! ### The order -/

theorem rank_lt_rank_iff (x y : Single) : x.rank < y.rank ↔ x.signedUnits < y.signedUnits := by
  have hlt : x.units < y.units ↔ x.magnitude < y.magnitude :=
    BinaryFormat.single.units_strictMono.lt_iff_lt
  have hgt : y.units < x.units ↔ y.magnitude < x.magnitude :=
    BinaryFormat.single.units_strictMono.lt_iff_lt
  have hx : 0 < x.units ↔ 0 < x.magnitude := BinaryFormat.single.units_pos_iff
  have hy : 0 < y.units ↔ 0 < y.magnitude := BinaryFormat.single.units_pos_iff
  unfold rank signedUnits
  cases x.isNegative <;> cases y.isNegative <;> simp <;> omega

theorem signedUnits_bounds {x : Single} (h : x.units < infiniteUnits) :
    -(infiniteUnits : ℤ) < x.signedUnits ∧ x.signedUnits < infiniteUnits := by
  unfold signedUnits
  split <;> omega

theorem number_lt_number_iff {x y : Single} (hx : x.isNaN = false) (hy : y.isNaN = false) :
    x.number < y.number ↔ x.signedUnits < y.signedUnits := by
  have hpos := infiniteUnits_pos
  have hunit : (0 : ℚ) < 2 ^ 149 := by positivity
  rcases number_cases hx with ⟨hx, hux⟩ | ⟨hx, hux⟩ | ⟨hx, hux⟩
  · have hbx := signedUnits_bounds hux
    rcases number_cases hy with ⟨hy, huy⟩ | ⟨hy, huy⟩ | ⟨hy, huy⟩
    · rw [hx, hy, Number.ofRat_lt_ofRat, div_lt_div_iff_of_pos_right hunit, Int.cast_lt]
    · simp only [hx, hy, not_lt_of_gt (Number.negInfinity_lt_ofRat _), false_iff]
      omega
    · simp only [hx, hy, Number.ofRat_lt_posInfinity, true_iff]
      omega
  · rcases number_cases hy with ⟨hy, huy⟩ | ⟨hy, huy⟩ | ⟨hy, huy⟩
    · have hby := signedUnits_bounds huy
      simp only [hx, hy, Number.negInfinity_lt_ofRat, true_iff]
      omega
    · simp only [hx, hy, hux, huy, lt_self_iff_false]
    · simp only [hx, hy, Number.negInfinity_lt_posInfinity, true_iff]
      omega
  · rcases number_cases hy with ⟨hy, huy⟩ | ⟨hy, huy⟩ | ⟨hy, huy⟩
    · have hby := signedUnits_bounds huy
      simp only [hx, hy, not_lt_of_gt (Number.ofRat_lt_posInfinity _), false_iff]
      omega
    · simp only [hx, hy, not_lt_of_gt Number.negInfinity_lt_posInfinity, false_iff]
      omega
    · simp only [hx, hy, hux, huy, lt_self_iff_false]

theorem number_eq_nan_iff {x : Single} : x.number = .nan ↔ x.isNaN = true := by
  constructor
  · intro h
    cases hn : x.isNaN with
    | true => rfl
    | false =>
      rcases number_cases hn with ⟨hx, -⟩ | ⟨hx, -⟩ | ⟨hx, -⟩ <;> rw [hx] at h <;> cases h
  · intro h
    obtain ⟨he, hf⟩ := x.isNaN_iff.mp h
    rw [number, if_pos he, if_pos hf]

theorem number_lt_nan_iff {x : Single} : x.number < .nan ↔ x.isNaN = false := by
  rw [Number.nan, lt_top_iff_ne_top, ← Bool.not_eq_true, ← number_eq_nan_iff]
  rfl

/-- **The total order of singles is the order of their numbers.** -/
theorem compare_eq_cmp (x y : Single) : x.compare y = cmp x.number y.number := by
  unfold compare
  cases hx : x.isNaN with
  | true =>
    have hxn := number_eq_nan_iff.mpr hx
    cases hy : y.isNaN with
    | true => rw [hxn, number_eq_nan_iff.mpr hy, cmp_self_eq_eq]
    | false => exact ((cmp_eq_gt_iff _ _).mpr (hxn ▸ number_lt_nan_iff.mpr hy)).symm
  | false =>
    cases hy : y.isNaN with
    | true =>
      have hyn := number_eq_nan_iff.mpr hy
      exact ((cmp_eq_lt_iff _ _).mpr (hyn ▸ number_lt_nan_iff.mpr hx)).symm
    | false =>
      refine compare_eq_cmp_of_lt_iff ?_ ?_
      · rw [rank_lt_rank_iff, number_lt_number_iff hx hy]
      · rw [rank_lt_rank_iff, number_lt_number_iff hy hx]

/-! ### Integers -/

theorem magnitude_ofMagnitude {negative : Bool} {code : Nat} (h : code < 2 ^ 31) :
    (ofMagnitude negative code).magnitude = code := by
  simp only [ofMagnitude, magnitude, Nat.toUInt32_eq, UInt32.toNat_ofNat']
  split <;> omega

theorem isNegative_ofMagnitude {negative : Bool} {code : Nat} :
    (ofMagnitude negative code).isNegative = negative := by
  simp only [ofMagnitude, isNegative, Nat.toUInt32_eq, UInt32.toNat_ofNat']
  cases negative <;> simp <;> omega

theorem ofMagnitude_magnitude (x : Single) : ofMagnitude x.isNegative x.magnitude = x := by
  have hlt := x.bits.toNat_lt
  have hbits : (if x.isNegative then 0x80000000 else 0) + x.magnitude % 0x80000000 =
      x.bits.toNat := by
    simp only [isNegative, magnitude, decide_eq_true_eq]
    split <;> omega
  rw [ofMagnitude, hbits]
  simp

theorem magnitude_ofInt (n : ℤ) : (ofInt n).magnitude = BinaryFormat.single.ofNat n.natAbs := by
  have hle : BinaryFormat.single.ofNat n.natAbs ≤ 0x7f800000 := Nat.min_le_right _ _
  exact magnitude_ofMagnitude (by omega)

theorem cast_scale : ((BinaryFormat.single.scale : ℕ) : ℚ) = 2 ^ 149 := by
  exact_mod_cast rfl

theorem infiniteUnits_eq : infiniteUnits = 2 ^ 149 * 2 ^ 128 := by
  have hu := BinaryFormat.single.units_encode (m := 2 ^ 23) (k := 254)
    (show 2 ^ 23 ≤ 2 * 2 ^ 23 by omega) (.inr (Nat.le_refl _))
  have hc : BinaryFormat.single.infinity =
      2 ^ BinaryFormat.single.fractionBits * 254 + 2 ^ 23 := by decide
  rw [infiniteUnits, hc, hu]
  norm_num

theorem inRange_of_lt {n : Nat} (h : n < 2 ^ 128) : BinaryFormat.single.InRange n := by
  show 2 ^ 149 * n < infiniteUnits
  rw [infiniteUnits_eq]
  exact Nat.mul_lt_mul_of_pos_left h (Nat.two_pow_pos 149)

theorem signedUnits_ofMagnitude (negative : Bool) {n : Nat} (he : BinaryFormat.single.IsExact n) :
    (ofMagnitude negative (BinaryFormat.single.ofNat n)).signedUnits =
        2 ^ 149 * (if negative then -(n : ℤ) else n) ∧
      (ofMagnitude negative (BinaryFormat.single.ofNat n)).isNaN = false := by
  have hle : BinaryFormat.single.ofNat n ≤ 0x7f800000 := Nat.min_le_right _ _
  have hm : (ofMagnitude negative (BinaryFormat.single.ofNat n)).magnitude =
      BinaryFormat.single.ofNat n := magnitude_ofMagnitude (by omega)
  have hu : (ofMagnitude negative (BinaryFormat.single.ofNat n)).units = 2 ^ 149 * n := by
    rw [units, hm]
    exact he
  constructor
  · rw [signedUnits, isNegative_ofMagnitude, hu]
    split <;> push_cast <;> ring
  · rw [isNaN, hm, decide_eq_false_iff_not, not_lt]
    exact hle

theorem signedUnits_ofInt {n : ℤ} (he : BinaryFormat.single.IsExact n.natAbs) :
    (ofInt n).signedUnits = 2 ^ 149 * n ∧ (ofInt n).isNaN = false := by
  obtain ⟨hs, hnan⟩ := signedUnits_ofMagnitude (decide (n < 0)) he
  refine ⟨hs.trans (congrArg (2 ^ 149 * ·) ?_), hnan⟩
  by_cases h : n < 0
  · rw [if_pos (decide_eq_true h)]
    omega
  · rw [if_neg (by simpa using h)]
    omega

theorem number_ofInt {n : ℤ} (hn : n.natAbs < 2 ^ 128)
    (he : BinaryFormat.single.IsExact n.natAbs) : (ofInt n).number = .ofRat n := by
  obtain ⟨hs, hnan⟩ := signedUnits_ofInt he
  have hr : 2 ^ 149 * n.natAbs < infiniteUnits := inRange_of_lt hn
  rcases number_cases hnan with ⟨hx, -⟩ | ⟨-, hu⟩ | ⟨-, hu⟩
  · rw [hx, hs]
    rw [Int.cast_mul, Int.cast_pow, Int.cast_ofNat, mul_div_cancel_left₀ _ (by positivity)]
  · omega
  · omega

theorem isExact_of_number_eq {x : Single} {n : ℤ} (hn : n.natAbs < 2 ^ 128)
    (h : x.number = .ofRat n) : BinaryFormat.single.IsExact n.natAbs := by
  have hnan : x.isNaN = false := by
    rw [← number_lt_nan_iff, h]
    exact Number.ofRat_lt_nan _
  rw [BinaryFormat.single.isExact_iff (inRange_of_lt hn)]
  rcases number_cases hnan with ⟨hx, hu⟩ | ⟨hx, -⟩ | ⟨hx, -⟩
  · rw [h] at hx
    have hq : (n : ℚ) = x.signedUnits / 2 ^ 149 := Number.ofRat_injective hx
    have hs : x.signedUnits = 2 ^ 149 * n := by
      have hq' : (x.signedUnits : ℚ) = 2 ^ 149 * n := by
        rw [hq]
        field_simp
      exact_mod_cast hq'
    refine ⟨x.magnitude, BinaryFormat.single.units_strictMono.lt_iff_lt.mp hu, ?_⟩
    show x.units = 2 ^ 149 * n.natAbs
    unfold signedUnits at hs
    split at hs <;> omega
  · rw [h] at hx
    cases hx
  · rw [h] at hx
    cases hx

/-- The test in double precision is exact. -/
theorem ofIntExact?_eq {n : ℤ} (hn : n.natAbs < 2 ^ 53) :
    ofIntExact? n =
      if BinaryFormat.single.IsExact n.natAbs then some (ofInt n) else none := by
  unfold ofIntExact?
  simp only [magnitude_ofInt, BinaryFormat.convert_ofNat_eq_iff hn]

/-- **The test for exactness decides whether some single is the integer.** -/
theorem ofIntExact?_cases {n : ℤ} (hn : n.natAbs < 2 ^ 53) :
    (∃ x, ofIntExact? n = some x ∧ x.number = .ofRat n) ∨
    (ofIntExact? n = none ∧ ¬ ∃ x : Single, x.number = .ofRat n) := by
  have hlt : n.natAbs < 2 ^ 128 := by omega
  rw [ofIntExact?_eq hn]
  split
  · rename_i he
    exact .inl ⟨ofInt n, rfl, number_ofInt hlt he⟩
  · rename_i he
    refine .inr ⟨rfl, ?_⟩
    rintro ⟨x, hx⟩
    exact he (isExact_of_number_eq hlt hx)

end Single

end Datum
