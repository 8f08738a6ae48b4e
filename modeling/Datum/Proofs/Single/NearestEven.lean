import Datum.Proofs.Single.Rounding
import Datum.Proofs.Text.Digits
import Mathlib.Algebra.Order.Archimedean.Basic

/-!
# Rounding to the nearest single

Every number that is not negative lies in the interval of an encoding (`exists_roundsTo`), which is the
one that rounding finds, also where it is beyond the finite ones (`nearest_of_roundsTo`).  No other
encoding is nearer to the number, and one at the same distance is odd (`RoundsTo.le_distance`).

So a single is rounded to from numbers of either sign by one rule, `IsNearestEven`, up to half a
spacing above the greatest one, where the infinite ones begin (`ofMagnitude_of_roundsTo`).  The rule
leaves one single of each sign at most (`IsNearestEven.unique`).
-/

namespace Datum

-- the power of the core library, also where algebra has one of its own
attribute [local instance (high)] instPowNat

open Text (signed)

namespace BinaryFormat

variable (f : BinaryFormat)

/-! ### The encoding of a number -/

/-- **Every number lies in the interval of an encoding.** -/
theorem exists_roundsTo {q : ℚ} (hq : 0 ≤ q) : ∃ code, f.RoundsTo code q := by
  -- the encodings on both sides of the number
  have hex : ∃ code, q < f.units code := by
    obtain ⟨n, hn⟩ := exists_nat_gt q
    exact ⟨n, lt_of_lt_of_le hn (Nat.cast_le.mpr (f.units_strictMono.le_apply))⟩
  classical
  obtain ⟨code, hcode⟩ : ∃ code, Nat.find hex = code + 1 := by
    refine Nat.exists_eq_succ_of_ne_zero fun h0 => ?_
    have hlt := Nat.find_spec hex
    rw [h0, units_zero, Nat.cast_zero] at hlt
    exact absurd hlt (not_lt.mpr hq)
  have hhigh : q < f.units (code + 1) := hcode ▸ Nat.find_spec hex
  have hlow : (f.units code : ℚ) ≤ q := not_lt.mp (Nat.find_min hex (by omega))
  have hpred : ((f.units (code - 1) : ℕ) : ℚ) ≤ f.units code :=
    Nat.cast_le.mpr (f.units_strictMono.monotone (Nat.sub_le code 1))
  have hsucc : (f.units (code + 1) : ℚ) < f.units (code + 2) :=
    Nat.cast_lt.mpr (f.units_strictMono (Nat.lt_succ_self _))
  by_cases hbelow : 2 * q < f.units code + f.units (code + 1) ∨
      2 * q = f.units code + f.units (code + 1) ∧ code % 2 = 0
  · refine ⟨code, ?_, ?_, fun hodd => ⟨?_, ?_⟩⟩
    · push_cast
      linarith
    · push_cast
      rcases hbelow with h | ⟨h, -⟩ <;> linarith
    · have hstrict : ((f.units (code - 1) : ℕ) : ℚ) < f.units code :=
        Nat.cast_lt.mpr (f.units_strictMono (by omega))
      push_cast
      linarith
    · push_cast
      rcases hbelow with h | ⟨-, h⟩
      · exact h
      · omega
  · rw [not_or, not_lt] at hbelow
    refine ⟨code + 1, ?_, ?_, fun hodd => ⟨?_, ?_⟩⟩
    · push_cast
      exact hbelow.1
    · push_cast
      linarith
    · push_cast
      refine lt_of_le_of_ne hbelow.1 fun h => ?_
      exact hbelow.2 ⟨h.symm, by omega⟩
    · push_cast
      linarith

theorem nearest_eq_zero {num den : Nat} (hden : 0 < den) (h : 2 * num ≤ den) :
    f.nearest num den = 0 := by
  have hp := f.two_pow_fractionBits_pos
  have hlt : num < 2 * 2 ^ f.fractionBits * 2 ^ 0 * den :=
    Nat.lt_of_lt_of_le (show num < den by omega) (Nat.le_mul_of_pos_left den (by omega))
  have hround : roundHalfEven num (den * 2 ^ 0) = 0 :=
    roundHalfEven_eq (by omega) (by omega) (by omega) (by omega)
  exact f.nearest_of_octave hden hlt (.inl rfl) hround (Nat.zero_le _)

/-- **Rounding finds the encoding in whose interval a number lies, or the infinite one if that is
beyond it.** -/
theorem nearest_of_roundsTo {code num den : Nat} (hbits : f.fractionBits ≠ 0) (hden : 0 < den)
    (h : f.RoundsTo code ((num : ℚ) / den)) : f.nearest num den = min code f.infinity := by
  rcases Nat.eq_zero_or_pos code with rfl | hpos
  · have hq : (0 : ℚ) < den := Nat.cast_pos.mpr hden
    have hone : f.units 1 = 1 := by
      have hnext := f.units_succ 0
      simpa [octave] using hnext
    have hupper := h.upper
    rw [units_zero, hone, ← mul_div_assoc, div_le_iff₀ hq, Nat.zero_add, Nat.cast_one, one_mul]
      at hupper
    rw [Nat.zero_min, f.nearest_eq_zero hden (by exact_mod_cast hupper)]
  rcases Nat.le_total code f.infinity with hinf | hinf
  · rw [f.nearest_eq hbits hden hpos hinf h, Nat.min_eq_left hinf]
  · -- the same spacing, with more finite encodings
    have hwide : ({ f with infinity := code } : BinaryFormat).nearest num den = code :=
      nearest_eq { f with infinity := code } hbits hden hpos (Nat.le_refl code)
        ⟨h.lower, h.upper, h.inside_of_odd⟩
    have hmin : f.nearest num den =
        min (({ f with infinity := code } : BinaryFormat).nearest num den) f.infinity := by
      unfold nearest
      simp only
      rw [Nat.min_assoc, Nat.min_eq_right hinf]
      rfl
    rw [hmin, hwide]

/-! ### Distances -/

namespace RoundsTo

variable {f} {code : Nat} {q : ℚ}

/-- **No other encoding is nearer**, and one at the same distance is odd. -/
theorem le_distance (h : f.RoundsTo code q) (other : Nat) :
    |q - f.units code| < |q - f.units other| ∨
      |q - f.units code| = |q - f.units other| ∧ (code = other ∨ code % 2 = 0) := by
  have hlower := h.lower
  have hupper := h.upper
  push_cast at hlower hupper
  rcases lt_trichotomy other code with hlt | rfl | hlt
  · have hgap : (f.units other : ℚ) < f.units code := Nat.cast_lt.mpr (f.units_strictMono hlt)
    have hnext : (f.units other : ℚ) ≤ f.units (code - 1) :=
      Nat.cast_le.mpr (f.units_strictMono.monotone (Nat.le_sub_one_of_lt hlt))
    rcases lt_or_eq_of_le (show (f.units other : ℚ) + f.units code ≤ 2 * q by linarith) with hq | hq
    · exact .inl ((abs_sub_lt_abs_sub_iff' hgap).mpr hq)
    · refine .inr ⟨((abs_sub_eq_abs_sub_iff hgap).mpr hq.symm).symm, .inr ?_⟩
      by_contra hodd
      have hinside := (h.inside_of_odd (by omega)).1
      push_cast at hinside
      linarith
  · exact .inr ⟨rfl, .inl rfl⟩
  · have hgap : (f.units code : ℚ) < f.units other := Nat.cast_lt.mpr (f.units_strictMono hlt)
    have hnext : (f.units (code + 1) : ℚ) ≤ f.units other :=
      Nat.cast_le.mpr (f.units_strictMono.monotone (Nat.succ_le_of_lt hlt))
    rcases lt_or_eq_of_le (show 2 * q ≤ (f.units code : ℚ) + f.units other by linarith) with hq | hq
    · exact .inl ((abs_sub_lt_abs_sub_iff hgap).mpr hq)
    · refine .inr ⟨(abs_sub_eq_abs_sub_iff hgap).mpr hq, .inr ?_⟩
      by_contra hodd
      have hinside := (h.inside_of_odd (by omega)).2
      push_cast at hinside
      linarith

/-- Which numbers are rounded to an encoding from an even one on. -/
theorem lt_iff (h : f.RoundsTo code q) {bound : Nat} (hpos : 0 < bound) (heven : bound % 2 = 0) :
    code < bound ↔ 2 * q < ((f.units (bound - 1) + f.units bound : ℕ) : ℚ) := by
  constructor
  · intro hlt
    rcases Nat.lt_or_eq_of_le (Nat.le_sub_one_of_lt hlt) with hbelow | hlast
    · have hcode := f.units_strictMono hbelow
      have hnext := f.units_strictMono.monotone (Nat.succ_le_of_lt hlt)
      exact lt_of_le_of_lt h.upper (Nat.cast_lt.mpr (Nat.add_lt_add_of_lt_of_le hcode hnext))
    · -- the encoding before an even one is odd
      have hinside := (h.inside_of_odd (by omega)).2
      rwa [hlast, Nat.sub_add_cancel hpos] at hinside
  · intro hq
    by_contra hge
    have hge := not_lt.mp hge
    have hpred := f.units_strictMono.monotone (Nat.sub_le_sub_right hge 1)
    have hcode := f.units_strictMono.monotone hge
    have hle : ((f.units (bound - 1) + f.units bound : ℕ) : ℚ) ≤ 2 * q :=
      le_trans (Nat.cast_le.mpr (Nat.add_le_add hpred hcode)) h.lower
    exact absurd hq (not_lt.mpr hle)

end RoundsTo

end BinaryFormat

namespace Single

open BinaryFormat (single)

/-! ### The nearest single -/

/-- No finite single is nearer to the number, and if one of another value is as near, then this one is
even. -/
def IsNearestEven (x : Single) (q : ℚ) : Prop :=
  x.isFinite = true ∧ ∀ y : Single, y.isFinite = true →
    |q - x.value| < |q - y.value| ∨
      |q - x.value| = |q - y.value| ∧ (x.value = y.value ∨ x.fractionField % 2 = 0)

def absValue (x : Single) : ℚ :=
  x.units / 2 ^ 149

theorem absValue_nonneg (x : Single) : 0 ≤ x.absValue := by
  unfold absValue
  positivity

theorem absValue_lt_absValue_iff {x y : Single} :
    x.absValue < y.absValue ↔ x.magnitude < y.magnitude := by
  rw [absValue, absValue, div_lt_div_iff_of_pos_right (by positivity), Nat.cast_lt]
  exact single.units_strictMono.lt_iff_lt

theorem value_eq_signed (x : Single) : x.value = signed x.isNegative x.absValue := by
  rw [value_eq, signedUnits, signed, absValue]
  split
  · push_cast
    ring
  · rfl

theorem fractionField_mod_two (x : Single) : x.fractionField % 2 = x.magnitude % 2 := by
  rw [magnitude_eq_fields]
  omega

/-- Numbers of one sign are as far from each other as their magnitudes, and others are further. -/
theorem abs_signed_sub_signed {s : Bool} {a b : ℚ} :
    |signed s a - signed s b| = |a - b| := by
  cases s
  · rfl
  · rw [signed, signed, if_pos rfl, if_pos rfl, ← abs_neg]
    congr 1
    ring

theorem abs_signed_sub_signed_not {s : Bool} {a b : ℚ} (ha : 0 ≤ a) (hb : 0 ≤ b) :
    |signed s a - signed (!s) b| = a + b := by
  cases s
  · rw [signed, signed, if_neg Bool.false_ne_true, Bool.not_false, if_pos rfl, sub_neg_eq_add,
      abs_of_nonneg (add_nonneg ha hb)]
  · rw [signed, signed, if_pos rfl, Bool.not_true, if_neg Bool.false_ne_true, ← neg_add', abs_neg,
      abs_of_nonneg (add_nonneg ha hb)]

theorem le_abs_signed_sub_signed {s t : Bool} {a b : ℚ} (ha : 0 ≤ a) (hb : 0 ≤ b) :
    |a - b| ≤ |signed s a - signed t b| := by
  rcases eq_or_ne t s with rfl | hne
  · rw [abs_signed_sub_signed]
  · obtain rfl : t = !s := by cases s <;> cases t <;> simp_all
    rw [abs_signed_sub_signed_not ha hb, abs_le]
    constructor <;> linarith

theorem abs_sub_units (q : ℚ) (y : Single) :
    |q * single.scale - single.units y.magnitude| = |q - y.absValue| * 2 ^ 149 := by
  have hunit : (0 : ℚ) < 2 ^ 149 := by positivity
  rw [cast_scale, absValue, ← abs_of_pos hunit, ← abs_mul, abs_of_pos hunit, sub_mul,
    div_mul_cancel₀ _ hunit.ne']
  rfl

/-- **The single of an encoding is nearest to the numbers of its interval**, with their sign. -/
theorem isNearestEven_of_roundsTo {negative : Bool} {code : Nat} {q : ℚ} (hq : 0 ≤ q)
    (hcode : code < single.infinity) (h : single.RoundsTo code (q * single.scale)) :
    (ofMagnitude negative code).IsNearestEven (signed negative q) := by
  have hx : (ofMagnitude negative code).magnitude = code :=
    magnitude_ofMagnitude (Nat.lt_trans hcode (by decide))
  have hunit : (0 : ℚ) < 2 ^ 149 := by positivity
  have hneg : (ofMagnitude negative code).isNegative = negative := isNegative_ofMagnitude
  generalize ofMagnitude negative code = x at *
  subst hx
  refine ⟨decide_eq_true hcode, fun y hy => ?_⟩
  have hfar := le_abs_signed_sub_signed (s := negative) (t := y.isNegative) hq y.absValue_nonneg
  have hnear := h.le_distance y.magnitude
  rw [abs_sub_units, abs_sub_units, mul_lt_mul_iff_of_pos_right hunit,
    mul_left_inj' hunit.ne'] at hnear
  rw [x.value_eq_signed, y.value_eq_signed, hneg, abs_signed_sub_signed]
  by_cases heven : x.fractionField % 2 = 0
  · have hle : |q - x.absValue| ≤ |q - y.absValue| := hnear.elim le_of_lt fun h => h.1.le
    exact (lt_or_eq_of_le (hle.trans hfar)).imp_right fun heq => ⟨heq, .inr heven⟩
  · rw [fractionField_mod_two] at heven
    rcases hnear with hlt | ⟨-, hsame⟩
    · exact .inl (hlt.trans_le hfar)
    · -- the same magnitude, which is not zero as it is odd
      have hsame : x.magnitude = y.magnitude := hsame.resolve_right heven
      have habs : x.absValue = y.absValue := by rw [absValue, absValue, units, units, hsame]
      rcases eq_or_ne y.isNegative negative with hsign | hsign
      · rw [hsign, ← habs]
        exact .inr ⟨(abs_signed_sub_signed).symm, .inl rfl⟩
      · obtain hsign : y.isNegative = !negative := by
          cases negative <;> simpa using hsign
        have hpos : 0 < single.units x.magnitude := single.units_pos_iff.mpr (by omega)
        have hxpos : 0 < x.absValue := div_pos (Nat.cast_pos.mpr hpos) hunit
        have hqpos : 0 < q := by
          have hlower := (h.inside_of_odd (by omega)).1
          have hscale : (0 : ℚ) < single.scale := Nat.cast_pos.mpr (Nat.two_pow_pos _)
          have hnonneg : (0 : ℚ) ≤ ((single.units (x.magnitude - 1) + single.units x.magnitude : ℕ) : ℚ) :=
            Nat.cast_nonneg _
          exact (mul_pos_iff_of_pos_right hscale).mp (by linarith)
        rw [hsign, abs_signed_sub_signed_not hq y.absValue_nonneg, ← habs]
        exact .inl (abs_sub_lt_iff.mpr ⟨by linarith, by linarith⟩)

namespace IsNearestEven

variable {x y : Single} {q : ℚ}

theorem isInfinite (h : x.IsNearestEven q) : x.isInfinite = false := by
  have hfin : x.magnitude < single.infinity := of_decide_eq_true h.1
  rw [Single.isInfinite, beq_eq_false_iff_ne]
  exact hfin.ne

theorem number_eq (h : x.IsNearestEven q) (hy : y.number = .ofRat q) : x.number = .ofRat q := by
  have hfin : y.isFinite = true := by
    rw [← Bool.not_eq_false]
    intro hnot
    rcases number_of_not_isFinite hnot with hn | hn | hn <;> rw [hn] at hy <;> cases hy
  have hvalue : y.value = q := by
    rw [number_of_isFinite hfin, ← value_eq] at hy
    exact Number.ofRat_injective hy
  have hle : |q - x.value| ≤ 0 := by
    have hnear := (h.2 y hfin).elim le_of_lt fun h => h.1.le
    rwa [hvalue, sub_self, abs_zero] at hnear
  have hx : x.value = q := (sub_eq_zero.mp (abs_nonpos_iff.mp hle)).symm
  rw [number_of_isFinite h.1, ← value_eq, hx]

/-- Two even singles of one sign are not both nearest, as there is another between them. -/
theorem not_lt_of_even (hx : x.IsNearestEven q) (hy : y.IsNearestEven q)
    (hsign : x.isNegative = y.isNegative) (hex : x.fractionField % 2 = 0)
    (hey : y.fractionField % 2 = 0) (heq : |q - x.value| = |q - y.value|) :
    ¬x.magnitude < y.magnitude := by
  intro hlt
  rw [fractionField_mod_two] at hex hey
  have hinf : y.magnitude < single.infinity := of_decide_eq_true hy.1
  have hz : (ofMagnitude x.isNegative (x.magnitude + 1)).magnitude = x.magnitude + 1 :=
    magnitude_ofMagnitude (Nat.lt_of_le_of_lt hlt (Nat.lt_trans hinf (by decide)))
  have hzsign : (ofMagnitude x.isNegative (x.magnitude + 1)).isNegative = x.isNegative :=
    isNegative_ofMagnitude
  generalize ofMagnitude x.isNegative (x.magnitude + 1) = z at *
  have hxz : x.absValue < z.absValue := absValue_lt_absValue_iff.mpr (by omega)
  have hzy : z.absValue < y.absValue := absValue_lt_absValue_iff.mpr (by omega)
  have hnear := (hx.2 z (decide_eq_true (by omega))).elim le_of_lt fun h => h.1.le
  -- what has the same sign is compared by magnitude
  obtain ⟨r, rfl⟩ : ∃ r, q = signed x.isNegative r :=
    ⟨signed x.isNegative q, by cases x.isNegative <;> simp [signed]⟩
  rw [value_eq_signed, value_eq_signed, ← hsign, abs_signed_sub_signed, abs_signed_sub_signed,
    abs_sub_eq_abs_sub_iff (hxz.trans hzy)] at heq
  rw [value_eq_signed, value_eq_signed, hzsign, abs_signed_sub_signed, abs_signed_sub_signed,
    ← not_lt, abs_sub_lt_abs_sub_iff' hxz] at hnear
  linarith

/-- **There is one nearest single of a sign.** -/
theorem unique (hx : x.IsNearestEven q) (hy : y.IsNearestEven q)
    (hsign : x.isNegative = y.isNegative) : x = y := by
  have hsame (h : x.value = y.value) : x.magnitude = y.magnitude := by
    have habs : x.absValue = y.absValue := by
      rw [value_eq_signed, value_eq_signed, hsign] at h
      cases hs : y.isNegative <;> simpa [hs, signed] using h
    have hxy := absValue_lt_absValue_iff.not.mp habs.not_lt
    have hyx := absValue_lt_absValue_iff.not.mp habs.not_gt
    omega
  have hmagnitude : x.magnitude = y.magnitude := by
    rcases hx.2 y hy.1 with hlt | ⟨heq, hex⟩ <;> rcases hy.2 x hx.1 with hgt | ⟨heq', hey⟩
    · exact absurd hgt hlt.not_gt
    · exact absurd heq' hlt.ne'
    · exact absurd heq hgt.ne'
    · by_cases hvalue : x.value = y.value
      · exact hsame hvalue
      have hex := hex.resolve_left hvalue
      have hey := hey.resolve_left (Ne.symm hvalue)
      have hxy := hx.not_lt_of_even hy hsign hex hey heq
      have hyx := hy.not_lt_of_even hx hsign.symm hey hex heq.symm
      omega
  rw [← x.ofMagnitude_magnitude, ← y.ofMagnitude_magnitude, hsign, hmagnitude]

end IsNearestEven

/-! ### The end of the range -/

/-- Half a spacing above the greatest finite single. -/
theorem two_mul_bound :
    ((single.units (single.infinity - 1) + single.units single.infinity : ℕ) : ℚ) =
      2 * ((2 ^ 128 - 2 ^ 103) * single.scale) := by
  have hgreatest := single.units_encode (m := 2 ^ 24 - 1) (k := 253)
    (show 2 ^ 24 - 1 ≤ 2 * 2 ^ 23 by omega) (.inr (show 2 ^ 23 ≤ 2 ^ 24 - 1 by omega))
  have hcode : single.infinity - 1 = 2 ^ single.fractionBits * 253 + (2 ^ 24 - 1) := by decide
  have hscale : single.scale = 2 ^ 149 := rfl
  rw [hcode, hgreatest, show single.units single.infinity = 2 ^ 149 * 2 ^ 128 from infiniteUnits_eq,
    hscale]
  norm_num

/-- **The infinite encoding is reached half a spacing above the greatest finite one.** -/
theorem lt_infinity_iff {code : Nat} {q : ℚ} (h : single.RoundsTo code (q * single.scale)) :
    code < single.infinity ↔ q < 2 ^ 128 - 2 ^ 103 := by
  have hscale : (0 : ℚ) < single.scale := Nat.cast_pos.mpr (Nat.two_pow_pos _)
  rw [h.lt_iff (by decide) (by decide), two_mul_bound, mul_lt_mul_iff_of_pos_left two_pos,
    mul_lt_mul_iff_of_pos_right hscale]

/-- **Rounding gives the nearest single, or the infinity from half a spacing above the greatest finite
single on.** -/
theorem ofMagnitude_of_roundsTo (negative : Bool) {code : Nat} {q : ℚ} (hq : 0 ≤ q)
    (h : single.RoundsTo code (q * single.scale)) :
    (2 ^ 128 - 2 ^ 103 ≤ q →
      ofMagnitude negative (min code single.infinity) = infinity negative) ∧
    (q < 2 ^ 128 - 2 ^ 103 →
      (ofMagnitude negative (min code single.infinity)).isNegative = negative ∧
      (ofMagnitude negative (min code single.infinity)).IsNearestEven (signed negative q)) := by
  constructor
  · intro hge
    have hinf : single.infinity ≤ code := not_lt.mp ((lt_infinity_iff h).not.mpr (not_lt.mpr hge))
    rw [Nat.min_eq_right hinf]
    rfl
  · intro hfin
    have hcode := (lt_infinity_iff h).mpr hfin
    rw [Nat.min_eq_left hcode.le]
    exact ⟨isNegative_ofMagnitude, isNearestEven_of_roundsTo hq hcode h⟩

end Single

end Datum
