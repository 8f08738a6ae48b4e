import Datum.Json.Number
import Datum.Proofs.Single.Text

/-!
# The number of a decimal

A decimal of nine digits is written with so few digits that all of them fit the significand that is
read back, which then is the decimal itself (`significand_ofDecimal`).
-/

namespace Datum

-- the power of the core library, also where algebra has one of its own
attribute [local instance (high)] instPowNat

namespace Json.Number

/-- A number as it is written: positional if the first digit is near the point, and otherwise with
an exponent. -/
def ofDecimal (negative : Bool) (d : Decimal) : Number :=
  let e := d.leadingExponent
  if -6 ≤ e ∧ e ≤ 12 then
    ⟨negative, d.split.1, if d.split.2 = [] then ['0'] else d.split.2, none⟩
  else
    ⟨negative, d.digitText.take 1, d.digitText.drop 1, some e⟩

theorem ofSingle_eq (x : Single) : ofSingle x = ofDecimal x.isNegative (x.shortest .toEven) := rfl

theorem takeDigits_eq {digits : List Char} {n : Nat}
    (h : Nat.ofDigitChars 10 digits n < UInt64.size) :
    takeDigits n digits = (Nat.ofDigitChars 10 digits n, []) := by
  induction digits generalizing n with
  | nil => rfl
  | cons c digits ih =>
    rw [Nat.ofDigitChars_cons] at h ⊢
    rw [takeDigits, if_pos (Nat.lt_of_le_of_lt (Text.le_ofDigitChars digits _) h), ih h]

theorem significand_eq {n : Number}
    (h : Nat.ofDigitChars 10 (n.whole ++ n.fraction) 0 < UInt64.size) :
    n.significand = (Nat.ofDigitChars 10 (n.whole ++ n.fraction) 0,
      n.exponent.getD 0 - n.fraction.length) := by
  rw [Nat.ofDigitChars_append] at h ⊢
  have hwhole := takeDigits_eq (Nat.lt_of_le_of_lt (Text.le_ofDigitChars n.fraction _) h)
  rw [significand, hwhole]
  simp only [takeDigits_eq h]
  simp

variable {d : Decimal}

/-- A positional number without digits behind the point has thirteen digits at most. -/
theorem shifted_lt (hexp : 0 ≤ d.exponent) (hnear : d.leadingExponent ≤ 12) :
    d.digits * 10 ^ d.exponent.toNat < 10 ^ 13 := by
  have hpos : 0 < d.digitText.length := Nat.length_toDigits_pos
  have hlt : d.digits < 10 ^ d.digitText.length :=
    (Nat.length_toDigits_le_iff (by decide) hpos).mp (Nat.le_refl _)
  rw [Decimal.leadingExponent] at hnear
  calc d.digits * 10 ^ d.exponent.toNat
      < 10 ^ d.digitText.length * 10 ^ d.exponent.toNat :=
        Nat.mul_lt_mul_of_pos_right hlt (Nat.pow_pos (by decide))
    _ = 10 ^ (d.digitText.length + d.exponent.toNat) := (Nat.pow_add _ _ _).symm
    _ ≤ 10 ^ 13 := Nat.pow_le_pow_right (by decide) (by omega)

/-- **The significand of a decimal is read back**, or that of a whole number with a zero behind the
point. -/
theorem significand_ofDecimal (hd : d.digits < 10 ^ 9) :
    (ofDecimal false d).significand = (d.digits, d.exponent) ∨
      ∃ n : ℕ, n < 10 ^ 13 ∧ d.value = n ∧ (ofDecimal false d).significand = (10 * n, -1) := by
  have hvalue : Nat.ofDigitChars 10 d.digitText 0 = d.digits := Nat.ofDigitChars_ten_toDigits
  obtain ⟨hsplit, hlength⟩ := d.split_digits
  unfold ofDecimal
  simp only
  split
  · rename_i hnear
    by_cases hpoint : d.split.2 = []
    · rw [hpoint, List.append_nil] at hsplit
      rw [hpoint, List.length_nil] at hlength
      have hexp : (d.exponent.toNat : ℤ) = d.exponent := Int.toNat_of_nonneg (by omega)
      have hlt := shifted_lt (show 0 ≤ d.exponent by omega) hnear.2
      have hdigits : Nat.ofDigitChars 10 (d.split.1 ++ ['0']) 0 =
          10 * (d.digits * 10 ^ d.exponent.toNat) := by
        rw [Nat.ofDigitChars_append, hsplit]
        rfl
      right
      refine ⟨d.digits * 10 ^ d.exponent.toNat, hlt, ?_, ?_⟩
      · rw [Decimal.value, ← hexp, zpow_natCast, hexp]
        push_cast
        rfl
      · rw [if_pos hpoint, significand_eq] <;> rw [hdigits]
        · rfl
        · exact Nat.lt_of_lt_of_le (show _ < 10 ^ 14 by omega) (by decide)
    · left
      have hneg : d.split.2.length ≠ 0 := List.length_eq_zero_iff.not.mpr hpoint
      have hzero : d.exponent.toNat = 0 := by omega
      rw [hzero, Nat.pow_zero, Nat.mul_one] at hsplit
      rw [if_neg hpoint, significand_eq] <;> rw [hsplit]
      · simp only [hlength, Option.getD_none]
        congr 1
        omega
      · exact Nat.lt_trans hd (by decide)
  · left
    have htext : Nat.ofDigitChars 10 (d.digitText.take 1 ++ d.digitText.drop 1) 0 = d.digits := by
      rw [List.take_append_drop, hvalue]
    rw [significand_eq] <;> rw [htext]
    · simp [Decimal.leadingExponent]
    · exact Nat.lt_trans hd (by decide)

def magnitude? (significand : Nat) (exponent : Int) : Option Nat :=
  (scaled? significand exponent).map fun x =>
    BinaryFormat.single.nearest (BinaryFormat.double.units x * BinaryFormat.single.scale)
      BinaryFormat.double.scale

/-- A decimal is never read as a whole number, since it has a point or an exponent. -/
theorem word?_ofDecimal (negative : Bool) (d : Decimal) : (ofDecimal negative d).word? = none := by
  have hwhole : (ofDecimal negative d).fraction ≠ [] ∨ (ofDecimal negative d).exponent ≠ none := by
    unfold ofDecimal
    simp only
    split
    · left
      simp only
      split
      · exact List.cons_ne_nil _ _
      · assumption
    · exact .inr (Option.some_ne_none _)
  rw [word?, toInt?, if_pos (hwhole.elim .inl fun h => .inr (.inl h))]
  rfl

/-- A decimal is read through its significand, in which the sign has no part. -/
theorem toSingle?_ofDecimal (negative : Bool) (d : Decimal) :
    (ofDecimal negative d).toSingle? =
      (magnitude? (ofDecimal false d).significand.1 (ofDecimal false d).significand.2).map
        (Single.ofMagnitude negative) := by
  have hsign : (ofDecimal negative d).negative = negative ∧
      (ofDecimal negative d).significand = (ofDecimal false d).significand := by
    unfold ofDecimal
    simp only
    split <;> exact ⟨rfl, rfl⟩
  rw [toSingle?, word?_ofDecimal, magnitude?, Option.map_map, hsign.1, hsign.2]
  rfl

end Json.Number

end Datum
