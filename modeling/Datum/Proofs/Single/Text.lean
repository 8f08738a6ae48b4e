import Datum.Proofs.Single.Grammar
import Datum.Proofs.Single.Numeral
import Datum.Proofs.Single.Shortest
import Datum.Proofs.Text.Runs
import Datum.Proofs.Value.Literal

/-!
# The text of a single is a literal of it

A decimal is written out as a numeral of the same value (`split_spec`, `isWritten_chars`).  The shortest
decimal of a number lies in the interval of the numbers that are nearest to it, so the numeral is
rounded to the number, and the text is read as the number (`ofText_toText`).
-/

namespace Datum

-- the power of the core library, also where algebra has one of its own
attribute [local instance (high)] instPowNat

open Text (AllDigits)

/-! ### Decimals written out -/

namespace Decimal

/-- The digits on both sides of the point are those of the decimal, with the zeros of a positive
exponent behind them. -/
theorem split_digits (d : Decimal) :
    Nat.ofDigitChars 10 (d.split.1 ++ d.split.2) 0 = d.digits * 10 ^ d.exponent.toNat ∧
      d.split.2.length = (-d.exponent).toNat := by
  have hvalue : Nat.ofDigitChars 10 d.digitText 0 = d.digits := Nat.ofDigitChars_ten_toDigits
  unfold split
  cases d.exponent with
  | ofNat n => exact ⟨by simp [Text.ofDigitChars_append_replicate, hvalue], by simp⟩
  | negSucc n =>
    rw [Int.toNat_negSucc, Int.neg_negSucc, Nat.pow_zero, Nat.mul_one, Int.toNat_natCast]
    simp only
    split
    · rename_i hlt
      rw [List.splitAt_eq]
      refine ⟨by rw [List.take_append_drop, hvalue], ?_⟩
      rw [List.length_drop]
      omega
    · rename_i hge
      have hzeros : ['0'] ++ (List.replicate (n + 1 - d.digitText.length) '0' ++ d.digitText) =
          List.replicate (n + 1 - d.digitText.length + 1) '0' ++ d.digitText := rfl
      refine ⟨by rw [hzeros, Text.ofDigitChars_replicate_append, hvalue], ?_⟩
      rw [List.length_append, List.length_replicate]
      omega

theorem split_cases (d : Decimal) :
    (∃ n, d.split = (d.digitText ++ List.replicate n '0', [])) ∨
    (∃ n, 0 < n ∧ d.split = (d.digitText.take n, d.digitText.drop n)) ∨
    (∃ n, d.split = (['0'], List.replicate n '0' ++ d.digitText)) := by
  unfold split
  cases d.exponent with
  | ofNat n => exact .inl ⟨n, rfl⟩
  | negSucc n =>
    simp only [List.splitAt_eq]
    split
    · exact .inr (.inl ⟨d.digitText.length - (n + 1), by omega, rfl⟩)
    · exact .inr (.inr ⟨_, rfl⟩)

/-- **A decimal is split into digits of its value**, and there is one before the point. -/
theorem split_spec (d : Decimal) :
    d.split.1 ≠ [] ∧ AllDigits d.split.1 ∧ AllDigits d.split.2 ∧
      Single.Numeral.value ⟨d.split.1, d.split.2, 0⟩ = d.value := by
  have hdigits : AllDigits d.digitText := Text.allDigits_toDigits d.digits
  have hne : d.digitText ≠ [] := Nat.toDigits_ne_nil
  have hvalue : Single.Numeral.value ⟨d.split.1, d.split.2, 0⟩ = d.value := by
    obtain ⟨hsplit, hlength⟩ := d.split_digits
    have hexp : (0 : ℤ) - ((-d.exponent).toNat : ℤ) = d.exponent - d.exponent.toNat := by omega
    simp only [Single.Numeral.value, Single.Numeral.digits, Single.Numeral.scale, value]
    rw [hsplit, hlength, hexp, zpow_sub₀ (by norm_num), zpow_natCast]
    push_cast
    field_simp
  have hnil : AllDigits [] := List.forall_mem_nil _
  rcases d.split_cases with ⟨n, h⟩ | ⟨n, hn, h⟩ | ⟨n, h⟩
  · refine ⟨?_, ?_, ?_, hvalue⟩ <;> rw [h]
    · exact List.append_ne_nil_of_left_ne_nil hne _
    · exact hdigits.append (Text.allDigits_replicate_zero n)
    · exact hnil
  · refine ⟨?_, ?_, ?_, hvalue⟩ <;> rw [h]
    · exact fun h => (List.take_eq_nil_iff.mp h).elim hn.ne' hne
    · exact fun c hc => hdigits c (List.mem_of_mem_take hc)
    · exact fun c hc => hdigits c (List.mem_of_mem_drop hc)
  · refine ⟨?_, ?_, ?_, hvalue⟩ <;> rw [h]
    · exact List.cons_ne_nil _ _
    · exact List.forall_mem_singleton.mpr rfl
    · exact (Text.allDigits_replicate_zero n).append hdigits

theorem isWritten_chars (d : Decimal) :
    Single.Numeral.IsWritten ⟨d.split.1, d.split.2, 0⟩ d.chars := by
  obtain ⟨hne, hw, hf, -⟩ := d.split_spec
  refine ⟨d.chars, [], (List.append_nil _).symm, ?_, .none⟩
  simp only [chars]
  split
  · rename_i h
    rw [h]
    exact .whole hne hw
  · exact .point hne hw hf

end Decimal

/-! ### The text of a single -/

namespace Single

open BinaryFormat (single)

variable {x : Single}

/-- The interval of a finite number that is not zero, in decimal. -/
theorem roundsTo_bounds {code : Nat} {q : ℚ} (hpos : 0 < code) (hfin : code < single.infinity)
    (h : single.RoundsTo code (q * single.scale)) :
    (10 : ℚ) ^ (-46 : ℤ) < q ∧ q < 10 ^ (39 : ℤ) := by
  constructor
  · have hone : 1 ≤ single.units (code - 1) + single.units code := by
      have := single.units_pos_iff.mpr hpos
      omega
    have hlower := h.lower
    rw [cast_scale] at hlower
    have hq : (1 : ℚ) ≤ 2 * (q * 2 ^ 149) := le_trans (by exact_mod_cast hone) hlower
    calc (10 : ℚ) ^ (-46 : ℤ) < 1 / 2 ^ 150 := by norm_num
      _ ≤ q := by
        rw [div_le_iff₀ (by positivity)]
        linarith
  · calc q < 2 ^ 128 - 2 ^ 103 := (lt_infinity_iff h).mp hfin
      _ < 10 ^ (39 : ℤ) := by norm_num

theorem shortest_bounds (hfin : x.isFinite = true) (tie : Tie) (h : x.units ≠ 0) :
    (10 : ℚ) ^ (-46 : ℤ) < (x.shortest tie).value ∧ (x.shortest tie).value < 10 ^ (39 : ℤ) :=
  roundsTo_bounds (magnitude_pos h) (magnitude_lt hfin) (shortest_roundsTo tie h)

theorem shortest_digits_ne_zero (hfin : x.isFinite = true) (tie : Tie) (h : x.units ≠ 0) :
    (x.shortest tie).digits ≠ 0 := by
  intro h0
  obtain ⟨hlow, -⟩ := shortest_bounds hfin tie h
  rw [Decimal.value, h0, Nat.cast_zero, zero_mul] at hlow
  exact absurd hlow (not_lt_of_ge (by positivity))

theorem nearest_shortest (hfin : x.isFinite = true) (tie : Tie) (h : x.units ≠ 0) {n : Numeral}
    (hn : n.value = (x.shortest tie).value) :
    single.nearest n.unitFraction.1 n.unitFraction.2 = x.magnitude := by
  have hround := shortest_roundsTo tie h
  rw [← hn] at hround
  rw [Numeral.nearest_unitFraction hround, Nat.min_eq_left (magnitude_lt hfin).le]

theorem denote_shortest (hfin : x.isFinite = true) (tie : Tie) :
    denote x.isNegative
      (.number ⟨(x.shortest tie).split.1, (x.shortest tie).split.2, 0⟩) = x := by
  by_cases h : x.units = 0
  · have hmag := magnitude_eq_zero h
    have hzero : denote x.isNegative (.number ⟨['0'], [], 0⟩) = ofMagnitude x.isNegative 0 := by
      cases x.isNegative <;> decide
    rw [shortest, if_pos h]
    exact hzero.trans (hmag ▸ x.ofMagnitude_magnitude)
  · have hn := nearest_shortest hfin tie h (x.shortest tie).split_spec.2.2.2
    simp only [denote, nearest]
    rw [hn, ofMagnitude_magnitude]

theorem isLiteral_withSign {unsigned : List Char} {m : Magnitude} (h : m.IsWritten unsigned) :
    IsLiteral (x.withSign unsigned) x.isNegative m := by
  rw [withSign]
  cases x.isNegative with
  | false => exact ⟨[], unsigned, rfl, .none, h⟩
  | true => exact ⟨['-'], unsigned, rfl, .minus, h⟩

theorem ofText_of_isFinite (hfin : x.isFinite = true) : ofText x.toText = .ok x := by
  have hlt := magnitude_lt hfin
  have hnan : x.isNaN = false := by
    rw [isNaN, decide_eq_false_iff_not]
    omega
  have hinf : x.isInfinite = false := by
    rw [isInfinite, beq_eq_false_iff_ne]
    omega
  have hplain : x.plainChars = x.withSign (x.shortest .up).chars := by
    rw [plainChars, if_neg (by simp [hnan]), if_neg (by simp [hinf])]
  have hliteral := isLiteral_withSign (x := x) (.number (x.shortest .up).isWritten_chars)
  have htrim : Text.trimAscii x.toText = x.withSign (x.shortest .up).chars := by
    rw [Text.trimAscii, toText, String.toList_ofList, hplain]
    exact Text.trim_eq_self hliteral.not_isAsciiBlank
  rw [← htrim] at hliteral
  rw [ofText_of_isLiteral hliteral, denote_shortest hfin, if_neg (by simp [hinf])]

/-- **The text of a number is read as the number, bit for bit.**  What is not a number is read as
one of its patterns. -/
theorem ofText_toText (x : Single) : ofText x.toText = .ok (if x.isNaN then nan else x) := by
  cases hnan : x.isNaN with
  | true =>
    rw [toText, plainChars, if_pos hnan, if_pos rfl]
    decide
  | false =>
    by_cases hfin : x.isFinite = true
    · exact ofText_of_isFinite hfin
    · have hinf : x.magnitude = single.infinity := by
        simp only [isNaN, isFinite, decide_eq_false_iff_not, decide_eq_true_eq] at hnan hfin
        omega
      have hread : ofText (String.ofList (x.withSign ['i', 'n', 'f'])) =
          .ok (ofMagnitude x.isNegative single.infinity) := by
        rw [withSign]
        cases x.isNegative <;> decide
      rw [← hinf, ofMagnitude_magnitude] at hread
      rw [toText, plainChars, if_neg (by simp [hnan]), if_pos (by simp [isInfinite, hinf])]
      exact hread

end Single

namespace Value

/-- **The text of a float is exact.**  A float is cast to a string of either kind by its text, and the
string is cast back to the float, bit for bit; a float that is not a number is cast back to one that
is not a number either. -/
theorem cast_float_through_string :
    ∀ (x : Single) (s : Kind), s.isString = true →
      (float x).cast s = .ok (.ofBytes s (Utf8.encode x.toText)) ∧
      ∃ y, (ofBytes s (Utf8.encode x.toText)).cast .float = .ok (float y) ∧
        (x.isNaN = false → y = x) ∧ (x.isNaN = true → y.isNaN = true) := by
  intro x s hs
  have hparse : parse .float x.toText = .ok (float (if x.isNaN then .nan else x)) := by
    rw [parse, Single.ofText_toText]
    rfl
  refine ⟨cast_string rfl rfl hs, if x.isNaN then .nan else x, ?_, ?_, ?_⟩
  · rw [cast_ofBytes_encode hs rfl (by decide), hparse]
  · intro h
    rw [h]
    rfl
  · intro h
    rw [h]
    rfl

/-- The least magnitude, the negative zero and the greatest magnitude. -/
theorem cast_float_through_string_at_edges :
    (float ⟨1⟩).cast .text =
      .ok (.text (Utf8.encode "0.000000000000000000000000000000000000000000001")) ∧
    (Value.text (Utf8.encode "0.000000000000000000000000000000000000000000001")).cast .float =
      .ok (float ⟨1⟩) ∧
    (charString (Utf8.encode "-0")).cast .float = .ok (float ⟨0x80000000⟩) ∧
    (charString (Utf8.encode "-340282350000000000000000000000000000000")).cast .float =
      .ok (float ⟨0xff7fffff⟩) := by
  have hleast : (⟨1⟩ : Single).toText = "0.000000000000000000000000000000000000000000001" := by
    decide +kernel
  have hzero : (⟨0x80000000⟩ : Single).toText = "-0" := by decide +kernel
  have hgreatest : (⟨0xff7fffff⟩ : Single).toText = "-340282350000000000000000000000000000000" := by
    decide +kernel
  obtain ⟨hto, y, hback, hy, -⟩ := cast_float_through_string ⟨1⟩ .text rfl
  obtain ⟨-, z, hzback, hz, -⟩ := cast_float_through_string ⟨0x80000000⟩ .charString rfl
  obtain ⟨-, g, hgback, hg, -⟩ := cast_float_through_string ⟨0xff7fffff⟩ .charString rfl
  rw [hleast] at hto hback
  rw [hzero] at hzback
  rw [hgreatest] at hgback
  rw [hy rfl] at hback
  rw [hz rfl] at hzback
  rw [hg rfl] at hgback
  exact ⟨hto, hback, hzback, hgback⟩

end Value

end Datum
