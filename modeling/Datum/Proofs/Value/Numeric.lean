import Datum.Proofs.Coercion.Numbers
import Datum.Proofs.Single.Rounding

/-!
# Casts between integers and floats

An integer becomes the float of exactly its number or is refused, and its odd part decides which
(`integer_to_float`).  In the other direction a float becomes the integer nearest to it, a half away
from zero, and is refused if it is not finite or that integer has more than 32 bits
(`float_to_integer`).
-/

namespace Datum.Value

-- the power of the core library, also where algebra has one of its own
attribute [local instance (high)] instPowNat

theorem cast_float_integer (x : Single) :
    (float x).cast .integer =
      match x.toInt32? with
      | some n => .ok (integer n)
      | none => .error (.numericOverflow x.toText .integer) := by
  have hp : (float x).IsPayload .float := ⟨rfl, rfl⟩
  rw [cast_of_isPayload hp, if_pos (by decide), if_neg (by decide)]
  rfl

theorem cast_float_integer_eq_ok_iff {x : Single} {n : Int32} :
    (float x).cast .integer = .ok (integer n) ↔ x.RoundsToInt n.toInt := by
  rw [cast_float_integer, ← Single.toInt32?_eq_some_iff]
  cases x.toInt32? <;> simp

/-! ### From integers to floats -/

theorem isExact_toInt_iff (n : Int32) :
    BinaryFormat.single.IsExact n.toInt.natAbs ↔
      n = 0 ∨ n.toInt.natAbs / 2 ^ padicValNat 2 n.toInt.natAbs < 2 ^ 24 := by
  by_cases h0 : n = 0
  · subst h0
    exact iff_of_true (by decide) (.inl rfl)
  have hlt := natAbs_toInt_lt n
  have hne : n.toInt.natAbs ≠ 0 := by
    intro h
    exact h0 (Int32.toInt_inj.mp (Int.natAbs_eq_zero.mp h))
  rw [or_iff_right h0]
  exact BinaryFormat.single.isExact_iff_oddPart hne (Single.inRange_of_lt (by omega))

/-- **An integer becomes a float exactly or not at all.**  It does if its odd part has at most 24
bits, and casting the float back gives the integer again. -/
theorem integer_to_float (n : Int32) :
    ((∃ w, (integer n).cast .float = .ok w) ↔
      n = 0 ∨ n.toInt.natAbs / 2 ^ padicValNat 2 n.toInt.natAbs < 2 ^ 24) ∧
    (∀ w, (integer n).cast .float = .ok w →
      ∃ x : Single, w = float x ∧ x.number = .ofRat n.toInt ∧ (n = 0 → x = ⟨0⟩) ∧
        w.cast .integer = .ok (integer n)) ∧
    (∀ e, (integer n).cast .float = .error e →
      e = .numericOverflow (Integer.toText n.toInt) .float) := by
  have hlt := natAbs_toInt_lt n
  have hcast := cast_integer_float n
  rw [Single.ofIntExact?_eq hlt] at hcast
  rw [← isExact_toInt_iff]
  by_cases he : BinaryFormat.single.IsExact n.toInt.natAbs
  · rw [if_pos he] at hcast
    have hnum := Single.number_ofInt (show n.toInt.natAbs < 2 ^ 128 by omega) he
    refine ⟨iff_of_true ⟨_, hcast⟩ he, fun w hw => ?_, fun e h => ?_⟩
    · obtain rfl := Except.ok.inj (hcast.symm.trans hw)
      refine ⟨_, rfl, hnum, ?_, ?_⟩
      · rintro rfl
        decide
      · exact cast_float_integer_eq_ok_iff.mpr (Single.roundsToInt_of_number_eq hnum)
    · rw [hcast] at h
      cases h
  · rw [if_neg he] at hcast
    refine ⟨iff_of_false ?_ he, fun w hw => ?_, fun e h => ?_⟩
    · rintro ⟨w, hw⟩
      rw [hcast] at hw
      cases hw
    · rw [hcast] at hw
      cases hw
    · exact (Except.error.inj (hcast.symm.trans h)).symm

/-- The greatest integer would be rounded up to 2^31 and is refused. -/
theorem integer_to_float_greatest :
    (integer 2147483647).cast .float = .error (.numericOverflow "2147483647" .float) := by
  obtain ⟨hiff, -, herr⟩ := integer_to_float 2147483647
  have hval : padicValNat 2 (2147483647 : Int32).toInt.natAbs = 0 :=
    padicValNat.eq_zero_of_not_dvd (by decide)
  rw [hval] at hiff
  have hno : ¬∃ w, (integer 2147483647).cast .float = .ok w := by
    rw [hiff]
    decide
  obtain ⟨e, he⟩ := fails_iff.mpr hno
  rw [he, herr e he]
  rfl

/-! ### From floats to integers -/

/-- **A float becomes the integer nearest to it, a half away from zero.**  It is refused if it is not
finite or that integer is out of range.  A greater float never becomes a smaller integer. -/
theorem float_to_integer (x : Single) :
    (∀ n : Int32, (float x).cast .integer = .ok (integer n) ↔ x.RoundsToInt n.toInt) ∧
    (∀ e, (float x).cast .integer = .error e ↔
      e = .numericOverflow x.toText .integer ∧
        (x.number = .nan ∨ x.number = .posInfinity ∨ x.number = .negInfinity ∨
          ∃ n, x.RoundsToInt n ∧ (n < -2 ^ 31 ∨ 2 ^ 31 ≤ n))) ∧
    (∀ (y : Single) (m n : Int32), x.compare y ≠ .gt →
      (float x).cast .integer = .ok (integer m) → (float y).cast .integer = .ok (integer n) →
      m.toInt ≤ n.toInt) := by
  refine ⟨fun n => cast_float_integer_eq_ok_iff, fun e => ?_, fun y m n hxy hm hn => ?_⟩
  · rw [cast_float_integer, ← Single.toInt32?_eq_none_iff]
    cases x.toInt32? with
    | none => simp [eq_comm]
    | some n => simp
  · exact Single.RoundsToInt.mono hxy (cast_float_integer_eq_ok_iff.mp hm)
      (cast_float_integer_eq_ok_iff.mp hn)

/-- Just below a half the nearest integer is zero, and at either half it is away from zero. -/
theorem float_to_integer_at_halves :
    (Single.mk 0x3effffff).RoundsToInt (0 : Int32).toInt ∧
    (Single.mk 0x3f000000).RoundsToInt (1 : Int32).toInt ∧
    (Single.mk 0xbf000000).RoundsToInt (-1 : Int32).toInt :=
  ⟨((float_to_integer _).1 0).mp rfl, ((float_to_integer _).1 1).mp rfl,
    ((float_to_integer _).1 (-1)).mp rfl⟩

end Datum.Value
