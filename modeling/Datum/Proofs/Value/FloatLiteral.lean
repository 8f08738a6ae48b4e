import Datum.Proofs.Coercion.Numbers
import Datum.Proofs.Single.Grammar
import Datum.Proofs.Single.Numeral
import Datum.Proofs.Value.Grouping
import Datum.Proofs.Value.IntegerLiteral

/-!
# Float literals

A text is a float literal if it is one by the grammar, apart from the blanks around it, and a numeral
is the single nearest to its value or out of range (`parse_float_accepts`).

An integer literal is a numeral without a point and an exponent, so it is a float literal too.  Reading
it as an integer and casting that gives the same float, except that a cast zero has no sign
(`parse_float_of_integer_literal`).
-/

namespace Datum

open Text (signed)

namespace Single

variable {text : String} {negative : Bool}

/-! ### The words -/

theorem number_infinity (negative : Bool) :
    (infinity negative).number = if negative then .negInfinity else .posInfinity := by
  cases negative <;> rfl

theorem ofText_of_infinity (h : IsLiteral (Text.trimAscii text) negative .infinity) :
    ofText text = .ok (infinity negative) := by
  rw [ofText_of_isLiteral h, if_neg fun h => h.2 rfl]
  rfl

theorem ofText_of_nan (h : IsLiteral (Text.trimAscii text) negative .nan) :
    ∃ x, ofText text = .ok x ∧ x.isNaN = true := by
  have hdenote : (denote negative .nan).isNaN = true ∧ (denote negative .nan).isInfinite = false := by
    cases negative <;> decide
  rw [ofText_of_isLiteral h, if_neg (by simp [hdenote.2])]
  exact ⟨_, rfl, hdenote.1⟩

/-! ### Numerals -/

/-- **A numeral is out of range or read as the nearest single.** -/
theorem ofText_of_number {n : Numeral} (h : IsLiteral (Text.trimAscii text) negative (.number n)) :
    (2 ^ 128 - 2 ^ 103 ≤ n.value ∧ ofText text = .error .outOfRange) ∨
    (n.value < 2 ^ 128 - 2 ^ 103 ∧ ∃ x, ofText text = .ok x ∧ x.isNegative = negative ∧
      x.IsNearestEven (signed negative n.value)) := by
  obtain ⟨hfar, hnear⟩ := denote_number negative n
  rw [ofText_of_isLiteral h]
  rcases le_or_gt (2 ^ 128 - 2 ^ 103) n.value with hle | hlt
  · refine .inl ⟨hle, if_pos ⟨?_, by rintro ⟨⟩⟩⟩
    rw [hfar hle]
    cases negative <;> rfl
  · obtain ⟨hsign, hnearest⟩ := hnear hlt
    refine .inr ⟨hlt, _, if_neg ?_, hsign, hnearest⟩
    simp [hnearest.isInfinite]

/-! ### One number -/

theorem compare_eq_and_zeros_or_eq {x y : Single} {q : ℚ} (hx : x.number = .ofRat q)
    (hy : y.number = .ofRat q) :
    x.compare y = .eq ∧ ((x.magnitude = 0 ∧ y.magnitude = 0) ∨ x = y) := by
  have hcompare : x.compare y = .eq := by
    rw [compare_eq_cmp, hx, hy, cmp_self_eq_eq]
  have hnan {z : Single} (hz : z.number = .ofRat q) : z.isNaN = false := by
    rw [← Bool.not_eq_true, ← number_eq_nan_iff, hz]
    rintro ⟨⟩
  refine ⟨hcompare, ?_⟩
  rw [compare, hnan hx, hnan hy] at hcompare
  exact (zeros_or_eq_of_rank_eq (Int.compare_eq_eq.mp hcompare)).imp_right (congrArg Single.mk)

end Single

namespace Value

open Single (IsLiteral Numeral)

theorem parse_float_eq_ok_iff {text : String} {x : Single} :
    parse .float text = .ok (float x) ↔ Single.ofText text = .ok x :=
  map_mapError_eq_ok_iff fun _ _ => float.inj

theorem parse_float_eq_error_iff {text : String} {e : TypeError} :
    parse .float text = .error e ↔
      ∃ fault, Single.ofText text = .error fault ∧ e = fault.toError text :=
  map_mapError_eq_error_iff

theorem parse_float_cases (text : String) :
    (parse .float text = .error (.invalidLiteral text .float
        (if Text.trimAscii text = [] then "empty literal" else "not a decimal number")) ∧
      ¬∃ negative m, IsLiteral (Text.trimAscii text) negative m) ∨
    (∃ negative n, IsLiteral (Text.trimAscii text) negative (.number n) ∧
      2 ^ 128 - 2 ^ 103 ≤ n.value ∧ parse .float text = .error (.numericOverflow text .float)) ∨
    (∃ negative m x, IsLiteral (Text.trimAscii text) negative m ∧
      parse .float text = .ok (float x) ∧ (x.isInfinite = true → m = .infinity)) := by
  by_cases h : ∃ negative m, IsLiteral (Text.trimAscii text) negative m
  · obtain ⟨negative, m, hm⟩ := h
    cases m with
    | infinity =>
      exact .inr (.inr ⟨negative, _, _, hm,
        parse_float_eq_ok_iff.mpr (Single.ofText_of_infinity hm), fun _ => rfl⟩)
    | nan =>
      obtain ⟨x, hx, hnan⟩ := Single.ofText_of_nan hm
      refine .inr (.inr ⟨negative, _, x, hm, parse_float_eq_ok_iff.mpr hx, fun hinf => ?_⟩)
      simp only [Single.isNaN, Single.isInfinite, decide_eq_true_iff, beq_iff_eq] at hnan hinf
      omega
    | number n =>
      rcases Single.ofText_of_number hm with ⟨hle, herr⟩ | ⟨-, x, hx, -, hnearest⟩
      · exact .inr (.inl ⟨negative, n, hm, hle, parse_float_eq_error_iff.mpr ⟨_, herr, rfl⟩⟩)
      · refine .inr (.inr ⟨negative, _, x, hm, parse_float_eq_ok_iff.mpr hx, fun hinf => ?_⟩)
        rw [hnearest.isInfinite] at hinf
        cases hinf
  · refine .inl ⟨parse_float_eq_error_iff.mpr ⟨_, Single.ofText_of_not_isLiteral h, ?_⟩, h⟩
    split <;> rfl

/-- **A float literal is one by the grammar**, apart from the blanks around it, and anything else is
refused as no literal.  The words are the infinities and what is not a number.  A numeral is out of
range from half a spacing above the greatest finite float on, and otherwise it is the nearest float,
which keeps its sign.  So only a word is read as an infinity, and to tell these words from the other literals
it is enough to search the text for the letters `inf`. -/
theorem parse_float_accepts (text : String) :
    (∀ t k reason, parse .float text = .error (.invalidLiteral t k reason) ↔
      (t = text ∧ k = .float ∧ reason =
        (if Text.trimAscii text = [] then "empty literal" else "not a decimal number")) ∧
      ¬∃ negative m, IsLiteral (Text.trimAscii text) negative m) ∧
    (∀ negative, IsLiteral (Text.trimAscii text) negative .infinity →
      ∃ x, parse .float text = .ok (float x) ∧
        x.number = if negative then .negInfinity else .posInfinity) ∧
    (∀ negative, IsLiteral (Text.trimAscii text) negative .nan →
      ∃ x, parse .float text = .ok (float x) ∧ x.number = .nan) ∧
    (∀ negative n, IsLiteral (Text.trimAscii text) negative (.number n) →
      (parse .float text = .error (.numericOverflow text .float) ↔ 2 ^ 128 - 2 ^ 103 ≤ n.value) ∧
      (n.value < 2 ^ 128 - 2 ^ 103 → ∃ x, parse .float text = .ok (float x) ∧
        ∀ y, y = x ↔ y.isNegative = negative ∧ y.IsNearestEven (signed negative n.value))) ∧
    (∀ x, parse .float text = .ok (float x) → x.isInfinite = true →
      ∃ negative, IsLiteral (Text.trimAscii text) negative .infinity) ∧
    (∀ negative m, IsLiteral (Text.trimAscii text) negative m →
      ("inf".toList <:+: (Text.trimAscii text).map Char.toLower ↔ m = .infinity)) := by
  refine ⟨fun t k reason => ?_, fun negative h => ?_, fun negative h => ?_, fun negative n h => ?_,
    fun x hx hinf => ?_, fun negative m h => h.infix_iff⟩
  · rcases parse_float_cases text with ⟨hread, hnone⟩ | ⟨s, n, h, -, hread⟩ | ⟨s, m, x, h, hread, -⟩
    · simp only [hread, hnone, not_false_iff, and_true, Except.error.injEq,
        TypeError.invalidLiteral.injEq, eq_comm]
    · rw [hread]
      exact iff_of_false (by rintro ⟨⟩) fun hno => hno.2 ⟨_, _, h⟩
    · rw [hread]
      exact iff_of_false (by rintro ⟨⟩) fun hno => hno.2 ⟨_, _, h⟩
  · exact ⟨_, parse_float_eq_ok_iff.mpr (Single.ofText_of_infinity h), Single.number_infinity negative⟩
  · obtain ⟨x, hx, hnan⟩ := Single.ofText_of_nan h
    exact ⟨x, parse_float_eq_ok_iff.mpr hx, Single.number_eq_nan_iff.mpr hnan⟩
  · rcases Single.ofText_of_number h with ⟨hle, herr⟩ | ⟨hlt, x, hx, hsign, hnearest⟩
    · exact ⟨iff_of_true (parse_float_eq_error_iff.mpr ⟨_, herr, rfl⟩) hle,
        fun hlt => absurd hlt (not_lt.mpr hle)⟩
    · have hread := parse_float_eq_ok_iff.mpr hx
      refine ⟨iff_of_false ?_ (not_le.mpr hlt), fun _ => ⟨x, hread, fun y => ?_⟩⟩
      · rw [hread]
        rintro ⟨⟩
      · constructor
        · rintro rfl
          exact ⟨hsign, hnearest⟩
        · rintro ⟨hy, hynearest⟩
          exact hynearest.unique hnearest (hy.trans hsign.symm)
  · rcases parse_float_cases text with ⟨hread, -⟩ | ⟨s, n, -, -, hread⟩ | ⟨s, m, y, h, hread, hy⟩
    · rw [hread] at hx
      cases hx
    · rw [hread] at hx
      cases hx
    · rw [hread] at hx
      obtain rfl := float.inj (Except.ok.inj hx)
      obtain rfl := hy hinf
      exact ⟨s, h⟩

/-- The least number that is out of range, one just below it, and an infinity. -/
theorem parse_float_accepts_around_the_bound :
    parse .float "340282356779733661637539395458142568448" =
      .error (.numericOverflow "340282356779733661637539395458142568448" .float) ∧
    (∃ x, parse .float " -3402823567797336616375393954581425684479E-1\n" = .ok (float x) ∧
      x.isNegative = true ∧ x.IsNearestEven (-340282356779733661637539395458142568447.9)) ∧
    ∃ x, parse .float "-iNfinity" = .ok (float x) ∧ x.number = .negInfinity := by
  have hbound : IsLiteral (Text.trimAscii "340282356779733661637539395458142568448") false
      (.number ⟨"340282356779733661637539395458142568448".toList, [], 0⟩) :=
    ⟨[], _, rfl, .none, .number ⟨_, [], rfl, .whole (by decide) (by decide), .none⟩⟩
  have hbelow : IsLiteral
      (Text.trimAscii " -3402823567797336616375393954581425684479E-1\n") true
      (.number ⟨"3402823567797336616375393954581425684479".toList, [], -1⟩) :=
    ⟨['-'], _, rfl, .minus, .number ⟨_, "E-1".toList, rfl, .whole (by decide) (by decide),
      .power (.inr rfl) .minus (by decide) (by decide)⟩⟩
  have hinf : IsLiteral (Text.trimAscii "-iNfinity") true .infinity :=
    ⟨['-'], _, rfl, .minus, .infinity rfl⟩
  obtain ⟨-, -, -, hnumber, -, -⟩ := parse_float_accepts "340282356779733661637539395458142568448"
  obtain ⟨-, -, -, hnumber', -, -⟩ :=
    parse_float_accepts " -3402823567797336616375393954581425684479E-1\n"
  obtain ⟨-, hword, -, -, -, -⟩ := parse_float_accepts "-iNfinity"
  refine ⟨(hnumber _ _ hbound).1.mpr ?_, ?_, hword true hinf⟩
  · have hdigits : Nat.ofDigitChars 10 "340282356779733661637539395458142568448".toList 0 =
        340282356779733661637539395458142568448 := by decide +kernel
    rw [Numeral.value_of_whole, hdigits]
    norm_num
  · have hdigits : Nat.ofDigitChars 10 "3402823567797336616375393954581425684479".toList 0 =
        3402823567797336616375393954581425684479 := by decide +kernel
    have hvalue : Numeral.value ⟨"3402823567797336616375393954581425684479".toList, [], -1⟩ =
        340282356779733661637539395458142568447.9 := by
      rw [Numeral.value_of_whole, hdigits]
      norm_num
    obtain ⟨x, hx, hnearest⟩ := (hnumber' _ _ hbelow).2 (by rw [hvalue]; norm_num)
    rw [hvalue] at hnearest
    exact ⟨x, hx, (hnearest x).mp rfl⟩

/-! ### Integer literals -/

theorem isLiteral_of_denotes {text : List Char} {n : ℤ} (h : Integer.Denotes text n) :
    ∃ negative m, IsLiteral text negative (.number m) ∧ signed negative m.value = n := by
  obtain ⟨sign, negative, digits, rfl, hs, hne, hd, rfl⟩ := h
  refine ⟨negative, ⟨digits, [], 0⟩, ⟨sign, digits, rfl, hs, .number ?_⟩, ?_⟩
  · exact ⟨digits, [], (List.append_nil digits).symm, .whole hne hd, .none⟩
  · rw [Numeral.value_of_whole, zpow_zero, mul_one]
    cases negative <;> simp [signed]

theorem eq_ofInt_of_cast {n : Int32} {w : Value} (hw : (integer n).cast .float = .ok w) :
    w = float (.ofInt n.toInt) ∧ BinaryFormat.single.IsExact n.toInt.natAbs ∧
      (Single.ofInt n.toInt).number = .ofRat n.toInt := by
  have hlt := natAbs_toInt_lt n
  rw [cast_integer_float, Single.ofIntExact?_eq hlt] at hw
  by_cases he : BinaryFormat.single.IsExact n.toInt.natAbs
  · rw [if_pos he] at hw
    exact ⟨(Except.ok.inj hw).symm, he, Single.number_ofInt (by omega) he⟩
  · rw [if_neg he] at hw
    cases hw

theorem cast_eq_or_zero {n : Int32} {x : Single} (hx : x.number = .ofRat n.toInt) {w : Value}
    (hw : (integer n).cast .float = .ok w) :
    w.equals (float x) = true ∧ (w = float x ∨ w = float ⟨0⟩ ∧ x = ⟨0x80000000⟩) := by
  obtain ⟨rfl, he, hnum⟩ := eq_ofInt_of_cast hw
  obtain ⟨hcompare, hsame⟩ := Single.compare_eq_and_zeros_or_eq hnum hx
  refine ⟨decide_eq_true hcompare, ?_⟩
  rcases hsame with ⟨hz, hxz⟩ | heq
  · have hn : n.toInt = 0 := by
      have hs := (Single.signedUnits_ofInt he).1
      rw [Single.signedUnits, Single.units, hz, BinaryFormat.units_zero] at hs
      simp at hs
      omega
    rw [hn, ← x.ofMagnitude_magnitude, hxz]
    cases x.isNegative with
    | false => exact .inl rfl
    | true => exact .inr ⟨rfl, rfl⟩
  · exact .inl (congrArg float heq)

/-- **An integer literal is a float literal of the same number.**  It is read as the nearest float, and
where the integer can be cast to a float, the cast gives an equal one.  Only a zero that is written with
a minus is not the same. -/
theorem parse_float_of_integer_literal (text : String) (n : Int32)
    (h : parse .integer text = .ok (integer n)) :
    ∃ x, parse .float text = .ok (float x) ∧ x.IsNearestEven n.toInt ∧
      ∀ w, (integer n).cast .float = .ok w →
        w.equals (float x) = true ∧ (w = float x ∨ w = float ⟨0⟩ ∧ x = ⟨0x80000000⟩) := by
  have hdenotes := Integer.readSigned_eq_ok_iff.mp (parse_integer_eq_ok_iff.mp h)
  obtain ⟨negative, m, hliteral, hvalue⟩ := isLiteral_of_denotes hdenotes
  rcases Single.ofText_of_number hliteral with ⟨hle, -⟩ | ⟨-, x, hx, -, hnearest⟩
  · -- 32 bits are far from the greatest float
    have habs : m.value = |(n.toInt : ℚ)| := by
      rw [← hvalue]
      cases negative <;> simp [signed, abs_of_nonneg m.value_nonneg]
    have hlt : |(n.toInt : ℚ)| < 2 ^ 53 := by
      rw [← Int.cast_abs, Int.abs_eq_natAbs]
      exact_mod_cast natAbs_toInt_lt n
    rw [habs] at hle
    exact absurd (hle.trans_lt hlt) (by norm_num)
  · rw [hvalue] at hnearest
    refine ⟨x, parse_float_eq_ok_iff.mpr hx, hnearest, fun w hw => ?_⟩
    obtain ⟨-, -, hexact⟩ := eq_ofInt_of_cast hw
    exact cast_eq_or_zero (hnearest.number_eq hexact) hw

/-- A zero with a minus, and the least integer above zero that is no float. -/
theorem parse_float_of_integer_literal_at_zero :
    (parse .integer "-0" = .ok (integer 0) ∧ (integer 0).cast .float = .ok (float ⟨0⟩) ∧
      parse .float "-0" = .ok (float ⟨0x80000000⟩) ∧
      (float ⟨0⟩).equals (float ⟨0x80000000⟩) = true) ∧
    parse .integer "\t+0016777217 " = .ok (integer 16777217) ∧
    ∃ x, parse .float "\t+0016777217 " = .ok (float x) ∧ x.IsNearestEven 16777217 := by
  have hzero : parse .integer "-0" = .ok (integer 0) := rfl
  have hfar : parse .integer "\t+0016777217 " = .ok (integer 16777217) := rfl
  have hcast : (integer 0).cast .float = .ok (float ⟨0⟩) := by
    rw [cast_integer_float, Single.ofIntExact?_eq (natAbs_toInt_lt 0), if_pos (by decide)]
    rfl
  have hread : parse .float "-0" = .ok (float ⟨0x80000000⟩) := by decide
  obtain ⟨x, hx, -, hequal⟩ := parse_float_of_integer_literal _ _ hzero
  obtain ⟨y, hy, hnearest, -⟩ := parse_float_of_integer_literal _ _ hfar
  obtain rfl := float.inj (Except.ok.inj (hread.symm.trans hx))
  exact ⟨⟨hzero, hcast, hread, (hequal _ hcast).1⟩, hfar, y, hy, hnearest⟩

end Value

end Datum
