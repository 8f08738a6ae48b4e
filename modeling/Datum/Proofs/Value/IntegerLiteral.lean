import Datum.Proofs.Outcome
import Datum.Proofs.Text.Digits
import Datum.Value.Literal
import Mathlib.Algebra.Ring.Int.Defs

/-!
# Integer literals

A decimal integer is an optional sign and at least one digit (`Denotes`).  A text is an integer literal
if it is a decimal integer of 32 bits, apart from the blanks around it (`parse_integer_accepts`).

Digits are read from the left, and the first fault decides what is reported.  So a text is out of range
as soon as the digits behind its sign are, whatever follows them (`Overruns`); anything else that is
refused is no decimal integer (`parse_integer_refuses`).
-/

namespace Datum

open Text (AllDigits IsSign readSign signed spanDigits)

namespace Integer

/-- The text is a decimal integer, an optional sign and at least one digit, and `n` is its value. -/
def Denotes (text : List Char) (n : ℤ) : Prop :=
  ∃ sign negative digits, text = sign ++ digits ∧ IsSign sign negative ∧
    digits ≠ [] ∧ AllDigits digits ∧ n = signed negative (Nat.ofDigitChars 10 digits 0 : ℤ)

/-- The text begins with an optional sign and digits that are out of range. -/
def Overruns (text : List Char) : Prop :=
  ∃ sign negative digits rest, text = sign ++ (digits ++ rest) ∧ IsSign sign negative ∧
    AllDigits digits ∧ limit negative < Nat.ofDigitChars 10 digits 0

/-! ### Reading digits -/

theorem readDigits_append {limit n : Nat} {digits rest : List Char} (hd : AllDigits digits)
    (hr : ∀ c ∈ rest.head?, c.isDigit = false) (hn : n ≤ limit) :
    readDigits limit n (digits ++ rest) =
      if limit < Nat.ofDigitChars 10 digits n then .error .outOfRange
      else if rest = [] then .ok (Nat.ofDigitChars 10 digits n)
      else .error .notDigits := by
  induction digits generalizing n with
  | nil =>
    rw [List.nil_append, Nat.ofDigitChars_nil, if_neg (Nat.not_lt.mpr hn)]
    cases rest with
    | nil => rfl
    | cons c rest => simp [readDigits, hr c rfl]
  | cons c digits ih =>
    obtain ⟨hc, hd⟩ := List.forall_mem_cons.mp hd
    rw [List.cons_append, readDigits, if_pos hc, Nat.ofDigitChars_cons]
    simp only
    split
    · rename_i hlt
      rw [if_pos (Nat.lt_of_lt_of_le hlt (Text.le_ofDigitChars digits _))]
    · rename_i hle
      exact ih hd (Nat.not_lt.mp hle)

theorem readNatural_append {limit : Nat} {digits rest : List Char} (hd : AllDigits digits)
    (hr : ∀ c ∈ rest.head?, c.isDigit = false) :
    readNatural limit (digits ++ rest) =
      if limit < Nat.ofDigitChars 10 digits 0 then .error .outOfRange
      else if digits ≠ [] ∧ rest = [] then .ok (Nat.ofDigitChars 10 digits 0)
      else .error .notDigits := by
  rw [readNatural, readDigits_append hd hr (Nat.zero_le limit)]
  cases digits with
  | nil => cases rest <;> simp
  | cons c digits => simp

/-! ### Reading behind a sign -/

theorem readSigned_eq (text : List Char) :
    readSigned text =
      if text = [] then .error .empty
      else (readNatural (limit (readSign text).1) (readSign text).2).map fun n : ℕ =>
        Int32.ofInt (signed (readSign text).1 (n : ℤ)) := by
  unfold readSigned readSign
  split
  · rfl
  · rw [if_neg (List.cons_ne_nil _ _)]
    exact bind_pure_comp _ _
  · rw [if_neg (List.cons_ne_nil _ _)]
    exact bind_pure_comp _ _
  · rename_i hne hminus hplus
    rw [if_neg hne]
    split
    · exact absurd rfl (hminus _)
    · exact absurd rfl (hplus _)
    · exact bind_pure_comp _ _

/-! ### Literals -/

section

variable {text body digits rest : List Char} {negative : Bool}

theorem denotes_iff (hsign : readSign text = (negative, body))
    (hspan : spanDigits body = (digits, rest)) {n : ℤ} :
    Denotes text n ↔
      digits ≠ [] ∧ rest = [] ∧ n = signed negative (Nat.ofDigitChars 10 digits 0 : ℤ) := by
  constructor
  · rintro ⟨sign, negative', digits', rfl, hs, hne, hd, rfl⟩
    have hsign' := Text.readSign_append_digits hs hne hd []
    rw [List.append_nil, hsign] at hsign'
    obtain ⟨rfl, rfl⟩ := Prod.mk.inj hsign'
    rw [Text.spanDigits_eq hd] at hspan
    obtain ⟨rfl, rfl⟩ := Prod.mk.inj hspan
    exact ⟨hne, rfl, rfl⟩
  · rintro ⟨hne, rfl, rfl⟩
    obtain ⟨sign, hs, ht⟩ := Text.exists_sign text
    have hbody := Text.eq_append_spanDigits body
    have hd := Text.allDigits_spanDigits body
    rw [hsign] at hs ht
    rw [hspan] at hbody hd
    rw [hbody, List.append_nil] at ht
    exact ⟨sign, negative, digits, ht, hs, hne, hd, rfl⟩

/-- The digits that are out of range can be taken to be all that there are behind the sign. -/
theorem overruns_iff (hsign : readSign text = (negative, body))
    (hspan : spanDigits body = (digits, rest)) :
    Overruns text ↔ limit negative < Nat.ofDigitChars 10 digits 0 := by
  constructor
  · rintro ⟨sign, negative', digits', rest', rfl, hs, hd, hlt⟩
    have hne : digits' ≠ [] := by
      rintro rfl
      exact Nat.not_lt_zero _ hlt
    rw [Text.readSign_append_digits hs hne hd] at hsign
    obtain ⟨rfl, rfl⟩ := Prod.mk.inj hsign
    rw [spanDigits, List.takeWhile_append_of_pos hd] at hspan
    rw [← (Prod.mk.inj hspan).1, Nat.ofDigitChars_append]
    exact Nat.lt_of_lt_of_le hlt (Text.le_ofDigitChars _ _)
  · intro hlt
    obtain ⟨sign, hs, ht⟩ := Text.exists_sign text
    have hbody := Text.eq_append_spanDigits body
    have hd := Text.allDigits_spanDigits body
    rw [hsign] at hs ht
    rw [hspan] at hbody hd
    exact ⟨sign, negative, digits, rest, hbody ▸ ht, hs, hd, hlt⟩

theorem readSigned_of_parts (hsign : readSign text = (negative, body))
    (hspan : spanDigits body = (digits, rest)) :
    readSigned text =
      if text = [] then .error .empty
      else if limit negative < Nat.ofDigitChars 10 digits 0 then .error .outOfRange
      else if digits ≠ [] ∧ rest = [] then
        .ok (.ofInt (signed negative (Nat.ofDigitChars 10 digits 0 : ℤ)))
      else .error .notDigits := by
  have hbody := Text.eq_append_spanDigits body
  have hd := Text.allDigits_spanDigits body
  have hr := Text.head?_spanDigits body
  rw [hspan] at hbody hd hr
  rw [readSigned_eq, hsign]
  simp only
  rw [hbody, readNatural_append hd hr]
  split_ifs <;> rfl

end

theorem limit_lt_iff (negative : Bool) (n : ℕ) :
    limit negative < n ↔ signed negative (n : ℤ) < -2 ^ 31 ∨ 2 ^ 31 ≤ signed negative (n : ℤ) := by
  cases negative
  · simp only [limit, signed, if_neg Bool.false_ne_true]
    omega
  · simp only [limit, signed, if_true]
    omega

theorem exists_parts (text : List Char) : ∃ negative body digits rest,
    readSign text = (negative, body) ∧ spanDigits body = (digits, rest) :=
  ⟨_, _, _, _, rfl, rfl⟩

/-- **A decimal integer overruns if it has more than 32 bits.** -/
theorem overruns_iff_of_denotes {text : List Char} {n : ℤ} (h : Denotes text n) :
    Overruns text ↔ n < -2 ^ 31 ∨ 2 ^ 31 ≤ n := by
  obtain ⟨negative, body, digits, rest, hsign, hspan⟩ := exists_parts text
  obtain ⟨-, -, rfl⟩ := (denotes_iff hsign hspan).mp h
  rw [overruns_iff hsign hspan, limit_lt_iff]

theorem Denotes.unique {text : List Char} {m n : ℤ} (hm : Denotes text m) (hn : Denotes text n) :
    m = n := by
  obtain ⟨negative, body, digits, rest, hsign, hspan⟩ := exists_parts text
  obtain ⟨-, -, rfl⟩ := (denotes_iff hsign hspan).mp hm
  obtain ⟨-, -, rfl⟩ := (denotes_iff hsign hspan).mp hn
  rfl

/-- A text is an integer of 32 bits, or it begins with digits that are out of range, or it is neither
and no decimal integer. -/
theorem readSigned_cases (text : List Char) :
    (∃ n : Int32, readSigned text = .ok n ∧ Denotes text n.toInt) ∨
    (readSigned text = .error .outOfRange ∧ Overruns text) ∨
    (readSigned text = .error (if text = [] then .empty else .notDigits) ∧
      ¬Overruns text ∧ ¬∃ n, Denotes text n) := by
  obtain ⟨negative, body, digits, rest, hsign, hspan⟩ := exists_parts text
  have hread := readSigned_of_parts hsign hspan
  have hdenotes {n : ℤ} := denotes_iff hsign hspan (n := n)
  have hoverruns := overruns_iff hsign hspan
  by_cases hnil : text = []
  · subst hnil
    obtain ⟨rfl, rfl⟩ := Prod.mk.inj hsign
    obtain ⟨rfl, rfl⟩ := Prod.mk.inj hspan
    refine .inr (.inr ⟨hread, ?_, ?_⟩)
    · rw [hoverruns]
      exact Nat.not_lt_zero _
    · rintro ⟨n, hn⟩
      exact (hdenotes.mp hn).1 rfl
  rw [if_neg hnil] at hread ⊢
  by_cases hover : Overruns text
  · rw [if_pos (hoverruns.mp hover)] at hread
    exact .inr (.inl ⟨hread, hover⟩)
  rw [if_neg (hoverruns.not.mp hover)] at hread
  by_cases hall : digits ≠ [] ∧ rest = []
  · have hn := hdenotes.mpr ⟨hall.1, hall.2, rfl⟩
    have hrange := (overruns_iff_of_denotes hn).not.mp hover
    rw [if_pos hall] at hread
    refine .inl ⟨_, hread, ?_⟩
    rwa [Int32.toInt_ofInt_of_le (by omega) (by omega)]
  · rw [if_neg hall] at hread
    refine .inr (.inr ⟨hread, hover, ?_⟩)
    rintro ⟨n, hn⟩
    obtain ⟨hne, hrest, -⟩ := hdenotes.mp hn
    exact hall ⟨hne, hrest⟩

theorem not_overruns_of_denotes {text : List Char} {n : Int32} (h : Denotes text n.toInt) :
    ¬Overruns text := by
  have hlow := n.le_toInt
  have hhigh := n.toInt_lt
  rw [overruns_iff_of_denotes h]
  omega

/-- **A text is read as the integer of 32 bits that it denotes, and only so.** -/
theorem readSigned_eq_ok_iff {text : List Char} {n : Int32} :
    readSigned text = .ok n ↔ Denotes text n.toInt := by
  rcases readSigned_cases text with ⟨m, hread, hm⟩ | ⟨hread, hover⟩ | ⟨hread, -, hnone⟩
  · rw [hread, Except.ok.injEq]
    constructor
    · rintro rfl
      exact hm
    · intro hn
      exact Int32.toInt_inj.mp (hm.unique hn)
  · rw [hread]
    refine iff_of_false (by rintro ⟨⟩) ?_
    exact fun hn => not_overruns_of_denotes hn hover
  · rw [hread]
    refine iff_of_false (by rintro ⟨⟩) ?_
    exact fun hn => hnone ⟨_, hn⟩

/-- The first fault of a text that is refused. -/
theorem readSigned_eq_error_iff {text : List Char} {fault : Fault} :
    readSigned text = .error fault ↔
      (fault = .outOfRange ∧ Overruns text) ∨
      (fault = (if text = [] then .empty else .notDigits) ∧
        ¬Overruns text ∧ ¬∃ n, Denotes text n) := by
  rcases readSigned_cases text with ⟨m, hread, hm⟩ | ⟨hread, hover⟩ | ⟨hread, hover, hnone⟩
  · rw [hread]
    refine iff_of_false (by rintro ⟨⟩) ?_
    rintro (⟨-, hover⟩ | ⟨-, -, hnone⟩)
    · exact not_overruns_of_denotes hm hover
    · exact hnone ⟨_, hm⟩
  · simp only [hread, hover, Except.error.injEq, eq_comm]
    simp
  · simp only [hread, hover, hnone, Except.error.injEq, eq_comm]
    simp

end Integer

/-! ### Values -/

namespace Value

open Integer (Denotes Overruns)

theorem parse_integer_eq_ok_iff {text : String} {n : Int32} :
    parse .integer text = .ok (integer n) ↔ Integer.ofText text = .ok n :=
  map_mapError_eq_ok_iff fun _ _ => integer.inj

theorem parse_integer_eq_error_iff {text : String} {e : TypeError} :
    parse .integer text = .error e ↔
      ∃ fault, Integer.ofText text = .error fault ∧ e = fault.toError text :=
  map_mapError_eq_error_iff

/-- **An integer literal is a decimal integer of 32 bits, apart from the blanks around it.** -/
theorem parse_integer_accepts (text : String) (n : Int32) :
    (Integer.ofText text = .ok n ↔ Denotes (Text.trimAscii text) n.toInt) ∧
    (parse .integer text = .ok (integer n) ↔ Denotes (Text.trimAscii text) n.toInt) := by
  have hread : Integer.ofText text = .ok n ↔ Denotes (Text.trimAscii text) n.toInt :=
    Integer.readSigned_eq_ok_iff
  exact ⟨hread, parse_integer_eq_ok_iff.trans hread⟩

/-- A line tabulation is not among the blanks that may stand around a literal. -/
example : parse .integer "\t +07\r\n" = .ok (integer 7) ∧
    parse .integer "\x0b7" = .error (.invalidLiteral "\x0b7" .integer "not a decimal integer") :=
  ⟨rfl, rfl⟩

/-- **A text is refused as out of range if the digits behind its sign are, and as no literal
otherwise.**  For a decimal integer this tells whether it has more than 32 bits, but digits that are
out of range may also be followed by something else. -/
theorem parse_integer_refuses (text : String) :
    (∀ e, parse .integer text = .error e ↔
      (e = .numericOverflow text .integer ∧ Overruns (Text.trimAscii text)) ∨
      (e = .invalidLiteral text .integer
          (if Text.trimAscii text = [] then "empty literal" else "not a decimal integer") ∧
        ¬Overruns (Text.trimAscii text) ∧ ¬∃ n, Denotes (Text.trimAscii text) n)) ∧
    (∀ n, Denotes (Text.trimAscii text) n →
      (Overruns (Text.trimAscii text) ↔ n < -2 ^ 31 ∨ 2 ^ 31 ≤ n)) := by
  refine ⟨fun e => ?_, fun n hn => Integer.overruns_iff_of_denotes hn⟩
  rw [parse_integer_eq_error_iff]
  constructor
  · rintro ⟨fault, hread, rfl⟩
    rcases Integer.readSigned_eq_error_iff.mp hread with ⟨rfl, hover⟩ | ⟨rfl, hnot⟩
    · exact .inl ⟨rfl, hover⟩
    · refine .inr ⟨?_, hnot⟩
      split <;> rfl
  · rintro (⟨rfl, hover⟩ | ⟨rfl, hnot⟩)
    · exact ⟨_, Integer.readSigned_eq_error_iff.mpr (.inl ⟨rfl, hover⟩), rfl⟩
    · refine ⟨_, Integer.readSigned_eq_error_iff.mpr (.inr ⟨rfl, hnot⟩), ?_⟩
      split <;> rfl

/-- One below the least integer, with blanks around it. -/
theorem parse_integer_refuses_below_least :
    Denotes (Text.trimAscii " -2147483649\n") (-2147483649) ∧
    parse .integer " -2147483649\n" = .error (.numericOverflow " -2147483649\n" .integer) := by
  have hdenotes : Denotes (Text.trimAscii " -2147483649\n") (-2147483649) :=
    ⟨['-'], true, "2147483649".toList, rfl, .minus, by decide, by decide, rfl⟩
  obtain ⟨hrefuses, hrange⟩ := parse_integer_refuses " -2147483649\n"
  exact ⟨hdenotes, (hrefuses _).mpr (.inl ⟨rfl, (hrange _ hdenotes).mpr (.inl (by decide))⟩)⟩

/-- Digits that are out of range are reported before the letter behind them. -/
theorem out_of_range_before_letter :
    parse .integer "2147483648x" = .error (.numericOverflow "2147483648x" .integer) ∧
    ¬∃ n, Denotes (Text.trimAscii "2147483648x") n := by
  refine ⟨rfl, ?_⟩
  rintro ⟨n, hn⟩
  have hsign : readSign "2147483648x".toList = (false, "2147483648x".toList) := rfl
  have hspan : spanDigits "2147483648x".toList = ("2147483648".toList, ['x']) := rfl
  obtain ⟨-, hrest, -⟩ := (Integer.denotes_iff hsign hspan).mp hn
  cases hrest

end Value

end Datum
