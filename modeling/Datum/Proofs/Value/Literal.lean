import Datum.Proofs.Behavior.Payload
import Datum.Proofs.Text.Digits
import Datum.Proofs.Text.Runs
import Datum.Proofs.Text.Utf8
import Datum.Proofs.Value.IntegerLiteral

/-!
# The canonical text is a literal

The text of an integer, a date or a truth value has no blanks around it and is read as a literal of
its kind: an integer by its digits (`Integer.ofText_toText`), a date by three runs of digits between
dashes (`Date.ofText_toText`).  A cast to a string keeps the bytes of that text, so that casting the
string back gives the value again.
-/

namespace Datum

-- the power of the core library, also where algebra has one of its own
attribute [local instance (high)] instPowNat

open Text (AllDigits)

/-! ### Integers -/

namespace Integer

theorem denotes_toText (n : Int) : Denotes (toText n).toList n := by
  have hne : Nat.toDigits 10 n.natAbs ≠ [] := Nat.toDigits_ne_nil
  have hd := Text.allDigits_toDigits n.natAbs
  rw [toText, String.toList_ofList]
  by_cases hn : n < 0
  · refine ⟨['-'], true, Nat.toDigits 10 n.natAbs, if_pos hn, .minus, hne, hd, ?_⟩
    rw [Nat.ofDigitChars_ten_toDigits, Text.signed, if_pos rfl]
    omega
  · refine ⟨[], false, Nat.toDigits 10 n.natAbs, if_neg hn, .none, hne, hd, ?_⟩
    rw [Nat.ofDigitChars_ten_toDigits, Text.signed, if_neg Bool.false_ne_true]
    omega

theorem Denotes.not_isAsciiBlank {text : List Char} {n : Int} (h : Denotes text n) :
    ∀ c ∈ text, Text.isAsciiBlank c = false := by
  obtain ⟨sign, negative, digits, rfl, hs, -, hd, -⟩ := h
  intro c hc
  rcases List.mem_append.mp hc with hc | hc
  · rcases hs.mem hc with rfl | rfl <;> rfl
  · exact Text.not_isAsciiBlank_of_isDigit (hd c hc)

/-- **The decimal text of an integer is read as the integer.** -/
theorem ofText_toText (n : Int32) : ofText (toText n.toInt) = .ok n := by
  have hdenotes := denotes_toText n.toInt
  have htrim : Text.trimAscii (toText n.toInt) = (toText n.toInt).toList :=
    Text.trim_eq_self hdenotes.not_isAsciiBlank
  rw [ofText, htrim, readSigned_eq_ok_iff]
  exact hdenotes

end Integer

/-! ### Dates -/

namespace Date

theorem splitAtDashes_append {part : List Char} (h : '-' ∉ part) (rev rest : List Char) :
    splitAtDashes rev (part ++ '-' :: rest) = (rev.reverse ++ part) :: splitAtDashes [] rest := by
  induction part generalizing rev with
  | nil => rw [List.nil_append, splitAtDashes, if_pos rfl, List.append_nil]
  | cons c part ih =>
    obtain ⟨hc, hpart⟩ := not_or.mp (List.mem_cons.not.mp h)
    rw [List.cons_append, splitAtDashes, if_neg (Ne.symm hc), ih hpart, List.reverse_cons,
      List.append_assoc, List.singleton_append]

theorem splitAtDashes_eq {part : List Char} (h : '-' ∉ part) (rev : List Char) :
    splitAtDashes rev part = [rev.reverse ++ part] := by
  induction part generalizing rev with
  | nil => rw [splitAtDashes, List.append_nil]
  | cons c part ih =>
    obtain ⟨hc, hpart⟩ := not_or.mp (List.mem_cons.not.mp h)
    rw [splitAtDashes, if_neg (Ne.symm hc), ih hpart, List.reverse_cons, List.append_assoc,
      List.singleton_append]

theorem allDigits_padded (width n : Nat) : AllDigits (padded width n) :=
  (Text.allDigits_replicate_zero _).append (Text.allDigits_toDigits n)

theorem dash_not_mem {text : List Char} (h : AllDigits text) : '-' ∉ text := by
  intro hm
  exact absurd (h '-' hm) (by decide)

theorem padded_ne_nil (width n : Nat) : padded width n ≠ [] := by
  intro h
  exact absurd (List.append_eq_nil_iff.mp h).2 Nat.toDigits_ne_nil

theorem length_padded {width n : Nat} (hpos : 0 < width) (h : n < 10 ^ width) :
    (padded width n).length = width := by
  have hlen := (Nat.length_toDigits_le_iff (by decide) hpos).mpr h
  simp only [padded, List.length_append, List.length_replicate]
  omega

theorem ofDigitChars_padded (width n : Nat) : Nat.ofDigitChars 10 (padded width n) 0 = n := by
  rw [padded, Text.ofDigitChars_replicate_append, Nat.ofDigitChars_ten_toDigits]

theorem readPart_padded (part : DatePart) {n : Nat} (h : n < 10 ^ part.maxDigits) :
    readPart part (padded part.maxDigits n) = .ok n := by
  have hpos : 0 < part.maxDigits := by cases part <;> decide
  have hle := Nat.le_of_eq (length_padded hpos h)
  rw [readPart, if_pos ⟨padded_ne_nil _ _, hle, (allDigits_padded _ n).all⟩, ofDigitChars_padded]

theorem toList_toText (d : Date) :
    d.toText.toList = padded 4 d.year ++ '-' :: (padded 2 d.month ++ '-' :: padded 2 d.day) := by
  rw [toText, partsText, String.toList_ofList, List.append_assoc, List.cons_append]

theorem isDigit_or_dash_of_mem {d : Date} {c : Char} (h : c ∈ d.toText.toList) :
    c.isDigit = true ∨ c = '-' := by
  have hdigit (w n : Nat) (h : c ∈ padded w n) : c.isDigit = true := allDigits_padded w n c h
  simp only [toList_toText, List.mem_append, List.mem_cons] at h
  rcases h with h | h | h | h | h
  · exact .inl (hdigit _ _ h)
  · exact .inr h
  · exact .inl (hdigit _ _ h)
  · exact .inr h
  · exact .inl (hdigit _ _ h)

/-- **The text of a date is read as the date.** -/
theorem ofText_toText (d : Date) : ofText d.toText = .ok d := by
  have hyear : readPart .year (padded 4 d.year) = .ok d.year := readPart_padded .year d.year_lt
  have hmonth : readPart .month (padded 2 d.month) = .ok d.month := readPart_padded .month d.month_lt
  have hday : readPart .day (padded 2 d.day) = .ok d.day := readPart_padded .day d.day_lt
  have hdigits (w n : Nat) : '-' ∉ padded w n := dash_not_mem (allDigits_padded w n)
  have htrim : Text.trimAscii d.toText =
      padded 4 d.year ++ '-' :: (padded 2 d.month ++ '-' :: padded 2 d.day) := by
    rw [← toList_toText]
    refine Text.trim_eq_self fun c hc => ?_
    rcases isDigit_or_dash_of_mem hc with h | rfl
    · exact Text.not_isAsciiBlank_of_isDigit h
    · rfl
  rw [ofText, htrim, splitAtDashes_append (hdigits _ _), splitAtDashes_append (hdigits _ _),
    splitAtDashes_eq (hdigits _ _)]
  simp only [List.reverse_nil, List.nil_append, hyear, hmonth, hday, ok_bind, ofParts?_parts]
  rfl

end Date

/-! ### Values -/

namespace Value

/-- The kinds of values whose text is read back by the rules of their own literals, digit by digit or
as a word. -/
def IsExactKind (kind : Kind) : Prop :=
  kind = .integer ∨ kind = .date ∨ kind = .boolean

theorem parse_toText {v : Value} (hv : v.isNull = false) (hk : IsExactKind v.kind) :
    parse v.kind v.toText = .ok v := by
  cases v with
  | null kind => cases hv
  | integer n =>
    simp only [Value.kind, toText, parse, Integer.ofText_toText]
    rfl
  | date d =>
    simp only [Value.kind, toText, parse, Date.ofText_toText]
    rfl
  | boolean b => cases b <;> rfl
  | float x => rcases hk with h | h | h <;> cases h
  | charString bytes => rcases hk with h | h | h <;> cases h
  | text bytes => rcases hk with h | h | h <;> cases h

theorem cast_string {v : Value} {s : Kind} (hv : v.isNull = false)
    (hk : v.kind.isString = false) (hs : s.isString = true) :
    v.cast s = .ok (.ofBytes s (Utf8.encode v.toText)) := by
  rw [cast_of_isPayload ⟨hv, rfl⟩]
  cases v with
  | null kind => cases hv
  | charString bytes => cases hk
  | text bytes => cases hk
  | boolean b => cases b <;> cases s <;> first | rfl | cases hs
  | integer _ | float _ | date _ => cases s <;> first | rfl | cases hs

theorem isReachable_of_isString {s kind : Kind} (hs : s.isString = true) (hn : kind ≠ .null) :
    (castCost s kind).isReachable = true := by
  revert hs hn
  cases s <;> cases kind <;> decide

theorem isPayload_ofBytes {s : Kind} (hs : s.isString = true) (bytes : List UInt8) :
    (ofBytes s bytes).IsPayload s := by
  cases s with
  | charString | text => exact ⟨rfl, rfl⟩
  | _ => cases hs

theorem convert_ofBytes {s : Kind} (hs : s.isString = true) (bytes : List UInt8) (kind : Kind) :
    (ofBytes s bytes).convert kind = convertBytes s bytes kind := by
  cases s with
  | charString | text => rfl
  | _ => cases hs

theorem cast_ofBytes_encode {s kind : Kind} (hs : s.isString = true) (hk : kind.isString = false)
    (hn : kind ≠ .null) (text : String) :
    (ofBytes s (Utf8.encode text)).cast kind = parse kind text := by
  have hne : kind ≠ s := by
    rintro rfl
    rw [hs] at hk
    cases hk
  rw [cast_of_isPayload (isPayload_ofBytes hs _), if_pos (isReachable_of_isString hs hn), if_neg hne,
    convert_ofBytes hs]
  unfold convertBytes
  split
  · cases hk
  · cases hk
  · exact absurd rfl hn
  · rw [Utf8.decode?_encode]

/-- **Casting to a string and back gives the value again.**  An integer, a date or a truth value
becomes the bytes of its text, in either kind of string; they are cast back to the value, and the text
is a literal of it.  The bytes of a string stay as they are in the other kind of string. -/
theorem cast_string_and_back :
    (∀ v s, v.isNull = false → IsExactKind v.kind → s.isString = true →
      v.cast s = .ok (.ofBytes s (Utf8.encode v.toText)) ∧
      (ofBytes s (Utf8.encode v.toText)).cast v.kind = .ok v ∧
      parse v.kind v.toText = .ok v) ∧
    (∀ bytes, (charString bytes).cast .text = .ok (text bytes) ∧
      (text bytes).cast .charString = .ok (charString bytes)) := by
  refine ⟨fun v s hv hk hs => ?_, fun bytes => ⟨rfl, rfl⟩⟩
  have hstring : v.kind.isString = false := by rcases hk with h | h | h <;> rw [h] <;> rfl
  have hnull : v.kind ≠ .null := by rcases hk with h | h | h <;> rw [h] <;> decide
  have hparse := parse_toText hv hk
  exact ⟨cast_string hv hstring hs, (cast_ofBytes_encode hs hstring hnull _).trans hparse, hparse⟩

/-- The least integer, the first day of the calendar and a string that is no text. -/
theorem cast_string_and_back_at_edges :
    (integer Int32.minValue).cast .text = .ok (.text (Utf8.encode "-2147483648")) ∧
    (Value.text (Utf8.encode "-2147483648")).cast .integer = .ok (integer Int32.minValue) ∧
    parse .date "0000-01-01" = .ok (date ⟨0, 1, 1, by decide⟩) ∧
    (charString [0xff, 0]).cast .text = .ok (text [0xff, 0]) := by
  have hinteger := cast_string_and_back.1 (integer Int32.minValue) .text rfl (.inl rfl) rfl
  have hdate := cast_string_and_back.1 (date ⟨0, 1, 1, by decide⟩) .charString rfl (.inr (.inl rfl)) rfl
  have hleast : (integer Int32.minValue).toText = "-2147483648" := by decide
  have hfirst : (date ⟨0, 1, 1, by decide⟩).toText = "0000-01-01" := by decide
  rw [hleast] at hinteger
  rw [hfirst] at hdate
  exact ⟨hinteger.1, hinteger.2.1, hdate.2.2, (cast_string_and_back.2 [0xff, 0]).1⟩

end Value

end Datum
