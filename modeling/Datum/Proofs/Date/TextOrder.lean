import Datum.Proofs.Behavior.TotalOrder
import Datum.Proofs.Coercion.Resolve
import Datum.Proofs.Date.Packed
import Datum.Proofs.Value.Literal

/-!
# Dates are ordered as their texts

All dates have texts of the same length, since the parts are padded with zeros.  Texts of the same
length are compared part by part (`compareBytes_append`), and digits are compared as the numbers that
they make (`compareBytes_digits`), so that the texts of dates are in the order of the calendar
(`Date.compareBytes_toText`).

A date and a string are compared as dates, since the resolver casts the string.  The text of a date
is read as the date again, so a date may be replaced by its text on either side of a comparison.
-/

namespace Datum

-- the power of the core library, also where algebra has one of its own
attribute [local instance (high)] instPowNat

open Text (AllDigits)

/-! ### Byte strings of the same length -/

theorem compareBytes_append {bs cs : List UInt8} (h : bs.length = cs.length) (bs' cs' : List UInt8) :
    compareBytes (bs ++ bs') (cs ++ cs') = (compareBytes bs cs).then (compareBytes bs' cs') := by
  induction bs generalizing cs with
  | nil =>
    obtain rfl := List.length_eq_zero_iff.mp h.symm
    rfl
  | cons b bs ih =>
    cases cs with
    | nil => cases h
    | cons c cs =>
      rw [List.cons_append, List.cons_append, compareBytes, compareBytes, ih (Nat.succ.inj h)]
      cases compare b.toNat c.toNat <;> rfl

theorem compareBytes_singleton (b c : UInt8) :
    compareBytes [b] [c] = compare b.toNat c.toNat := by
  rw [compareBytes]
  cases compare b.toNat c.toNat <;> rfl

def asciiBytes (text : List Char) : List UInt8 :=
  text.map fun c => c.toNat.toUInt8

theorem encode_eq_asciiBytes {text : String} (h : ∀ c ∈ text.toList, c.toNat < 0x80) :
    Utf8.encode text = asciiBytes text.toList := by
  rw [Utf8.encode, asciiBytes, List.map_eq_flatMap]
  exact List.flatMap_congr fun c hc => if_pos (h c hc)

theorem compareBytes_asciiBytes_append {text other : List Char} (h : text.length = other.length)
    (rest others : List Char) :
    compareBytes (asciiBytes (text ++ rest)) (asciiBytes (other ++ others)) =
      (compareBytes (asciiBytes text) (asciiBytes other)).then
        (compareBytes (asciiBytes rest) (asciiBytes others)) := by
  have hlen : (asciiBytes text).length = (asciiBytes other).length := by
    rw [asciiBytes, asciiBytes, List.length_map, List.length_map, h]
  rw [← compareBytes_append hlen]
  simp only [asciiBytes, List.map_append]

theorem compareBytes_dash (text rest : List Char) :
    compareBytes (asciiBytes ('-' :: text)) (asciiBytes ('-' :: rest)) =
      compareBytes (asciiBytes text) (asciiBytes rest) :=
  rfl

/-! ### Digits -/

theorem compareBytes_digit {c e : Char} (hc : c.isDigit = true) (he : e.isDigit = true) :
    compareBytes (asciiBytes [c]) (asciiBytes [e]) = compare (c.toNat - 48) (e.toNat - 48) := by
  have hc := Text.isDigit_bounds hc
  have he := Text.isDigit_bounds he
  show compareBytes [c.toNat.toUInt8] [e.toNat.toUInt8] = _
  rw [compareBytes_singleton, Utf8.toNat_toUInt8 (by omega), Utf8.toNat_toUInt8 (by omega)]
  exact compare_eq_of_iff (by omega) (by omega)

/-- **As many digits are compared as the numbers that they make.** -/
theorem compareBytes_digits {digits others : List Char} (hd : AllDigits digits)
    (ho : AllDigits others) (h : digits.length = others.length) :
    compareBytes (asciiBytes digits) (asciiBytes others) =
      compare (Nat.ofDigitChars 10 digits 0) (Nat.ofDigitChars 10 others 0) := by
  induction digits using List.reverseRecOn generalizing others with
  | nil =>
    obtain rfl := List.length_eq_zero_iff.mp h.symm
    rfl
  | append_singleton digits c ih =>
    rcases others.eq_nil_or_concat' with rfl | ⟨others, e, rfl⟩
    · simp at h
    · obtain ⟨hd, hc⟩ := List.forall_mem_append.mp hd
      obtain ⟨ho, he⟩ := List.forall_mem_append.mp ho
      have hc := List.forall_mem_singleton.mp hc
      have he := List.forall_mem_singleton.mp he
      have hlen : digits.length = others.length := by simpa using h
      have hcb := Text.isDigit_bounds hc
      have heb := Text.isDigit_bounds he
      rw [compareBytes_asciiBytes_append hlen, ih hd ho hlen, compareBytes_digit hc he,
        Text.ofDigitChars_concat, Text.ofDigitChars_concat, compare_mul_add (by omega) (by omega)]

namespace Date

theorem compareBytes_padded {width m n : ℕ} (hw : 0 < width) (hm : m < 10 ^ width)
    (hn : n < 10 ^ width) :
    compareBytes (asciiBytes (padded width m)) (asciiBytes (padded width n)) = Ord.compare m n := by
  have hlen := (length_padded hw hm).trans (length_padded hw hn).symm
  rw [compareBytes_digits (allDigits_padded _ _) (allDigits_padded _ _) hlen,
    ofDigitChars_padded, ofDigitChars_padded]

theorem encode_toText (d : Date) :
    Utf8.encode d.toText =
      asciiBytes (padded 4 d.year ++ '-' :: (padded 2 d.month ++ '-' :: padded 2 d.day)) := by
  have hascii : ∀ c ∈ d.toText.toList, c.toNat < 0x80 := by
    intro c hc
    rcases isDigit_or_dash_of_mem hc with h | rfl
    · exact Nat.lt_of_le_of_lt (Text.isDigit_bounds h).2 (by decide)
    · decide
  rw [encode_eq_asciiBytes hascii, toList_toText]

/-- **The texts of dates are in the order of the calendar**, byte by byte. -/
theorem compareBytes_toText (x z : Date) :
    compareBytes (Utf8.encode x.toText) (Utf8.encode z.toText) = x.compare z := by
  have hw4 : 0 < 4 := by decide
  have hw2 : 0 < 2 := by decide
  have hyears := (length_padded hw4 x.year_lt).trans (length_padded hw4 z.year_lt).symm
  have hmonths := (length_padded hw2 x.month_lt).trans (length_padded hw2 z.month_lt).symm
  rw [encode_toText, encode_toText, compareBytes_asciiBytes_append hyears, compareBytes_dash,
    compareBytes_asciiBytes_append hmonths, compareBytes_dash,
    compareBytes_padded hw4 x.year_lt z.year_lt, compareBytes_padded hw2 x.month_lt z.month_lt,
    compareBytes_padded hw2 x.day_lt z.day_lt, compare_eq_then]

end Date

/-! ### Values -/

namespace Value

variable {s : Kind}

theorem resolve_date_string (hs : s.isString = true) :
    resolve .date s = .ok (.right .date) ∧ resolve s .date = .ok (.left .date) := by
  cases s with
  | charString | text => exact ⟨rfl, rfl⟩
  | _ => cases hs

/-- A string of the text of a date is cast to the date in every comparison that asks for it. -/
theorem castOperand_toText (hs : s.isString = true) (operand : Operand) (d : Date) :
    castOperand operand (ofBytes s (Utf8.encode d.toText)) .date = .ok (date d) := by
  have hcast : (ofBytes s (Utf8.encode d.toText)).cast .date = parse .date d.toText :=
    cast_ofBytes_encode hs rfl (by decide) d.toText
  have hparse : parse .date d.toText = .ok (date d) :=
    parse_toText (v := date d) rfl (.inr (.inl rfl))
  rw [castOperand, hcast, hparse]
  rfl

theorem kind_ofBytes (hs : s.isString = true) (bytes : List UInt8) : (ofBytes s bytes).kind = s :=
  (isPayload_ofBytes hs bytes).2

theorem compare_date_string (hs : s.isString = true) (x z : Date) :
    (date x).compare (ofBytes s (Utf8.encode z.toText)) = .ok (some (x.compare z)) ∧
      (ofBytes s (Utf8.encode x.toText)).compare (date z) = .ok (some (x.compare z)) := by
  have hnull (bytes : List UInt8) : (ofBytes s bytes).isNull = false :=
    (isPayload_ofBytes hs bytes).1
  obtain ⟨hright, hleft⟩ := resolve_date_string hs
  constructor
  · rw [compare_of_not_null rfl (hnull _), kind_ofBytes hs]
    simp only [Value.kind, hright, castOperand_toText hs]
    rfl
  · rw [compare_of_not_null (hnull _) rfl, kind_ofBytes hs]
    simp only [Value.kind, hleft, castOperand_toText hs]
    rfl

theorem compare_ofBytes (hs : s.isString = true) (bs cs : List UInt8) :
    (ofBytes s bs).compare (ofBytes s cs) = .ok (some (compareBytes bs cs)) := by
  cases s with
  | charString | text => rfl
  | _ => cases hs

/-- **Dates are ordered as their texts.**  The strings of two dates, of either kind, are compared
byte by byte as the dates are by their packed numbers, so that only equal dates have equal strings.
Either date may be replaced by its string where values are compared. -/
theorem date_text_order {s : Kind} (hs : s.isString = true) (x z : Date) :
    ∃ bs cs, (date x).cast s = .ok (ofBytes s bs) ∧ (date z).cast s = .ok (ofBytes s cs) ∧
      compareBytes bs cs = Ord.compare x.packed z.packed ∧ (bs = cs ↔ x = z) ∧
      ∀ v ∈ [date x, ofBytes s bs], ∀ w ∈ [date z, ofBytes s cs],
        v.compare w = .ok (some (Ord.compare x.packed z.packed)) := by
  have hbytes : compareBytes (Utf8.encode x.toText) (Utf8.encode z.toText) =
      Ord.compare x.packed z.packed := Date.compareBytes_toText x z
  refine ⟨Utf8.encode x.toText, Utf8.encode z.toText, cast_string rfl rfl hs,
    cast_string rfl rfl hs, hbytes, ?_, ?_⟩
  · rw [← compareBytes_eq_iff, hbytes, Nat.compare_eq_eq]
    exact ⟨Date.packed_injective, congrArg Date.packed⟩
  · simp only [List.mem_cons, List.not_mem_nil, or_false]
    rintro v (rfl | rfl) w (rfl | rfl)
    · rfl
    · exact (compare_date_string hs x z).1
    · exact (compare_date_string hs x z).2
    · rw [compare_ofBytes hs, hbytes]

/-- The last day of a year of three digits and the first one of a year of four. -/
theorem date_text_order_at_year_1000 :
    (date ⟨999, 12, 31, by decide⟩).cast .text = .ok (.text (Utf8.encode "0999-12-31")) ∧
      compareBytes (Utf8.encode "0999-12-31") (Utf8.encode "1000-01-01") = .lt ∧
      (date ⟨999, 12, 31, by decide⟩).compare (.text (Utf8.encode "1000-01-01")) = .ok (some .lt) := by
  obtain ⟨bs, cs, hx, hz, hbytes, -, hcompare⟩ :=
    date_text_order (s := .text) rfl ⟨999, 12, 31, by decide⟩ ⟨1000, 1, 1, by decide⟩
  have hlast : (date ⟨999, 12, 31, by decide⟩).toText = "0999-12-31" := by decide
  have hfirst : (date ⟨1000, 1, 1, by decide⟩).toText = "1000-01-01" := by decide
  rw [cast_string rfl rfl rfl, hlast] at hx
  rw [cast_string rfl rfl rfl, hfirst] at hz
  cases hx
  cases hz
  refine ⟨?_, hbytes, hcompare _ List.mem_cons_self _ (List.mem_cons_of_mem _ List.mem_cons_self)⟩
  rw [cast_string rfl rfl rfl, hlast]
  rfl

end Value

end Datum
