import Datum.Exchange
import Datum.Proofs.Date.Packed
import Datum.Proofs.Json.Exchange
import Datum.Proofs.Value.Literal

/-!
# Date literals

A date literal is a year of one to four digits, a month and a day of one or two, joined by dashes
(`IsLiteral`), such that they are a day of the calendar.  The reader splits a text at every dash and
counts the pieces afterwards; since digits are no dashes, it finds the three parts if they are there
(`ofText_eq_ok_iff`).

Dates are read from literals wherever a text is taken for a date: in a literal of that kind, in a
string that is cast and in a document (`Value.parse_date_accepts`).
-/

namespace Datum

-- the power of the core library, also where algebra has one of its own
attribute [local instance (high)] instPowNat

open Text (AllDigits)

namespace Date

/-- At least one digit and at most `width`, and their number. -/
structure IsPart (width : ℕ) (text : List Char) (n : ℕ) : Prop where
  ne_nil : text ≠ []
  length_le : text.length ≤ width
  allDigits : AllDigits text
  eq : n = Nat.ofDigitChars 10 text 0

def IsLiteral (text : List Char) (year month day : ℕ) : Prop :=
  ∃ yearText monthText dayText, text = yearText ++ '-' :: (monthText ++ '-' :: dayText) ∧
    IsPart 4 yearText year ∧ IsPart 2 monthText month ∧ IsPart 2 dayText day

theorem IsPart.lt {width n : ℕ} {text : List Char} (h : IsPart width text n) : n < 10 ^ width := by
  rw [h.eq]
  exact Nat.lt_of_lt_of_le h.allDigits.ofDigitChars_lt
    (Nat.pow_le_pow_right (by decide) h.length_le)

theorem IsLiteral.exists_date {text : List Char} {year month day : ℕ}
    (h : IsLiteral text year month day) (hg : IsGregorian year month day) :
    ∃ d : Date, IsLiteral text d.year d.month d.day := by
  have hyear : year < 10000 := by
    obtain ⟨_, _, _, -, hyear, -, -⟩ := h
    exact hyear.lt
  exact ⟨⟨year, month, day, isDay_iff.mpr ⟨Nat.le_of_lt_succ hyear, hg⟩⟩, h⟩

/-! ### Reading the parts -/

theorem splitAtDashes_ne_nil (rev text : List Char) : splitAtDashes rev text ≠ [] := by
  induction text generalizing rev with
  | nil => exact List.cons_ne_nil _ _
  | cons c rest ih =>
    rw [splitAtDashes]
    split
    · exact List.cons_ne_nil _ _
    · exact ih _

theorem intercalate_splitAtDashes (rev text : List Char) :
    ['-'].intercalate (splitAtDashes rev text) = rev.reverse ++ text := by
  induction text generalizing rev with
  | nil => simp [splitAtDashes]
  | cons c rest ih =>
    rw [splitAtDashes]
    split
    · rename_i hc
      rw [List.intercalate_cons_of_ne_nil (splitAtDashes_ne_nil _ _), ih, hc,
        List.append_assoc]
      rfl
    · rw [ih, List.reverse_cons, List.append_assoc, List.singleton_append]

theorem readPart_eq_ok_iff {part : DatePart} {text : List Char} {n : ℕ} :
    readPart part text = .ok n ↔ IsPart part.maxDigits text n := by
  rw [readPart]
  constructor
  · intro h
    split at h
    · rename_i hpart
      exact ⟨hpart.1, hpart.2.1, List.all_eq_true.mp hpart.2.2, (Except.ok.inj h).symm⟩
    · cases h
  · rintro ⟨hne, hlen, hd, rfl⟩
    rw [if_pos ⟨hne, hlen, hd.all⟩]

theorem ofText_of_split {text : String} {yearText monthText dayText : List Char}
    (h : splitAtDashes [] (Text.trimAscii text) = [yearText, monthText, dayText]) (x : Date) :
    ofText text = .ok x ↔
      IsPart 4 yearText x.year ∧ IsPart 2 monthText x.month ∧ IsPart 2 dayText x.day := by
  rw [ofText, h]
  simp only [bind_eq_ok_iff, readPart_eq_ok_iff]
  constructor
  · rintro ⟨year, hyear, month, hmonth, day, hday, hread⟩
    split at hread
    · rename_i d hd
      cases hread
      obtain ⟨hy, rfl, rfl⟩ := ofParts?_eq_some_iff.mp hd
      obtain rfl := Int.ofNat_inj.mp hy
      exact ⟨hyear, hmonth, hday⟩
    · cases hread
  · rintro ⟨hyear, hmonth, hday⟩
    refine ⟨_, hyear, _, hmonth, _, hday, ?_⟩
    rw [ofParts?_parts]
    rfl

/-- **A text is read as the date whose literal it is, and only so.** -/
theorem ofText_eq_ok_iff {text : String} {x : Date} :
    ofText text = .ok x ↔ IsLiteral (Text.trimAscii text) x.year x.month x.day := by
  constructor
  · intro h
    have hthree : ∃ yearText monthText dayText,
        splitAtDashes [] (Text.trimAscii text) = [yearText, monthText, dayText] := by
      rw [ofText] at h
      split at h
      · exact ⟨_, _, _, ‹_›⟩
      · cases h
    obtain ⟨yearText, monthText, dayText, hsplit⟩ := hthree
    have htext := intercalate_splitAtDashes [] (Text.trimAscii text)
    rw [hsplit, List.reverse_nil, List.nil_append] at htext
    refine ⟨yearText, monthText, dayText, ?_, (ofText_of_split hsplit x).mp h⟩
    rw [← htext]
    simp
  · rintro ⟨yearText, monthText, dayText, htext, hyear, hmonth, hday⟩
    refine (ofText_of_split ?_ x).mpr ⟨hyear, hmonth, hday⟩
    rw [htext, splitAtDashes_append (dash_not_mem hyear.allDigits),
      splitAtDashes_append (dash_not_mem hmonth.allDigits),
      splitAtDashes_eq (dash_not_mem hday.allDigits)]
    rfl

/-- **A text is no date if it is no literal of a day of the calendar.** -/
theorem ofText_fails_iff {text : String} :
    (∃ fault, ofText text = .error fault) ↔
      ¬∃ year month day, IsLiteral (Text.trimAscii text) year month day ∧
        IsGregorian year month day := by
  rw [fails_iff]
  refine not_congr ⟨?_, ?_⟩
  · rintro ⟨x, hx⟩
    exact ⟨_, _, _, ofText_eq_ok_iff.mp hx, (isDay_iff.mp x.isDay).2⟩
  · rintro ⟨year, month, day, hliteral, hday⟩
    obtain ⟨x, hx⟩ := hliteral.exists_date hday
    exact ⟨x, ofText_eq_ok_iff.mpr hx⟩

/-! ### Documents -/

theorem ofExchangeText_eq_ok_iff {text : String} {x : Date} :
    ofExchangeText text = .ok x ↔ ofText text = .ok x :=
  mapError_eq_ok_iff

/-- A string is read as the date of its text, however its characters are written. -/
theorem ofJson?_string {pieces : List Json.Piece} {text : String} {x : Date}
    (h : Json.textOf? pieces = some text) :
    ofJson? (.string pieces) = some x ↔ ofText text = .ok x := by
  rw [← ofExchangeText_eq_ok_iff, ← toOption_eq_some_iff]
  simp only [ofJson?, h]
  rfl

theorem ofJson?_ofText {text : String} {x : Date} :
    (Json.parse? (Json.ofText text).compact).bind ofJson? = some x ↔ ofText text = .ok x := by
  rw [Json.parse?_compact (Json.wellFormed_ofText text), Option.bind_some]
  exact ofJson?_string (Json.textOf?_piecesOf text)

end Date

/-! ### Values -/

namespace Value

open Date (IsLiteral)

theorem parse_date_eq_ok_iff {text : String} {v : Value} :
    parse .date text = .ok v ↔ ∃ x, v = date x ∧ Date.ofText text = .ok x := by
  simp only [parse, map_eq_ok_iff, mapError_eq_ok_iff]
  constructor
  · rintro ⟨x, hx, rfl⟩
    exact ⟨x, rfl, hx⟩
  · rintro ⟨x, rfl, hx⟩
    exact ⟨x, hx, rfl⟩

/-- **A date literal is a year, a month and a day in digits that are a day of the calendar**, apart
from the blanks around it.  The same texts are read as the same dates when they are literals of a
date, when a string of them is cast to one, and when a document that consists of them is read. -/
theorem parse_date_accepts (text : String) :
    (∀ x, Date.ofText text = .ok x ↔ IsLiteral (Text.trimAscii text) x.year x.month x.day) ∧
    ((∃ fault, Date.ofText text = .error fault) ↔
      ¬∃ year month day, IsLiteral (Text.trimAscii text) year month day ∧
        IsGregorian year month day) ∧
    (∀ v, parse .date text = .ok v ↔ ∃ x, v = date x ∧ Date.ofText text = .ok x) ∧
    (∀ s : Kind, s.isString = true → ∀ v,
      (ofBytes s (Utf8.encode text)).cast .date = .ok v ↔
        ∃ x, v = date x ∧ Date.ofText text = .ok x) ∧
    (∀ x, Date.ofExchangeText text = .ok x ↔ Date.ofText text = .ok x) ∧
    (∀ pieces, Json.textOf? pieces = some text →
      ∀ x, Date.ofJson? (.string pieces) = some x ↔ Date.ofText text = .ok x) ∧
    (∀ x, (Json.parse? (Json.ofText text).compact).bind Date.ofJson? = some x ↔
      Date.ofText text = .ok x) := by
  refine ⟨?_, Date.ofText_fails_iff, ?_, ?_, ?_, ?_, ?_⟩
  · intro x
    exact Date.ofText_eq_ok_iff
  · intro v
    exact parse_date_eq_ok_iff
  · intro s hs v
    rw [cast_ofBytes_encode hs rfl (by decide), parse_date_eq_ok_iff]
  · intro x
    exact Date.ofExchangeText_eq_ok_iff
  · intro pieces hp x
    exact Date.ofJson?_string hp
  · intro x
    exact Date.ofJson?_ofText

/-- A leap day in few digits with blanks around it, which is cast from a string and read from a
document, also if a blank is escaped there, and a day that is missing from the calendar. -/
theorem parse_date_accepts_leap_day :
    IsLiteral (Text.trimAscii " 2024-2-29\n") 2024 2 29 ∧
    (Value.text (Utf8.encode " 2024-2-29\n")).cast .date = .ok (date ⟨2024, 2, 29, by decide⟩) ∧
    Date.ofJson? (.string (.escape 0x20 :: Json.piecesOf "2024-2-29\n")) =
      some ⟨2024, 2, 29, by decide⟩ ∧
    (Json.parse? (Json.ofText " 2024-2-29\n").compact).bind Date.ofJson? =
      some ⟨2024, 2, 29, by decide⟩ ∧
    ¬∃ year month day, IsLiteral (Text.trimAscii "2023-02-29") year month day ∧
      IsGregorian year month day := by
  obtain ⟨hread, -, -, hcast, -, hstring, hdocument⟩ := parse_date_accepts " 2024-2-29\n"
  obtain ⟨-, hfails, -⟩ := parse_date_accepts "2023-02-29"
  have hliteral : IsLiteral (Text.trimAscii " 2024-2-29\n") 2024 2 29 :=
    ⟨"2024".toList, "2".toList, "29".toList, rfl, ⟨by decide, by decide, by decide, rfl⟩,
      ⟨by decide, by decide, by decide, rfl⟩, ⟨by decide, by decide, by decide, rfl⟩⟩
  have hdate := (hread ⟨2024, 2, 29, by decide⟩).mpr hliteral
  have hpieces : Json.textOf? (.escape 0x20 :: Json.piecesOf "2024-2-29\n") =
      some " 2024-2-29\n" := by decide
  exact ⟨hliteral, (hcast .text rfl _).mpr ⟨_, rfl, hdate⟩, (hstring _ hpieces _).mpr hdate,
    (hdocument _).mpr hdate, hfails.mp ⟨.notInCalendar 2023 2 29, rfl⟩⟩

end Value

end Datum
