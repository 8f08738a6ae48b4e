import Datum.Date.Literal
import Datum.Date.Packed
import Datum.Proofs.Storage.Layout
import Mathlib.Algebra.Ring.Int.Defs

/-!
# Dates and their words

The words of dates are computed without overflow, since the parts are known to be a day of the
calendar before they are put together: `PackedDate.ofParts_eq` and `PackedDate.ofWord_eq` say that
computing with words gives the words of the dates that `Date.ofParts?` and `Date.ofPacked?` find.
The parts of a date are read off its word again (`PackedDate.year_word` and its companions), and the
order of the words is that of the calendar (`Date.packed_lt_packed_iff`).

`IsGregorian` describes the calendar apart from the program, by the leap years and the lengths of the
twelve months.
-/

namespace Datum

/-! ### The calendar -/

def IsLeap (year : ℤ) : Prop :=
  4 ∣ year ∧ ¬100 ∣ year ∨ 400 ∣ year

instance (year : ℤ) : Decidable (IsLeap year) :=
  inferInstanceAs (Decidable (_ ∨ _))

def monthLengths (year : ℤ) : List ℕ :=
  [31, if IsLeap year then 29 else 28, 31, 30, 31, 30, 31, 31, 30, 31, 30, 31]

/-- A day of the proleptic Gregorian calendar, in any year. -/
def IsGregorian (year : ℤ) (month day : ℕ) : Prop :=
  1 ≤ month ∧ 1 ≤ day ∧ ∃ length ∈ (monthLengths year)[month - 1]?, day ≤ length

theorem isLeapYear_iff (year : ℕ) : isLeapYear year = true ↔ IsLeap year := by
  simp only [isLeapYear, IsLeap, Bool.or_eq_true, Bool.and_eq_true, beq_iff_eq, bne_iff_ne]
  omega

theorem daysInMonth_eq_getD (year : ℕ) {month : ℕ} (h : 1 ≤ month) :
    daysInMonth year month = ((monthLengths year)[month - 1]?).getD 0 := by
  have hleap := isLeapYear_iff year
  match month, h with
  | 2, _ =>
    by_cases hl : IsLeap year
    · simp [daysInMonth, monthLengths, hl, hleap.mpr hl]
    · simp [daysInMonth, monthLengths, hl, Bool.eq_false_iff.mpr (hleap.not.mpr hl)]
  | 1, _ | 3, _ | 4, _ | 5, _ | 6, _ | 7, _ | 8, _ | 9, _ | 10, _ | 11, _ | 12, _ => rfl
  | month + 13, _ => rfl

/-- **The days of the program are those of the calendar** up to the year 9999. -/
theorem isDay_iff {year month day : ℕ} :
    IsDay year month day ↔ year ≤ 9999 ∧ IsGregorian year month day := by
  constructor
  · intro h
    have hm := h.month_bounds
    obtain ⟨hyear, hday, hle⟩ := h
    rw [daysInMonth_eq_getD year hm.1] at hle
    refine ⟨hyear, hm.1, hday, ?_⟩
    cases hl : (monthLengths year)[month - 1]? with
    | some length =>
      rw [hl] at hle
      exact ⟨length, rfl, hle⟩
    | none =>
      rw [hl, Option.getD_none] at hle
      exact absurd hday (by omega)
  · rintro ⟨hyear, hmonth, hday, length, hl, hle⟩
    refine ⟨hyear, hday, ?_⟩
    rw [daysInMonth_eq_getD year hmonth, hl]
    exact hle

/-! ### Numbers by quotient and remainder -/

section

variable {a b c d k p q : ℕ}

theorem compare_eq_of_iff (hlt : a < b ↔ c < d) (hgt : b < a ↔ d < c) :
    compare a b = compare c d := by
  cases h : compare c d with
  | lt => exact Nat.compare_eq_lt.mpr (hlt.mpr (Nat.compare_eq_lt.mp h))
  | gt => exact Nat.compare_eq_gt.mpr (hgt.mpr (Nat.compare_eq_gt.mp h))
  | eq =>
    have heq := Nat.compare_eq_eq.mp h
    exact Nat.compare_eq_eq.mpr (by omega)

theorem compare_mul_add (ha : a < k) (hb : b < k) :
    compare (k * p + a) (k * q + b) = (compare p q).then (compare a b) := by
  cases h : compare p q with
  | lt =>
    have hle : k * (p + 1) ≤ k * q := Nat.mul_le_mul_left k (Nat.compare_eq_lt.mp h)
    rw [Nat.mul_add_one] at hle
    exact Nat.compare_eq_lt.mpr (by omega)
  | gt =>
    have hle : k * (q + 1) ≤ k * p := Nat.mul_le_mul_left k (Nat.compare_eq_gt.mp h)
    rw [Nat.mul_add_one] at hle
    exact Nat.compare_eq_gt.mpr (by omega)
  | eq =>
    obtain rfl := Nat.compare_eq_eq.mp h
    exact compare_eq_of_iff (by omega) (by omega)

end

/-! ### Numbers in signed words -/

theorem eq_ofNat_of_toInt_eq {w : Int32} {n : ℕ} (h : w.toInt = n) : w = .ofNat n := by
  rw [← Int32.ofInt_toInt w, h, Int32.ofInt_eq_ofNat]

namespace PackedDate

theorem checked_natCast {n : ℕ} (h : n < 0x80000000) : checked n = .ok (.ofNat n) := by
  rw [checked, if_pos (by omega), Int32.ofInt_eq_ofNat]

theorem mul_ofNat {m n : ℕ} (hm : m < 0x80000000) (hn : n < 0x80000000) (h : m * n < 0x80000000) :
    mul (.ofNat m) (.ofNat n) = .ok (.ofNat (m * n)) := by
  rw [mul, Int32.toInt_ofNat_of_lt hm, Int32.toInt_ofNat_of_lt hn, ← Int.natCast_mul,
    checked_natCast h]

theorem add_ofNat {m n : ℕ} (hm : m < 0x80000000) (hn : n < 0x80000000) (h : m + n < 0x80000000) :
    add (.ofNat m) (.ofNat n) = .ok (.ofNat (m + n)) := by
  rw [add, Int32.toInt_ofNat_of_lt hm, Int32.toInt_ofNat_of_lt hn, ← Int.natCast_add,
    checked_natCast h]

theorem mod_eq_zero_iff (w k : Int32) : w % k = 0 ↔ k.toInt ∣ w.toInt := by
  rw [← Int32.toInt_inj, Int32.toInt_mod, Int.dvd_iff_tmod_eq_zero]
  rfl

theorem ofNat_mod {m n : ℕ} (hm : m < 0x80000000) (hn : n < 0x80000000) :
    Int32.ofNat (m % n) = .ofNat m % .ofNat n := by
  rw [← Int32.toInt_inj, Int32.toInt_mod, Int32.toInt_ofNat_of_lt hm, Int32.toInt_ofNat_of_lt hn,
    Int32.toInt_ofNat_of_lt (Nat.lt_of_le_of_lt (Nat.mod_le m n) hm)]
  rfl

/-! ### Checking the parts -/

theorem isLeapYear_iff (year : Int32) : isLeapYear year = true ↔ IsLeap year.toInt := by
  simp only [isLeapYear, Bool.or_eq_true, Bool.and_eq_true, beq_iff_eq, bne_iff_ne, ne_eq,
    mod_eq_zero_iff]
  rfl

theorem daysInMonth_eq {year : Int32} {n : ℕ} (h : year.toInt = n) (month : UInt32) :
    (daysInMonth year month).toNat = Datum.daysInMonth n month.toNat := by
  have hleap : isLeapYear year = Datum.isLeapYear n := by
    rw [Bool.eq_iff_iff, isLeapYear_iff, Datum.isLeapYear_iff, h]
  unfold daysInMonth Datum.daysInMonth
  rw [hleap]
  generalize month.toNat = m
  match m with
  | 2 => cases Datum.isLeapYear n <;> rfl
  | 0 | 1 | 3 | 4 | 5 | 6 | 7 | 8 | 9 | 10 | 11 | 12 => rfl
  | m + 13 => rfl

theorem isDay_iff {year : Int32} {month day : UInt32} :
    isDay year month day = true ↔
      0 ≤ year.toInt ∧ IsDay year.toInt.toNat month.toNat day.toNat := by
  have hbounds : (0 ≤ year ↔ 0 ≤ year.toInt) ∧ (year ≤ 9999 ↔ year.toInt ≤ 9999) :=
    ⟨Int32.le_iff_toInt_le, Int32.le_iff_toInt_le⟩
  simp only [isDay, Bool.and_eq_true, decide_eq_true_iff, hbounds, UInt32.le_iff_toNat_le]
  constructor
  · rintro ⟨⟨⟨⟨hlow, hhigh⟩, -⟩, hday⟩, hle⟩
    rw [daysInMonth_eq (Int.toNat_of_nonneg hlow).symm] at hle
    exact ⟨hlow, by omega, hday, hle⟩
  · rintro ⟨hlow, hd⟩
    have hm := hd.month_bounds
    obtain ⟨hhigh, hday, hle⟩ := hd
    rw [daysInMonth_eq (Int.toNat_of_nonneg hlow).symm]
    exact ⟨⟨⟨⟨hlow, by omega⟩, hm⟩, hday⟩, hle⟩

/-! ### The words of dates -/

end PackedDate

namespace Date

theorem packed_lt_two_pow_31 (d : Date) : d.packed < 0x80000000 :=
  Nat.lt_trans d.packed_lt (by decide)

theorem toInt_word (d : Date) : d.word.toInt = d.packed :=
  Int32.toInt_ofNat_of_lt d.packed_lt_two_pow_31

/-- **Dates are compared by year, month and day in turn.** -/
theorem compare_eq_then (d e : Date) :
    d.compare e =
      (Ord.compare d.year e.year).then
        ((Ord.compare d.month e.month).then (Ord.compare d.day e.day)) := by
  have packed_eq (d : Date) : d.packed = 100 * (100 * d.year + d.month) + d.day := by
    rw [packed]
    omega
  rw [compare, packed_eq, packed_eq, compare_mul_add d.day_lt e.day_lt,
    compare_mul_add d.month_lt e.month_lt, Ordering.then_assoc]

/-- The order of packed numbers is that of the calendar. -/
theorem packed_lt_packed_iff {d e : Date} :
    d.packed < e.packed ↔
      d.year < e.year ∨ d.year = e.year ∧ (d.month < e.month ∨ d.month = e.month ∧ d.day < e.day) := by
  rw [← Nat.compare_eq_lt]
  show d.compare e = .lt ↔ _
  simp only [compare_eq_then, Ordering.then_eq_lt, Nat.compare_eq_lt, Nat.compare_eq_eq]

end Date

namespace PackedDate

section

variable {n : ℕ}

theorem toInt_year_ofNat (h : n < 0x80000000) : (year (.ofNat n)).toInt = (n / 10000 : ℕ) := by
  have hdiv : Int32.ofNat (n / 10000) = Int32.ofNat n / 10000 := Int32.ofNat_div h (by decide)
  rw [year, ← hdiv, Int32.toInt_ofNat_of_lt (Nat.lt_of_le_of_lt (Nat.div_le_self n 10000) h)]

theorem toNat_month_ofNat (h : n < 0x80000000) : (month (.ofNat n)).toNat = n / 100 % 100 := by
  have hdiv : Int32.ofNat (n / 100) = Int32.ofNat n / 100 := Int32.ofNat_div h (by decide)
  have hmod : Int32.ofNat (n / 100 % 100) = Int32.ofNat (n / 100) % 100 :=
    ofNat_mod (Nat.lt_of_le_of_lt (Nat.div_le_self n 100) h) (by decide)
  rw [month, ← hdiv, ← hmod, Int32.toUInt32_ofNat']
  exact UInt32.toNat_ofNat_of_lt' (Nat.lt_trans (Nat.mod_lt _ (by decide)) (by decide))

theorem toNat_day_ofNat (h : n < 0x80000000) : (day (.ofNat n)).toNat = n % 100 := by
  have hmod : Int32.ofNat (n % 100) = Int32.ofNat n % 100 := ofNat_mod h (by decide)
  rw [day, ← hmod, Int32.toUInt32_ofNat']
  exact UInt32.toNat_ofNat_of_lt' (Nat.lt_trans (Nat.mod_lt _ (by decide)) (by decide))

end

theorem parts_word (d : Date) :
    (year d.word).toInt = d.year ∧ (month d.word).toNat = d.month ∧ (day d.word).toNat = d.day := by
  have h := d.packed_lt_two_pow_31
  obtain ⟨hyear, hmonth, hday⟩ := d.packed_parts
  rw [Date.word, toInt_year_ofNat h, toNat_month_ofNat h, toNat_day_ofNat h, hyear, hmonth, hday]
  exact ⟨rfl, rfl, rfl⟩

theorem eq_ofNat_of_parts {year : Int32} {month day : UInt32} {d : Date}
    (h : Date.ofParts? year.toInt month.toNat day.toNat = some d) :
    year = .ofNat d.year ∧ month.toInt32 = .ofNat d.month ∧ day.toInt32 = .ofNat d.day := by
  obtain ⟨hyear, hmonth, hday⟩ := Date.ofParts?_eq_some_iff.mp h
  refine ⟨eq_ofNat_of_toInt_eq hyear, ?_, ?_⟩
  · rw [← hmonth, ← UInt32.toInt32_ofNat', UInt32.ofNat_toNat]
  · rw [← hday, ← UInt32.toInt32_ofNat', UInt32.ofNat_toNat]

theorem pack_parts (d : Date) :
    (do
      let years ← mul (.ofNat d.year) 10000
      let months ← mul (.ofNat d.month) 100
      return some (← add (← add years months) (.ofNat d.day))) = .ok (some d.word) := by
  have hyear := d.year_lt
  have hmonth := d.month_lt
  have hday := d.day_lt
  have hyears : mul (.ofNat d.year) 10000 = .ok (.ofNat (d.year * 10000)) :=
    mul_ofNat (n := 10000) (by omega) (by omega) (by omega)
  have hmonths : mul (.ofNat d.month) 100 = .ok (.ofNat (d.month * 100)) :=
    mul_ofNat (n := 100) (by omega) (by omega) (by omega)
  have hsum : add (.ofNat (d.year * 10000)) (.ofNat (d.month * 100)) =
      .ok (.ofNat (d.year * 10000 + d.month * 100)) := add_ofNat (by omega) (by omega) (by omega)
  have hword : add (.ofNat (d.year * 10000 + d.month * 100)) (.ofNat d.day) = .ok d.word :=
    add_ofNat (by omega) (by omega) (by omega)
  simp only [hyears, hmonths, hsum, hword, ok_bind]
  rfl

/-- **Putting parts together finds the word of the date with these parts, without overflow.** -/
theorem ofParts_eq (year : Int32) (month day : UInt32) :
    ofParts year month day =
      .ok ((Date.ofParts? year.toInt month.toNat day.toNat).map Date.word) := by
  by_cases h : isDay year month day = true
  · have hdate : ∃ d, Date.ofParts? year.toInt month.toNat day.toNat = some d :=
      ⟨_, dif_pos (isDay_iff.mp h)⟩
    obtain ⟨d, hd⟩ := hdate
    obtain ⟨hyear, hmonth, hday⟩ := eq_ofNat_of_parts hd
    rw [ofParts, if_pos h, hd, hyear, hmonth, hday]
    exact pack_parts d
  · have hnone : Date.ofParts? year.toInt month.toNat day.toNat = none :=
      dif_neg (isDay_iff.not.mp h)
    rw [ofParts, if_neg h, hnone]
    rfl

/-- **Taking a word apart finds the date of that word, without overflow.** -/
theorem ofWord_eq (w : Int32) :
    ofWord w = .ok ((Date.ofPacked? w.toInt).map Date.word) := by
  by_cases h : w < 0
  · have hneg : w.toInt < 0 := Int32.lt_iff_toInt_lt.mp h
    rw [ofWord, if_pos h, Date.ofPacked?, if_pos hneg]
    rfl
  · have hneg : ¬ w.toInt < 0 := fun hlt => h (Int32.lt_iff_toInt_lt.mpr hlt)
    obtain ⟨n, hn⟩ := Int.eq_ofNat_of_zero_le (Int.not_lt.mp hneg)
    have hlt : n < 0x80000000 := by
      have hw := w.toInt_lt
      omega
    rw [ofWord, if_neg h, ofParts_eq, eq_ofNat_of_toInt_eq hn, toInt_year_ofNat hlt,
      toNat_month_ofNat hlt, toNat_day_ofNat hlt, Int32.toInt_ofNat_of_lt hlt, Date.ofPacked?,
      if_neg (by omega), Int.toNat_natCast]
    rfl

theorem ofWord_word (d : Date) : ofWord d.word = .ok (some d.word) := by
  rw [ofWord_eq, d.toInt_word, Date.ofPacked?_packed, Option.map_some]

/-- The words that can be come by as those of dates: from parts, from a word, as the default, from a
literal and from storage. -/
inductive Obtained : Int32 → Prop
  | ofParts {year : Int32} {month day : UInt32} {w : Int32}
    (h : PackedDate.ofParts year month day = .ok (some w)) : Obtained w
  | ofWord {v w : Int32} (h : PackedDate.ofWord v = .ok (some w)) : Obtained w
  | default : Obtained (default : Date).word
  | literal {text : String} {d : Date} (h : Date.ofText text = .ok d) : Obtained d.word
  | stored {bytes : List UInt8} {d : Date} (h : Storage.decode .date bytes = .ok (.date d)) :
    Obtained d.word

theorem eq_word_of_map {found : Option Date} {w : Int32}
    (h : (Except.ok (found.map Date.word) : Except Overflow _) = .ok (some w)) :
    ∃ d : Date, d.word = w := by
  obtain ⟨d, -, hd⟩ := Option.map_eq_some_iff.mp (Except.ok.inj h)
  exact ⟨d, hd⟩

/-- **Every word that is obtained is that of a date.** -/
theorem Obtained.exists_date {w : Int32} (h : Obtained w) : ∃ d : Date, d.word = w := by
  cases h with
  | ofParts h => exact eq_word_of_map (ofParts_eq _ _ _ ▸ h)
  | ofWord h => exact eq_word_of_map (ofWord_eq _ ▸ h)
  | default => exact ⟨_, rfl⟩
  | literal h => exact ⟨_, rfl⟩
  | stored h => exact ⟨_, rfl⟩

/-- The words of a day of the calendar in the years 0 to 9999. -/
def IsCalendarDay (year : Int32) (month day : UInt32) : Prop :=
  0 ≤ year.toInt ∧ year.toInt ≤ 9999 ∧ IsGregorian year.toInt month.toNat day.toNat

theorem exists_date_iff {year : Int32} {month day : UInt32} :
    (∃ d, Date.ofParts? year.toInt month.toNat day.toNat = some d) ↔
      IsCalendarDay year month day := by
  constructor
  · rintro ⟨d, hd⟩
    obtain ⟨hy, hm, hday⟩ := Date.ofParts?_eq_some_iff.mp hd
    obtain ⟨hyear, hgregorian⟩ := Datum.isDay_iff.mp d.isDay
    rw [IsCalendarDay, hy, hm, hday]
    exact ⟨Int.natCast_nonneg _, Int.ofNat_le.mpr hyear, hgregorian⟩
  · rintro ⟨hlow, hhigh, hgregorian⟩
    obtain ⟨n, hn⟩ := Int.eq_ofNat_of_zero_le hlow
    rw [hn] at hhigh hgregorian
    have hday : IsDay n month.toNat day.toNat :=
      Datum.isDay_iff.mpr ⟨Int.ofNat_le.mp hhigh, hgregorian⟩
    exact ⟨⟨n, _, _, hday⟩, Date.ofParts?_eq_some_iff.mpr ⟨hn, rfl, rfl⟩⟩

theorem ofParts?_words (d : Date) :
    Date.ofParts? (year d.word).toInt (month d.word).toNat (day d.word).toNat = some d := by
  obtain ⟨hyear, hmonth, hday⟩ := parts_word d
  rw [hyear, hmonth, hday, Date.ofParts?_parts]

section

variable {year' : Int32} {month' day' : UInt32} {d e : Date}

theorem eq_parts_word (h : Date.ofParts? year'.toInt month'.toNat day'.toNat = some d) :
    year d.word = year' ∧ month d.word = month' ∧ day d.word = day' := by
  obtain ⟨hyear, hmonth, hday⟩ := parts_word d
  obtain ⟨hy, hm, hd⟩ := Date.ofParts?_eq_some_iff.mp h
  exact ⟨Int32.toInt_inj.mp (hyear.trans hy.symm), UInt32.toNat_inj.mp (hmonth.trans hm.symm),
    UInt32.toNat_inj.mp (hday.trans hd.symm)⟩

theorem toInt_word_of_parts (h : Date.ofParts? year'.toInt month'.toNat day'.toNat = some d) :
    d.word.toInt = year'.toInt * 10000 + month'.toNat * 100 + day'.toNat := by
  obtain ⟨hy, hm, hd⟩ := Date.ofParts?_eq_some_iff.mp h
  rw [hy, hm, hd, d.toInt_word, Date.packed]
  omega

theorem ofPacked?_toInt_eq_some_iff {w : Int32} : Date.ofPacked? w.toInt = some d ↔ d.word = w := by
  constructor
  · intro h
    rw [← Int32.toInt_inj, d.toInt_word, Date.packed_of_ofPacked? h]
  · rintro rfl
    rw [d.toInt_word, Date.ofPacked?_packed]

theorem word_lt_word_iff_packed : d.word < e.word ↔ d.packed < e.packed := by
  rw [Int32.lt_iff_toInt_lt, d.toInt_word, e.toInt_word, Int.ofNat_lt]

/-- **Words are in the order of the calendar.** -/
theorem word_lt_word_iff :
    d.word < e.word ↔
      year d.word < year e.word ∨ year d.word = year e.word ∧
        (month d.word < month e.word ∨ month d.word = month e.word ∧ day d.word < day e.word) := by
  obtain ⟨hyear, hmonth, hday⟩ := parts_word d
  obtain ⟨hyear', hmonth', hday'⟩ := parts_word e
  rw [word_lt_word_iff_packed, Date.packed_lt_packed_iff, Int32.lt_iff_toInt_lt, ← Int32.toInt_inj,
    UInt32.lt_iff_toNat_lt, ← UInt32.toNat_inj, UInt32.lt_iff_toNat_lt, hyear, hyear', hmonth,
    hmonth', hday, hday', Int.ofNat_lt, Int.ofNat_inj]

end

/-- **Dates and their words correspond one to one and in order.**  Putting the parts of a day
together never overflows; it finds a word for the days of the calendar and nothing else, and the word
gives the parts back.  A word is that of a date if and only if it is the number `yyyymmdd` of such a
day.  Words are in the order of their parts, the year first.  Every word that is obtained as that of
a date is found to be one. -/
theorem dates_correspond_to_words :
    (∀ (year : Int32) (month day : UInt32),
      ofParts year month day =
        .ok ((Date.ofParts? year.toInt month.toNat day.toNat).map Date.word) ∧
      ((∃ d, Date.ofParts? year.toInt month.toNat day.toNat = some d) ↔
        IsCalendarDay year month day) ∧
      ∀ d, Date.ofParts? year.toInt month.toNat day.toNat = some d →
        d.word.toInt = year.toInt * 10000 + month.toNat * 100 + day.toNat ∧
        PackedDate.year d.word = year ∧ PackedDate.month d.word = month ∧
        PackedDate.day d.word = day) ∧
    (∀ p : Int32,
      ofWord p = .ok ((Date.ofPacked? p.toInt).map Date.word) ∧
      ∀ d, Date.ofPacked? p.toInt = some d ↔
        ∃ (year : Int32) (month day : UInt32), IsCalendarDay year month day ∧
          p.toInt = year.toInt * 10000 + month.toNat * 100 + day.toNat ∧
          Date.ofParts? year.toInt month.toNat day.toNat = some d ∧ d.word = p) ∧
    (∀ d e : Date,
      (d.compare e = .lt ↔ d.word < e.word) ∧
      (d.word < e.word ↔
        year d.word < year e.word ∨ year d.word = year e.word ∧
          (month d.word < month e.word ∨ month d.word = month e.word ∧
            day d.word < day e.word))) ∧
    (∀ w, Obtained w → ofWord w = .ok (some w)) := by
  refine ⟨?_, ?_, ?_, ?_⟩
  · intro year month day
    refine ⟨ofParts_eq year month day, exists_date_iff, ?_⟩
    intro d hd
    exact ⟨toInt_word_of_parts hd, eq_parts_word hd⟩
  · intro p
    refine ⟨ofWord_eq p, ?_⟩
    intro d
    rw [ofPacked?_toInt_eq_some_iff]
    constructor
    · rintro rfl
      have hparts := ofParts?_words d
      exact ⟨_, _, _, exists_date_iff.mp ⟨d, hparts⟩, toInt_word_of_parts hparts, hparts, rfl⟩
    · rintro ⟨_, _, _, -, -, -, hword⟩
      exact hword
  · intro d e
    exact ⟨Nat.compare_eq_lt.trans word_lt_word_iff_packed.symm, word_lt_word_iff⟩
  · intro w h
    obtain ⟨d, rfl⟩ := h.exists_date
    exact ofWord_word d

/-- A leap day of a century, the last day of the calendar and the default date. -/
theorem dates_correspond_to_words_at_edges :
    (Date.ofParts? 2000 2 29 = some ⟨2000, 2, 29, by decide⟩ ∧
      (Date.mk 2000 2 29 (by decide)).word.toInt = 20000229 ∧
      day (Date.mk 2000 2 29 (by decide)).word = 29) ∧
    (Date.ofPacked? 99991231 = some ⟨9999, 12, 31, by decide⟩ ∧ IsCalendarDay 9999 12 31) ∧
    ((default : Date).word = 19700101 ∧ Obtained (default : Date).word ∧
      ofWord 19700101 = .ok (some 19700101)) := by
  obtain ⟨hparts, hwords, -, hobtained⟩ := dates_correspond_to_words
  have hleap : Date.ofParts? 2000 2 29 = some ⟨2000, 2, 29, by decide⟩ := rfl
  have hlast : Date.ofPacked? 99991231 = some ⟨9999, 12, 31, by decide⟩ := rfl
  have hdefault : (default : Date).word = 19700101 := rfl
  obtain ⟨-, -, hread⟩ := hparts 2000 2 29
  obtain ⟨hword, -, -, hday⟩ := hread _ hleap
  refine ⟨⟨hleap, hword, hday⟩, ⟨hlast, ?_⟩, hdefault, .default, hobtained _ .default⟩
  exact (hparts 9999 12 31).2.1.mp ⟨_, rfl⟩

end PackedDate

end Datum
