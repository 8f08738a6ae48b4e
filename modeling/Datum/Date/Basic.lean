/-! # Calendar dates

A date is a day of the proleptic Gregorian calendar in the years 0 to 9999. It is packed for storage
and comparison into the number `yyyymmdd`, whose order is that of the calendar.
-/

namespace Datum

/-- Every fourth year is a leap year, but of the full centuries only every fourth. -/
def isLeapYear (year : Nat) : Bool :=
  (year % 4 == 0 && year % 100 != 0) || year % 400 == 0

/-- The number of days in a month; none outside 1 to 12. -/
def daysInMonth (year month : Nat) : Nat :=
  match month with
  | 1 | 3 | 5 | 7 | 8 | 10 | 12 => 31
  | 4 | 6 | 9 | 11 => 30
  | 2 => if isLeapYear year then 29 else 28
  | _ => 0

/-- A day of the calendar in the years 0 to 9999. -/
def IsDay (year month day : Nat) : Prop :=
  year ≤ 9999 ∧ 1 ≤ day ∧ day ≤ daysInMonth year month

instance (year month day : Nat) : Decidable (IsDay year month day) :=
  inferInstanceAs (Decidable (_ ∧ _))

theorem daysInMonth_le (year month : Nat) : daysInMonth year month ≤ 31 := by
  unfold daysInMonth
  split <;> try omega
  split <;> omega

theorem IsDay.month_bounds {year month day : Nat} (h : IsDay year month day) :
    1 ≤ month ∧ month ≤ 12 := by
  obtain ⟨-, h1, h2⟩ := h
  unfold daysInMonth at h2
  split at h2 <;> omega

theorem IsDay.day_le {year month day : Nat} (h : IsDay year month day) : day ≤ 31 :=
  Nat.le_trans h.2.2 (daysInMonth_le year month)

structure Date where
  year : Nat
  month : Nat
  day : Nat
  isDay : IsDay year month day
deriving DecidableEq

namespace Date

def minYear : Int := 0

def maxYear : Int := 9999

instance : Inhabited Date :=
  ⟨1970, 1, 1, by decide⟩

def ofParts? (year : Int) (month day : Nat) : Option Date :=
  if h : 0 ≤ year ∧ IsDay year.toNat month day then some ⟨year.toNat, month, day, h.2⟩ else none

/-- The number `yyyymmdd`. -/
def packed (d : Date) : Nat :=
  d.year * 10000 + d.month * 100 + d.day

def ofPacked? (n : Int) : Option Date :=
  if n < 0 then none
  else ofParts? (n / 10000) (n.toNat / 100 % 100) (n.toNat % 100)

theorem ofParts?_parts (d : Date) : ofParts? d.year d.month d.day = some d := by
  have h : 0 ≤ (d.year : Int) ∧ IsDay (d.year : Int).toNat d.month d.day := ⟨by omega, d.isDay⟩
  rw [ofParts?, dif_pos h]
  rfl

theorem ofParts?_eq_some_iff {year : Int} {month day : Nat} {d : Date} :
    ofParts? year month day = some d ↔ year = d.year ∧ month = d.month ∧ day = d.day := by
  constructor
  · intro h
    unfold ofParts? at h
    split at h
    · rename_i hday
      obtain rfl := Option.some.inj h
      exact ⟨(Int.toNat_of_nonneg hday.1).symm, rfl, rfl⟩
    · cases h
  · rintro ⟨rfl, rfl, rfl⟩
    exact ofParts?_parts d

theorem year_lt (d : Date) : d.year < 10000 :=
  Nat.lt_succ_of_le d.isDay.1

theorem month_lt (d : Date) : d.month < 100 :=
  Nat.lt_of_le_of_lt d.isDay.month_bounds.2 (by decide)

theorem day_lt (d : Date) : d.day < 100 :=
  Nat.lt_of_le_of_lt d.isDay.day_le (by decide)

theorem packed_lt (d : Date) : d.packed < 100000000 := by
  have hy := d.year_lt
  have hm := d.month_lt
  have hd := d.day_lt
  unfold packed
  omega

theorem packed_parts (d : Date) :
    d.packed / 10000 = d.year ∧ d.packed / 100 % 100 = d.month ∧ d.packed % 100 = d.day := by
  have hm := d.month_lt
  have hd := d.day_lt
  unfold packed
  omega

theorem ofPacked?_packed (d : Date) : ofPacked? d.packed = some d := by
  obtain ⟨hyear, hmonth, hday⟩ := d.packed_parts
  have hyear : (d.packed : Int) / 10000 = d.year := congrArg Int.ofNat hyear
  rw [ofPacked?, if_neg (by omega), hyear, Int.toNat_natCast, hmonth, hday, ofParts?_parts]

theorem packed_injective {d e : Date} (h : d.packed = e.packed) : d = e := by
  have hd := ofPacked?_packed d
  rw [h, ofPacked?_packed] at hd
  exact (Option.some.inj hd).symm

/-- Dates are ordered by their packed numbers. -/
def compare (x y : Date) : Ordering :=
  Ord.compare x.packed y.packed

/-- A number in decimal with zeros in front up to `width` digits. -/
def padded (width n : Nat) : List Char :=
  let digits := Nat.toDigits 10 n
  List.replicate (width - digits.length) '0' ++ digits

/-- Year, month and day with at least four, two and two digits, joined by dashes. -/
def partsText (year month day : Nat) : String :=
  String.ofList (padded 4 year ++ '-' :: padded 2 month ++ '-' :: padded 2 day)

def toText (d : Date) : String :=
  partsText d.year d.month d.day

instance : ToString Date := ⟨toText⟩

end Date

end Datum
