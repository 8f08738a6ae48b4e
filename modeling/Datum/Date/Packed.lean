import Datum.Date.Basic

/-! # Packed dates

A date is kept as one signed word, which holds the number `yyyymmdd`. It is put together from the
words of a year, a month and a day, once these are known to be a day of the calendar, and the parts
are read off again by dividing. A product or a sum that a signed word cannot hold is an overflow.
-/

namespace Datum

inductive Overflow where
  | overflow
deriving DecidableEq

namespace PackedDate

/-- A number as a signed word. -/
def checked (n : Int) : Except Overflow Int32 :=
  if -0x80000000 ≤ n ∧ n < 0x80000000 then .ok (.ofInt n) else .error .overflow

def add (a b : Int32) : Except Overflow Int32 :=
  checked (a.toInt + b.toInt)

def mul (a b : Int32) : Except Overflow Int32 :=
  checked (a.toInt * b.toInt)

def isLeapYear (year : Int32) : Bool :=
  (year % 4 == 0 && year % 100 != 0) || year % 400 == 0

def daysInMonth (year : Int32) (month : UInt32) : UInt32 :=
  match month.toNat with
  | 1 | 3 | 5 | 7 | 8 | 10 | 12 => 31
  | 4 | 6 | 9 | 11 => 30
  | 2 => if isLeapYear year then 29 else 28
  | _ => 0

def isDay (year : Int32) (month day : UInt32) : Bool :=
  (0 ≤ year && year ≤ 9999) && (1 ≤ month && month ≤ 12) && 1 ≤ day && day ≤ daysInMonth year month

def ofParts (year : Int32) (month day : UInt32) : Except Overflow (Option Int32) :=
  if isDay year month day then do
    let years ← mul year 10000
    let months ← mul month.toInt32 100
    return some (← add (← add years months) day.toInt32)
  else .ok none

def year (packed : Int32) : Int32 :=
  packed / 10000

def month (packed : Int32) : UInt32 :=
  (packed / 100 % 100).toUInt32

def day (packed : Int32) : UInt32 :=
  (packed % 100).toUInt32

/-- The word itself if it is that of a day. -/
def ofWord (packed : Int32) : Except Overflow (Option Int32) :=
  if packed < 0 then .ok none else ofParts (year packed) (month packed) (day packed)

end PackedDate

def Date.word (d : Date) : Int32 :=
  .ofNat d.packed

end Datum
