import Datum.Date.Basic
import Datum.Text.Layout

/-! # Date literals

A date literal is a year, a month and a day of at most four, two and two decimal digits, joined by
dashes, with ASCII blanks around it. The parts are checked from left to right before the calendar is
asked.
-/

namespace Datum

inductive DatePart where
  | year
  | month
  | day
deriving DecidableEq

namespace DatePart

def name : DatePart → String
  | year => "year"
  | month => "month"
  | day => "day"

def maxDigits : DatePart → Nat
  | year => 4
  | month => 2
  | day => 2

end DatePart

namespace Date

inductive Fault where
  | shape
  | badPart (part : DatePart) (text : String)
  | notInCalendar (year month day : Nat)
deriving DecidableEq

def Fault.message : Fault → String
  | shape => "expected YYYY-MM-DD"
  | badPart part text => "invalid " ++ part.name ++ " '" ++ text ++ "'"
  | notInCalendar year month day => partsText year month day ++ " is not a calendar date"

/-- Splits at every dash, given the reversed characters of the part under way. -/
def splitAtDashes : List Char → List Char → List (List Char)
  | rev, [] => [rev.reverse]
  | rev, c :: rest =>
    if c = '-' then rev.reverse :: splitAtDashes [] rest else splitAtDashes (c :: rev) rest

def readPart (part : DatePart) (text : List Char) : Except Fault Nat :=
  if text ≠ [] ∧ text.length ≤ part.maxDigits ∧ text.all Char.isDigit = true then
    .ok (Nat.ofDigitChars 10 text 0)
  else
    .error (.badPart part (String.ofList text))

def ofText (text : String) : Except Fault Date :=
  match splitAtDashes [] (Text.trimAscii text) with
  | [yearText, monthText, dayText] => do
    let year ← readPart .year yearText
    let month ← readPart .month monthText
    let day ← readPart .day dayText
    match ofParts? year month day with
    | some date => return date
    | none => throw (.notInCalendar year month day)
  | _ => throw .shape

end Date

end Datum
