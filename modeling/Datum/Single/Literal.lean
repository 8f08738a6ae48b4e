import Datum.Single.Basic
import Datum.Text.Digits
import Datum.Text.Layout

/-! # Float literals

A float literal is an optional sign and either one of the words `inf`, `infinity` and `nan` in any
case or a decimal number: digits with at most one point among or beside them, and an optional
exponent. A decimal number denotes the single nearest to its exact value; one that is nearer to the
next power of two than to the greatest finite single is out of range.
-/

namespace Datum.Single

-- the power of the core library, also where algebra has one of its own
attribute [local instance (high)] instPowNat

open Text (spanDigits readSign)

/-- A decimal number as it is written: the digits before and after the point, and the exponent. -/
structure Numeral where
  whole : List Char
  fraction : List Char
  exponent : Int
deriving DecidableEq

namespace Numeral

def digits (n : Numeral) : Nat :=
  Nat.ofDigitChars 10 (n.whole ++ n.fraction) 0

/-- The power of ten that the digits are to be multiplied with. -/
def scale (n : Numeral) : Int :=
  n.exponent - n.fraction.length

/-- A power of ten far beyond the range of singles. -/
def farPower : Nat := 60

/-- The number of units of 2^-149 as a fraction. A number whose first digit is far beyond the range
of singles, on either side, is replaced by one that is just beyond. -/
def unitFraction (n : Numeral) : Nat × Nat :=
  let digits := n.digits
  let leading := n.scale + (Nat.toDigits 10 digits).length
  if digits = 0 ∨ leading < -farPower then (0, 1)
  else if farPower < leading then (10 ^ farPower * BinaryFormat.single.scale, 1)
  else
    match n.scale with
    | .ofNat e => (digits * 10 ^ e * BinaryFormat.single.scale, 1)
    | .negSucc e => (digits * BinaryFormat.single.scale, 10 ^ (e + 1))

end Numeral

/-- What a float literal says without its sign. -/
inductive Magnitude where
  | infinity
  | nan
  | number (n : Numeral)
deriving DecidableEq

inductive Fault where
  | empty
  | notNumber
  | outOfRange
deriving DecidableEq

/-- Reads an exponent that takes up the whole text; without one it is zero. -/
def readExponent? : List Char → Option Int
  | [] => some 0
  | c :: rest =>
    if c = 'e' ∨ c = 'E' then
      let (negative, digits) := readSign rest
      if digits ≠ [] ∧ digits.all Char.isDigit = true then
        let n := Nat.ofDigitChars 10 digits 0
        some (if negative then -(n : Int) else n)
      else none
    else none

def readFraction : List Char → List Char × List Char
  | '.' :: rest => spanDigits rest
  | rest => ([], rest)

def readNumeral? (text : List Char) : Option Numeral := do
  let (whole, afterWhole) := spanDigits text
  let (fraction, afterFraction) := readFraction afterWhole
  guard (whole ≠ [] ∨ fraction ≠ [])
  let exponent ← readExponent? afterFraction
  return ⟨whole, fraction, exponent⟩

def readMagnitude? (text : List Char) : Option Magnitude :=
  match readNumeral? text with
  | some n => some (.number n)
  | none =>
    let word := String.ofList (text.map Char.toLower)
    if word = "inf" ∨ word = "infinity" then some .infinity
    else if word = "nan" then some .nan
    else none

/-- The single that a sign and a magnitude denote, possibly an infinity. -/
def denote (negative : Bool) : Magnitude → Single
  | .infinity => infinity negative
  | .nan => ofMagnitude negative nan.magnitude
  | .number n =>
    let (num, den) := n.unitFraction
    nearest negative num den

def ofText (text : String) : Except Fault Single :=
  match Text.trimAscii text with
  | [] => .error .empty
  | signed =>
    let (negative, unsigned) := readSign signed
    match readMagnitude? unsigned with
    | none => .error .notNumber
    | some m =>
      let x := denote negative m
      if x.isInfinite ∧ m ≠ .infinity then .error .outOfRange else .ok x

end Datum.Single
