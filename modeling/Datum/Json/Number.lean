import Datum.Json.Basic
import Datum.Single.Text

/-! # Singles as JSON numbers

A finite single is written by its shortest decimal: positional from 10^-6 to below 10^13, always
with a point, and with an exponent beyond.

Reading goes through double precision. A whole number that fits 64 bits is rounded to a single
directly. Otherwise digits are taken into a significand as long as it fits 64 bits, and the result
is scaled by powers of ten, each step rounded to double precision, before it is rounded to a single.
Numbers beyond double precision are refused; numbers beyond single precision become infinite.
-/

namespace Datum

-- the power of the core library, also where algebra has one of its own
attribute [local instance (high)] instPowNat

namespace Json.Number

/-- The number that a finite single is written as. Of two equally near decimals it is the even
one. -/
def ofSingle (x : Single) : Number :=
  let d := x.shortest .toEven
  let e := d.leadingExponent
  if -6 ≤ e ∧ e ≤ 12 then
    let (whole, fraction) := d.split
    ⟨x.isNegative, whole, if fraction = [] then ['0'] else fraction, none⟩
  else
    ⟨x.isNegative, d.digitText.take 1, d.digitText.drop 1, some e⟩

/-- The whole number that the digits denote. Anything with a point or an exponent denotes none, and
neither does the negative zero. -/
def toInt? (n : Number) : Option Int :=
  let magnitude := Nat.ofDigitChars 10 n.whole 0
  if n.fraction ≠ [] ∨ n.exponent ≠ none ∨ (n.negative ∧ magnitude = 0) then none
  else some (if n.negative then -(magnitude : Int) else magnitude)

/-- Appends digits to a significand while it fits 64 bits; the digits that do not are left over. -/
def takeDigits : Nat → List Char → Nat × List Char
  | significand, [] => (significand, [])
  | significand, c :: rest =>
    let next := 10 * significand + (c.toNat - '0'.toNat)
    if next < UInt64.size then takeDigits next rest else (significand, c :: rest)

/-- The significand of 64 bits, and the power of ten it is to be multiplied with. -/
def significand (n : Number) : Nat × Int :=
  let (head, skipped) := takeDigits 0 n.whole
  let (digits, unused) := takeDigits head n.fraction
  let places : Nat := n.fraction.length - unused.length
  (digits, n.exponent.getD 0 + skipped.length - places)

/-- The greatest exponent of ten in double precision. -/
def greatestPower : Nat := 308

def timesPower (x e : Nat) : Nat :=
  let f := BinaryFormat.double
  f.nearest (f.units x * f.units (f.ofNat (10 ^ e))) f.scale

def overPower (x e : Nat) : Nat :=
  let f := BinaryFormat.double
  f.nearest (f.units x * f.scale) (f.units (f.ofNat (10 ^ e)))

/-- A significand times a power of ten, as a double-precision magnitude; none beyond the finite
ones. Powers below the least are divided by in two steps, and what is beyond those is zero. -/
def scaled? (significand : Nat) (exponent : Int) : Option Nat :=
  let x := BinaryFormat.double.ofNat significand
  match exponent with
  | .ofNat e =>
    if significand = 0 then some 0
    else if e ≤ greatestPower then
      let y := timesPower x e
      if y < BinaryFormat.double.infinity then some y else none
    else none
  | .negSucc n =>
    let e := n + 1
    if e ≤ greatestPower then some (overPower x e)
    else if e ≤ 2 * greatestPower then
      some (overPower (overPower x greatestPower) (e - greatestPower))
    else some 0

/-- A whole number that is rounded to a single directly: one that fits 64 bits, as a signed number if
it is negative. -/
def word? (n : Number) : Option Int :=
  n.toInt?.filter fun i => -0x8000000000000000 ≤ i ∧ i < UInt64.size

def toSingle? (n : Number) : Option Single :=
  match n.word? with
  | some i => some (Single.ofInt i)
  | none =>
    let (digits, exponent) := n.significand
    (scaled? digits exponent).map fun x =>
      Single.nearest n.negative (BinaryFormat.double.units x * BinaryFormat.single.scale)
        BinaryFormat.double.scale

end Json.Number

end Datum
