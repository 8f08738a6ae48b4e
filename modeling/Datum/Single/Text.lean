import Datum.Single.Shortest

/-! # The text of a single

The plain text of a number is its shortest decimal, written out without an exponent. Whole numbers
have no point. A decimal is split at its point once for all layouts.
-/

namespace Datum

namespace Decimal

def digitText (d : Decimal) : List Char :=
  Nat.toDigits 10 d.digits

def leadingExponent (d : Decimal) : Int :=
  d.exponent + (d.digitText.length - 1 : Nat)

/-- The digits before the point, of which there is at least one, and those after it. -/
def split (d : Decimal) : List Char × List Char :=
  let digits := d.digitText
  match d.exponent with
  | .ofNat n => (digits ++ List.replicate n '0', [])
  | .negSucc n =>
    let places := n + 1
    if places < digits.length then digits.splitAt (digits.length - places)
    else (['0'], List.replicate (places - digits.length) '0' ++ digits)

def chars (d : Decimal) : List Char :=
  let (whole, fraction) := d.split
  if fraction = [] then whole else whole ++ '.' :: fraction

end Decimal

namespace Single

/-- A sign in front of negative numbers, the negative zero among them. -/
def withSign (x : Single) (magnitude : List Char) : List Char :=
  if x.isNegative then '-' :: magnitude else magnitude

/-- The characters of the plain text. Of two equally near decimals it takes the upper one. -/
def plainChars (x : Single) : List Char :=
  if x.isNaN then ['N', 'a', 'N']
  else if x.isInfinite then x.withSign ['i', 'n', 'f']
  else x.withSign (x.shortest .up).chars

/-- The plain text: the fewest digits that read back, without an exponent. -/
def toText (x : Single) : String :=
  String.ofList x.plainChars

end Single

instance : ToString Single := ⟨Single.toText⟩

end Datum
