import Datum.Binary

/-! # Single-precision numbers

A single is a word of 32 bits: a sign, and the encoding of a magnitude in single precision, an
infinity or a NaN. Two orders are told apart: identity of the words, by which the zeros and the
NaNs differ, and `Single.compare`, a total order in which the zeros are equal and all NaNs are one
value above everything else.
-/

namespace Datum

structure Single where
  bits : UInt32
deriving DecidableEq, Inhabited

namespace Single

/-- The encoding of the magnitude: the bits without the sign. -/
def magnitude (x : Single) : Nat :=
  x.bits.toNat % 0x80000000

/-- The sign bit. NaNs and the negative zero have one, too. -/
def isNegative (x : Single) : Bool :=
  0x80000000 ≤ x.bits.toNat

def isNaN (x : Single) : Bool :=
  BinaryFormat.single.infinity < x.magnitude

def isInfinite (x : Single) : Bool :=
  x.magnitude == BinaryFormat.single.infinity

def isFinite (x : Single) : Bool :=
  x.magnitude < BinaryFormat.single.infinity

def ofMagnitude (negative : Bool) (code : Nat) : Single :=
  ⟨((if negative then 0x80000000 else 0) + code % 0x80000000).toUInt32⟩

def nan : Single := ⟨0x7fc00000⟩

def infinity (negative : Bool) : Single :=
  ofMagnitude negative BinaryFormat.single.infinity

/-- The largest finite number, 2^128 - 2^104. -/
def greatestFinite : Single := ⟨0x7f7fffff⟩

/-- The magnitude of a finite number in units of 2^-149. -/
def units (x : Single) : Nat :=
  BinaryFormat.single.units x.magnitude

def signedUnits (x : Single) : Int :=
  if x.isNegative then -(x.units : Int) else x.units

/-- A number by which all but the NaNs can be compared: the encoding of the magnitude, with the
sign. -/
def rank (x : Single) : Int :=
  if x.isNegative then -(x.magnitude : Int) else x.magnitude

/-- The total order of singles: by value, the zeros equal, and the NaNs equal to each other and
above everything else. -/
def compare (x y : Single) : Ordering :=
  match x.isNaN, y.isNaN with
  | true, true => .eq
  | true, false => .gt
  | false, true => .lt
  | false, false => Ord.compare x.rank y.rank

theorem compare_self (x : Single) : x.compare x = .eq := by
  unfold compare
  cases x.isNaN <;> simp

theorem compare_swap (x y : Single) : (x.compare y).swap = y.compare x := by
  unfold compare
  cases x.isNaN <;> cases y.isNaN
  · exact Int.compare_swap ..
  all_goals rfl

/-- One bit pattern for all numbers that `compare` takes as equal. -/
def canonicalBits (x : Single) : UInt32 :=
  if x.isNaN then nan.bits
  else if x.magnitude = 0 then 0
  else x.bits

/-- The single nearest to `num / den` units of 2^-149 in magnitude; infinite if beyond the finite
ones. -/
def nearest (negative : Bool) (num den : Nat) : Single :=
  ofMagnitude negative (BinaryFormat.single.nearest num den)

def ofInt (n : Int) : Single :=
  ofMagnitude (n < 0) (BinaryFormat.single.ofNat n.natAbs)

/-- The single nearest to an integer, if both are the same number in double precision.

It is irreducible so that no proof is checked by rounding an open term; `ofIntExact?_cases` says what
the test decides. -/
@[irreducible]
def ofIntExact? (n : Int) : Option Single :=
  let x := ofInt n
  if BinaryFormat.single.convert .double x.magnitude = BinaryFormat.double.ofNat n.natAbs then some x
  else none

def roundHalfAway (x : Single) : Int :=
  let scale := BinaryFormat.single.scale
  let n := (2 * x.units + scale) / (2 * scale)
  if x.isNegative then -(n : Int) else n

/-- The nearest integer as a single again, a half away from zero. What is not finite stays. -/
def round (x : Single) : Single :=
  if x.isFinite then ofMagnitude x.isNegative (BinaryFormat.single.ofNat x.roundHalfAway.natAbs)
  else x

/-- A number without its fraction as a 32-bit integer. What is out of range becomes the nearer end of
it, and a NaN zero. -/
def truncate (x : Single) : Int32 :=
  if x.isNaN then 0
  else
    let n : Int := ↑(x.units / BinaryFormat.single.scale)
    .ofInt (max (-0x80000000) (min 0x7fffffff (if x.isNegative then -n else n)))

def int32Bound : Single := ⟨0x4f000000⟩

def int32Least : Single := ⟨0xcf000000⟩

/-- The 32-bit integer nearest to a number, a half away from zero; none for what is not finite or
out of range. The range is that of the rounded single. -/
def toInt32? (x : Single) : Option Int32 :=
  let rounded := x.round
  if rounded.isNaN ∨ rounded.rank < int32Least.rank ∨ int32Bound.rank ≤ rounded.rank then none
  else some rounded.truncate

end Single

end Datum
