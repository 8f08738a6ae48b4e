/-! # Binary floating-point magnitudes

A binary format spaces its magnitudes evenly below a power of two and twice as far apart in each
octave above it. Counting in units of the smallest spacing makes every finite magnitude a natural
number, so that reading, rounding and comparing need no fractions. `BinaryFormat.units` reads the
encoding of a magnitude, `BinaryFormat.nearest` rounds a ratio of units to the nearest encoding.
-/

namespace Datum

-- the power of the core library, also where algebra has one of its own
attribute [local instance (high)] instPowNat

/-- A quotient rounded to the nearest natural number, a half to the even neighbour. -/
def roundHalfEven (num den : Nat) : Nat :=
  let q := num / den
  let r := num % den
  if 2 * r < den then q
  else if den < 2 * r then q + 1
  else q + q % 2

/-- A binary format. `fractionBits` are stored after the leading bit, `unitExponent` is the
negated exponent of two of the smallest magnitude, and the encodings from `infinity` on hold no
finite magnitude. -/
structure BinaryFormat where
  fractionBits : Nat
  unitExponent : Nat
  infinity : Nat

namespace BinaryFormat

/-- Single precision: 24 significant bits, smallest magnitude 2^-149. -/
def single : BinaryFormat := ⟨23, 149, 0x7f800000⟩

/-- Double precision: 53 significant bits, smallest magnitude 2^-1074. -/
def double : BinaryFormat := ⟨52, 1074, 0x7ff0000000000000⟩

variable (f : BinaryFormat)

/-- Units per unit of value: `n` units are the number `n / f.scale`. -/
def scale : Nat :=
  2 ^ f.unitExponent

/-- How many doublings of the spacing lie below the encoding. -/
def octave (code : Nat) : Nat :=
  code / 2 ^ f.fractionBits - 1

/-- The significant bits of the encoding as a number: its value is this, doubled `octave` times. -/
def significand (code : Nat) : Nat :=
  code - 2 ^ f.fractionBits * f.octave code

def units (code : Nat) : Nat :=
  f.significand code * 2 ^ f.octave code

/-- How often the spacing has doubled at a magnitude of `n` units. -/
def octaveOfUnits (n : Nat) : Nat :=
  Nat.log2 n - f.fractionBits

/-- The encoding nearest to `num / den` units, a half to the even one. What is nearer to the next
magnitude beyond the finite ones becomes the infinity. -/
def nearest (num den : Nat) : Nat :=
  let k := f.octaveOfUnits (num / den)
  min (2 ^ f.fractionBits * k + roundHalfEven num (den * 2 ^ k)) f.infinity

def ofNat (n : Nat) : Nat :=
  f.nearest (f.scale * n) 1

/-- The encoding in `g` nearest to the magnitude of an encoding in `f`. -/
def convert (g : BinaryFormat) (code : Nat) : Nat :=
  g.nearest (g.scale * f.units code) f.scale

end BinaryFormat

end Datum
