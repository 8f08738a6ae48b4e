import Datum.Single.Basic

/-! # The shortest decimal that reads back

Every finite single is a whole number of units of 10^-149, since 2^-149 is 5^149 of them. The
reals that round to it form an interval around it; among the decimals in that interval the one with
the fewest digits is chosen, and of those the nearest. All of it is arithmetic on natural numbers:
the search goes through the decimal grids from the coarsest to the unit itself, which contains the
number, so that it always ends with a hit.
-/

namespace Datum

-- the power of the core library, also where algebra has one of its own
attribute [local instance (high)] instPowNat

/-- The decimal `digits * 10 ^ exponent`. -/
structure Decimal where
  digits : Nat
  exponent : Int
deriving DecidableEq

/-- Which of two equally near candidates is taken. -/
inductive Tie where
  | up
  | toEven
deriving DecidableEq

namespace Single

/-- The decimal scale in which every finite single is whole. -/
def decimalPlaces : Nat := 149

/-- The magnitude of a finite number in units of 10^-149. -/
def decimalUnits (x : Single) : Nat :=
  5 ^ decimalPlaces * x.units

/-- Four times the distance from a number of units `u` to the ends of the interval that rounds to
it: below and above. The interval is narrower below a power of two. -/
def gaps (x : Single) : Nat × Nat :=
  let spacing := 5 ^ decimalPlaces * 2 ^ BinaryFormat.single.octave x.magnitude
  if x.magnitude % 2 ^ BinaryFormat.single.fractionBits = 0 ∧
      2 ^ BinaryFormat.single.fractionBits ≤ x.magnitude then
    (spacing, 2 * spacing)
  else
    (2 * spacing, 2 * spacing)

/-- Whether `candidate`, in units of 10^-149, rounds to the magnitude of `x`. The ends of the
interval do so if the significand is even. -/
def roundsTo (x : Single) (candidate : Nat) : Bool :=
  let v := 4 * x.decimalUnits
  let c := 4 * candidate
  let (below, above) := x.gaps
  if x.magnitude % 2 = 0 then v - below ≤ c && c ≤ v + above
  else v - below < c && c < v + above

/-- The multiple of `grid` nearest to the magnitude among its two neighbours that round to it, as
a number of grid steps. -/
def nearestOnGrid? (tie : Tie) (x : Single) (grid : Nat) : Option Nat :=
  let v := x.decimalUnits
  let floor := v / grid
  let hitFloor := 0 < floor && x.roundsTo (floor * grid)
  let hitCeil := x.roundsTo ((floor + 1) * grid)
  if hitFloor && hitCeil then
    match Ord.compare (2 * v) ((2 * floor + 1) * grid) with
    | .lt => some floor
    | .gt => some (floor + 1)
    | .eq => some (if tie = .toEven ∧ floor % 2 = 0 then floor else floor + 1)
  else if hitFloor then some floor
  else if hitCeil then some (floor + 1)
  else none

/-- The first hit on the grids of `10 ^ k`, `10 ^ (k - 1)`, …, `1` units. -/
def firstHit (tie : Tie) (x : Single) : Nat → Nat × Nat
  | 0 => (x.decimalUnits, 0)
  | k + 1 =>
    match x.nearestOnGrid? tie (10 ^ (k + 1)) with
    | some n => (n, k + 1)
    | none => firstHit tie x k

/-- Moves the zeros at the end of `digits` into the exponent; at most `bound` of them. -/
def stripZeros : Nat → Nat → Nat → Nat × Nat
  | 0, digits, zeros => (digits, zeros)
  | bound + 1, digits, zeros =>
    if digits ≠ 0 ∧ digits % 10 = 0 then stripZeros bound (digits / 10) (zeros + 1)
    else (digits, zeros)

/-- The magnitude of a finite number by its fewest digits. -/
def shortest (tie : Tie) (x : Single) : Decimal :=
  if x.units = 0 then ⟨0, 0⟩ else
  let length := (Nat.toDigits 10 x.decimalUnits).length
  let (steps, k) := x.firstHit tie (length - 1)
  let (digits, zeros) := stripZeros length steps 0
  ⟨digits, (k + zeros : Nat) - (decimalPlaces : Int)⟩

end Single

end Datum
