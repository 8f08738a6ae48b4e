import Datum.Kind

/-! # The cost of a cast

A cost measures how far a cast goes from one kind to another. It serves only to choose which of two
operands to cast. Zero is the identity; the greatest number marks casts that do not exist, so that
it orders after every other cost.
-/

namespace Datum

structure CastCost where
  value : UInt32
deriving DecidableEq

namespace CastCost

def identity : CastCost := ⟨0⟩

def unreachable : CastCost := ⟨0xffffffff⟩

def isReachable (c : CastCost) : Bool :=
  c ≠ unreachable

def compare (c d : CastCost) : Ordering :=
  Ord.compare c.value.toNat d.value.toNat

def toText (c : CastCost) : String :=
  if c.isReachable then String.ofList (Nat.toDigits 10 c.value.toNat) else "unreachable"

instance : ToString CastCost := ⟨toText⟩

end CastCost

def castCost : Kind → Kind → CastCost
  | .integer, .integer => .identity
  | .integer, .float => ⟨1⟩
  | .integer, .charString => ⟨3⟩
  | .integer, .text => ⟨4⟩
  | .integer, .boolean => ⟨3⟩
  | .float, .integer => ⟨2⟩
  | .float, .float => .identity
  | .float, .charString => ⟨3⟩
  | .float, .text => ⟨4⟩
  | .charString, .integer => ⟨1⟩
  | .charString, .float => ⟨2⟩
  | .charString, .charString => .identity
  | .charString, .text => ⟨1⟩
  | .charString, .date => ⟨3⟩
  | .charString, .boolean => ⟨4⟩
  | .text, .integer => ⟨2⟩
  | .text, .float => ⟨3⟩
  | .text, .charString => ⟨1⟩
  | .text, .text => .identity
  | .text, .date => ⟨4⟩
  | .text, .boolean => ⟨5⟩
  | .date, .charString => ⟨4⟩
  | .date, .text => ⟨5⟩
  | .date, .date => .identity
  | .boolean, .integer => ⟨1⟩
  | .boolean, .float => ⟨2⟩
  | .boolean, .charString => ⟨5⟩
  | .boolean, .text => ⟨6⟩
  | .boolean, .boolean => .identity
  | .null, .null => .identity
  | .null, _ => ⟨1⟩
  | _, _ => .unreachable

end Datum
