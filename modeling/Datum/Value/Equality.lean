import Datum.Value.Basic
import Datum.Word

/-! # Structural equality and hashing

Two values are structurally equal if they have the same kind and equal payloads, where payloads are
compared as their kind compares them: the two zeros are one float, and so are all NaNs. Nulls are
equal if their kinds are. What a value feeds to a hasher is made so that equal values feed the same.
-/

namespace Datum

namespace Value

def equals : Value → Value → Bool
  | null k, null l => k = l
  | integer m, integer n => m = n
  | float x, float y => x.compare y = .eq
  | charString bs, charString cs => bs = cs
  | text bs, text cs => bs = cs
  | date d, date e => d = e
  | boolean a, boolean b => a = b
  | _, _ => false

/-- What a value feeds to a hasher: a tag of its form, and the bytes of its payload. Floats that
compare as equal feed the same bits. -/
def hashFeed : Value → Nat × List UInt8
  | null kind => (0, [kind.index.toUInt8])
  | integer n => (1, wordBytes n.toUInt32)
  | float x => (2, wordBytes x.canonicalBits)
  | charString bytes => (3, bytes)
  | text bytes => (4, bytes)
  | date d => (5, wordBytes d.packed.toUInt32)
  | boolean b => (6, [if b then 1 else 0])

/-- Whether a hash table takes both values as one key: they feed the hasher the same and are
equal. -/
def sameKey (v w : Value) : Bool :=
  v.hashFeed = w.hashFeed && v.equals w

/-- The position of a value among the keys met so far, and the keys with it. -/
def placeKey (keys : List Value) (v : Value) : Nat × List Value :=
  match keys.findIdx? fun key => key.sameKey v with
  | some i => (i, keys)
  | none => (keys.length, keys ++ [v])

/-- Numbers each value by its group, in the order in which the groups first appear, behind the keys
met so far. -/
def groupFrom (keys : List Value) : List Value → List Nat × List Value
  | [] => ([], keys)
  | v :: rest =>
    let (group, keys) := placeKey keys v
    let (groups, keys) := groupFrom keys rest
    (group :: groups, keys)

def group (values : List Value) : List Nat × Nat :=
  let (groups, keys) := groupFrom [] values
  (groups, keys.length)

end Value

end Datum
