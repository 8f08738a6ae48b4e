/-! # Digits

The pieces of which numbers in text are made: a sign, a run of decimal digits and a hexadecimal
digit. Bytes are shown with two hexadecimal digits each. Reading takes a text apart by pairs of its
UTF-8 bytes, so that a pair may cut a character in two.
-/

namespace Datum

namespace Text

def spanDigits (text : List Char) : List Char × List Char :=
  (text.takeWhile Char.isDigit, text.dropWhile Char.isDigit)

/-- Reads a sign, if there is one, and says whether it is a minus. -/
def readSign : List Char → Bool × List Char
  | '-' :: rest => (true, rest)
  | '+' :: rest => (false, rest)
  | rest => (false, rest)

def hexDigit? (c : Char) : Option Nat :=
  if '0' ≤ c ∧ c ≤ '9' then some (c.toNat - '0'.toNat)
  else if 'a' ≤ c ∧ c ≤ 'f' then some (c.toNat - 'a'.toNat + 10)
  else if 'A' ≤ c ∧ c ≤ 'F' then some (c.toNat - 'A'.toNat + 10)
  else none

theorem length_spanDigits_le (text : List Char) :
    (spanDigits text).2.length ≤ text.length :=
  (List.dropWhile_suffix _).length_le

theorem length_readSign_le (text : List Char) : (readSign text).2.length ≤ text.length := by
  unfold readSign
  split <;> simp

end Text

namespace Hex

def byteChars (b : UInt8) : List Char :=
  [Nat.digitChar (b.toNat / 16), Nat.digitChar (b.toNat % 16)]

def spaced (bytes : List UInt8) : String :=
  String.ofList (List.intercalate [' '] (bytes.map byteChars))

inductive Fault where
  | oddLength (text : String)
  | notDigit
  | splitsCharacter
deriving DecidableEq

/-- The byte of a pair of characters. A plus sign may stand in for the first digit. -/
def pair? (a b : Char) : Option UInt8 := do
  let high ← if a = '+' then some 0 else Text.hexDigit? a
  let low ← Text.hexDigit? b
  return (16 * high + low).toUInt8

/-- Reads pairs of bytes. A character of two bytes is a pair by itself, which is never a number; any
other character beyond ASCII is cut by the end of a pair. -/
def readPairs : List Char → Except Fault (List UInt8)
  | [] => .ok []
  | a :: rest =>
    if a.utf8Size = 1 then
      match rest with
      | [] => .error .notDigit
      | b :: rest =>
        if b.utf8Size = 1 then
          match pair? a b with
          | some byte => (readPairs rest).map (byte :: ·)
          | none => .error .notDigit
        else .error .splitsCharacter
    else if a.utf8Size = 2 then .error .notDigit
    else .error .splitsCharacter

def read (text : String) : Except Fault (List UInt8) :=
  if text.utf8ByteSize % 2 ≠ 0 then .error (.oddLength text) else readPairs text.toList

end Hex

end Datum
