import Datum.Text.Layout

/-! # Integer literals

An integer literal is an optional sign and at least one decimal digit, with blanks around it, and
denotes a 32-bit integer. Digits are read from the left, and reading stops at the first fault: a
character that is no digit, or a digit that takes the number out of range.
-/

namespace Datum.Integer

inductive Fault where
  | empty
  | notDigits
  | outOfRange
deriving DecidableEq

/-- The largest magnitude of a 32-bit integer of the given sign. -/
def limit (negative : Bool) : Nat :=
  if negative then 0x80000000 else 0x7fffffff

/-- Reads digits behind a number that is already read, up to `limit`. -/
def readDigits (limit : Nat) : Nat → List Char → Except Fault Nat
  | n, [] => .ok n
  | n, c :: rest =>
    if c.isDigit then
      let next := 10 * n + (c.toNat - '0'.toNat)
      if limit < next then .error .outOfRange else readDigits limit next rest
    else .error .notDigits

def readNatural (limit : Nat) (digits : List Char) : Except Fault Nat :=
  if digits.isEmpty then .error .notDigits else readDigits limit 0 digits

/-- Reads an optional sign and digits, with nothing around them. -/
def readSigned (text : List Char) : Except Fault Int32 :=
  match text with
  | [] => .error .empty
  | '-' :: digits => do
    let n ← readNatural (limit true) digits
    return Int32.ofInt (-(n : Int))
  | '+' :: digits => do
    let n ← readNatural (limit false) digits
    return Int32.ofInt n
  | digits => do
    let n ← readNatural (limit false) digits
    return Int32.ofInt n

def ofText (text : String) : Except Fault Int32 :=
  readSigned (Text.trimAscii text)

def toText (n : Int) : String :=
  String.ofList (if n < 0 then '-' :: Nat.toDigits 10 n.natAbs else Nat.toDigits 10 n.natAbs)

end Datum.Integer
