import Datum.Error
import Datum.Value.Basic
import Datum.Word

/-! # Storage layout

How a value lies in a slot of bytes. Numbers and dates take four bytes, least significant first, and
a truth value takes one. A character string fills its slot, padded with zero bytes, so that it must
not contain one; a text is preceded by its length in four bytes. The untyped null takes no space,
and the null of any other kind has no layout, since a flag elsewhere stands for it.
-/

namespace Datum

namespace Storage

/-- The bytes in front of a text, which hold its length. -/
def textPrefixSize : Nat := 4

inductive Fault where
  | typedNull
  | zeroByte (offset : Nat)
  | slotTooSmall (needed available : Nat)
  | payloadTooLong
  | notDate (packed : Int)
  | notBoolean (byte : UInt8)
  | noByte
  | tooFewBytes (needed available : Nat)
  | lengthExceeds (length available : Nat)
deriving DecidableEq

def Fault.message : Fault → String
  | typedNull => "null values have no encoding"
  | zeroByte offset => s!"zero byte at offset {offset}"
  | slotTooSmall needed available => s!"needs {needed} bytes, slot has {available}"
  | payloadTooLong => "payload longer than u32::MAX"
  | notDate packed => Integer.toText packed ++ " is not a packed date"
  | notBoolean byte =>
    let digits := Nat.toDigits 16 byte.toNat
    "byte 0x" ++ String.ofList (List.replicate (2 - digits.length) '0' ++ digits) ++
      " is not a boolean"
  | noByte => "needs 1 byte, got 0"
  | tooFewBytes needed available => s!"needs {needed} bytes, got {available}"
  | lengthExceeds length available =>
    s!"length prefix {length} exceeds {available} payload bytes"

def Fault.toError (kind : Kind) (fault : Fault) : TypeError :=
  .encoding kind fault.message

/-- The number of bytes a value takes, for a character string without its padding. -/
def encodedLength (v : Value) : Except TypeError Nat :=
  match v with
  | .null .null => .ok 0
  | .null kind => .error (Fault.typedNull.toError kind)
  | .charString bytes =>
    match bytes.findIdx? (· == 0) with
    | some offset => .error ((Fault.zeroByte offset).toError .charString)
    | none => .ok bytes.length
  | .text bytes => .ok (textPrefixSize + bytes.length)
  | other => .ok (other.kind.fixedSize?.getD 0)

/-- The bytes that stand for a value, without padding. -/
def layout : Value → List UInt8
  | .null _ => []
  | .integer n => wordBytes n.toUInt32
  | .float x => wordBytes x.bits
  | .charString bytes => bytes
  | .text bytes => wordBytes bytes.length.toUInt32 ++ bytes
  | .date d => wordBytes d.packed.toUInt32
  | .boolean b => [if b then 1 else 0]

/-- Writes a value into the front of a slot. Yields the number of bytes that now belong to it and
the slot afterwards; a character string takes the whole slot. -/
def encodeInto (v : Value) (slot : List UInt8) : Except TypeError (Nat × List UInt8) :=
  match encodedLength v with
  | .error e => .error e
  | .ok needed =>
    if slot.length < needed then .error ((Fault.slotTooSmall needed slot.length).toError v.kind)
    else
      match v with
      | .charString bytes =>
        .ok (slot.length, bytes ++ List.replicate (slot.length - needed) 0)
      | .text bytes =>
        if UInt32.size ≤ bytes.length then .error (Fault.payloadTooLong.toError .text)
        else .ok (needed, layout v ++ slot.drop needed)
      | _ => .ok (needed, layout v ++ slot.drop needed)

def copyAt (start : Nat) (bytes : List UInt8) : EStateM TypeError (List UInt8) Unit :=
  modify fun slot => slot.take start ++ bytes ++ slot.drop (start + bytes.length)

/-- Writes a value into the front of a slot in place, part by part, and yields the number of bytes
that now belong to it. Unlike `encodeInto` it also tells what a slot holds after a failure. -/
def write (v : Value) : EStateM TypeError (List UInt8) Nat := do
  let needed ← MonadExcept.ofExcept (encodedLength v)
  let available := (← get).length
  if available < needed then throw ((Fault.slotTooSmall needed available).toError v.kind)
  match v with
  | .charString bytes =>
    copyAt 0 bytes
    copyAt bytes.length (List.replicate (available - bytes.length) 0)
    return available
  | .text bytes =>
    if UInt32.size ≤ bytes.length then throw (Fault.payloadTooLong.toError .text)
    copyAt 0 (wordBytes bytes.length.toUInt32)
    copyAt textPrefixSize bytes
    return needed
  | _ =>
    copyAt 0 (layout v)
    return needed

def encode (v : Value) : Except TypeError (List UInt8) :=
  match encodedLength v with
  | .error e => .error e
  | .ok needed => (encodeInto v (List.replicate needed 0)).map (·.2)

def readWord (kind : Kind) (bytes : List UInt8) : Except TypeError (UInt32 × List UInt8) :=
  match bytes with
  | a :: b :: c :: d :: rest => .ok (wordOfBytes a b c d, rest)
  | _ => .error ((Fault.tooFewBytes 4 bytes.length).toError kind)

/-- Reads a value of a kind from the front of some bytes. A character string ends at the first zero
byte. -/
def decode (kind : Kind) (bytes : List UInt8) : Except TypeError Value :=
  match kind with
  | .integer => do
    let (word, _) ← readWord kind bytes
    return .integer word.toInt32
  | .float => do
    let (word, _) ← readWord kind bytes
    return .float ⟨word⟩
  | .date => do
    let (word, _) ← readWord kind bytes
    let packed := word.toInt32.toInt
    match Date.ofPacked? packed with
    | some d => return .date d
    | none => throw ((Fault.notDate packed).toError kind)
  | .boolean =>
    match bytes with
    | [] => .error (Fault.noByte.toError kind)
    | byte :: _ =>
      if byte = 0 then .ok (.boolean false)
      else if byte = 1 then .ok (.boolean true)
      else .error ((Fault.notBoolean byte).toError kind)
  | .charString => .ok (.charString (bytes.takeWhile (· != 0)))
  | .text => do
    let (word, rest) ← readWord kind bytes
    let length := word.toNat
    if rest.length < length then throw ((Fault.lengthExceeds length rest.length).toError kind)
    else return .text (rest.take length)
  | .null => .ok (.null .null)

end Storage

end Datum
