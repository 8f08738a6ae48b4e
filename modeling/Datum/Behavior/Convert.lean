import Datum.Value.Literal

/-! # Conversions between kinds

`Value.convert` turns a payload into one of another kind. Numbers convert exactly or, from float to
integer, by rounding; strings are read as literals of the target; everything can be written as a
string.
-/

namespace Datum

/-- A value of either string kind. -/
def Value.ofBytes (kind : Kind) (bytes : List UInt8) : Value :=
  match kind with
  | .text => .text bytes
  | _ => .charString bytes

/-- An integer as another kind; only one that a single can hold exactly becomes a float. -/
def convertInteger (n : Int32) (target : Kind) : Except TypeError Value :=
  let text := Integer.toText n.toInt
  match target with
  | .float =>
    match Single.ofIntExact? n.toInt with
    | some x => .ok (.float x)
    | none => .error (.numericOverflow text .float)
  | .charString | .text => .ok (.ofBytes target (Utf8.encode text))
  | .boolean => .ok (.boolean (n ≠ 0))
  | _ => .error (.unsupportedCast .integer target)

/-- A float as another kind; integers are rounded to, a half away from zero. -/
def convertFloat (x : Single) (target : Kind) : Except TypeError Value :=
  match target with
  | .integer =>
    match x.toInt32? with
    | some n => .ok (.integer n)
    | none => .error (.numericOverflow x.toText .integer)
  | .charString | .text => .ok (.ofBytes target (Utf8.encode x.toText))
  | _ => .error (.unsupportedCast .float target)

/-- The bytes of a string as another kind. For any but the string kinds they have to be the UTF-8
form of a literal. -/
def convertBytes (source : Kind) (bytes : List UInt8) (target : Kind) : Except TypeError Value :=
  match target with
  | .charString | .text => .ok (.ofBytes target bytes)
  | .null => .error (.unsupportedCast source target)
  | _ =>
    match Utf8.decode? bytes with
    | some text => Value.parse target text
    | none => .error (.invalidLiteral (Utf8.decodeLossy bytes) target "not valid UTF-8")

def convertDate (d : Date) (target : Kind) : Except TypeError Value :=
  match target with
  | .charString | .text => .ok (.ofBytes target (Utf8.encode d.toText))
  | _ => .error (.unsupportedCast .date target)

/-- A truth value as another kind: 1 or 0, or the word for it. -/
def convertBoolean (b : Bool) (target : Kind) : Except TypeError Value :=
  match target with
  | .integer => .ok (.integer (if b then 1 else 0))
  | .float => .ok (.float (Single.ofInt (if b then 1 else 0)))
  | .charString | .text =>
    .ok (.ofBytes target (Utf8.encode (if b then "true" else "false")))
  | _ => .error (.unsupportedCast .boolean target)

/-- The payload of a value as another kind. A null has no payload to convert. -/
def Value.convert (v : Value) (target : Kind) : Except TypeError Value :=
  match v with
  | .null kind => .error (.kindMismatch kind kind)
  | .integer n => convertInteger n target
  | .float x => convertFloat x target
  | .charString bytes => convertBytes .charString bytes target
  | .text bytes => convertBytes .text bytes target
  | .date d => convertDate d target
  | .boolean b => convertBoolean b target

end Datum
