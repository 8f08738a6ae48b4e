import Datum.Comparison
import Datum.Diagnostic
import Datum.Json.Number
import Datum.Json.Parser
import Datum.Json.Strings

/-! # Values and diagnostics as JSON

A value is an object whose one member names its form. Strings are written as arrays of their bytes
and may be read from text, too; a date is its literal; floats that are not finite are written as
null and cannot be read back. Kinds, operators and operands are their names.
-/

namespace Datum

open Json (textOf?)

namespace Kind

def toJson (k : Kind) : Json :=
  .ofText k.name

def ofJson? (j : Json) : Option Kind := do
  ofName? (← j.variantName?)

end Kind

namespace Comparison

def toJson (op : Comparison) : Json :=
  .ofText op.name

def ofJson? (j : Json) : Option Comparison := do
  ofName? (← j.variantName?)

end Comparison

namespace Operand

def ofJson? (j : Json) : Option Operand :=
  match j.variantName? with
  | some "Left" => some left
  | some "Right" => some right
  | _ => none

end Operand

namespace Date

def toJson (d : Date) : Json :=
  .ofText d.toText

/-- A date in a document. The failure quotes the text. -/
def ofExchangeText (text : String) : Except String Date :=
  (ofText text).mapError fun fault => s!"invalid date '{text}': {fault.message}"

def ofJson? : Json → Option Date
  | .string s => do
    let text ← textOf? s
    (ofExchangeText text).toOption
  | _ => none

end Date

namespace Value

def byteOfJson? : Json → Option UInt8
  | .number n => (n.toInt?.filter fun i => 0 ≤ i ∧ i < 256).map fun i => i.toNat.toUInt8
  | _ => none

def bytesOfJson? : Json → Option (List UInt8)
  | .string s => some (Json.bytesOf s)
  | .array elements => elements.mapM byteOfJson?
  | _ => none

/-- The payload of a float; not finite ones have no number. -/
def floatJson (x : Single) : Json :=
  if x.isFinite then .number (.ofSingle x) else .null

def bytesJson (bytes : List UInt8) : Json :=
  .array (bytes.map fun b => .number (.ofInt b.toNat))

def toJson : Value → Json
  | null kind => .single "Null" (.single "kind" kind.toJson)
  | integer n => .single "Integer" (.number (.ofInt n.toInt))
  | float x => .single "Float" (floatJson x)
  | charString bytes => .single "CharString" (bytesJson bytes)
  | text bytes => .single "Text" (bytesJson bytes)
  | date d => .single "Date" d.toJson
  | boolean b => .single "Boolean" (.bool b)

def nullKind? (j : Json) : Option Kind := do
  match ← j.fields? ["kind"] with
  | [some kind] => Kind.ofJson? kind
  | _ => none

def ofJson? : Json → Option Value
  | .object [(name, payload)] => do
    match ← textOf? name, payload with
    | "Null", payload => (nullKind? payload).map null
    | "Integer", .number n =>
      (n.toInt?.filter fun i => -0x80000000 ≤ i ∧ i < 0x80000000).map fun i => integer (Int32.ofInt i)
    | "Float", .number n => n.toSingle?.map float
    | "CharString", payload => (bytesOfJson? payload).map charString
    | "Text", payload => (bytesOfJson? payload).map text
    | "Date", payload => (Date.ofJson? payload).map date
    | "Boolean", .bool b => some (boolean b)
    | _, _ => none
  | _ => none

/-- The compact JSON text of a value. -/
def exchangeText (v : Value) : String :=
  v.toJson.compact

def ofExchangeText? (text : String) : Option Value := do
  ofJson? (← Json.parse? text)

end Value

namespace Diagnostic

def requiredText? : Option Json → Option String
  | some (.string s) => textOf? s
  | _ => none

/-- A field that may be missing or null. -/
def optionalText? : Option Json → Option (Option String)
  | none | some .null => some none
  | some (.string s) => (textOf? s).map some
  | _ => none

def texts? : Option Json → Option (List String)
  | some (.array elements) => elements.mapM fun element => requiredText? (some element)
  | _ => none

/-- The record of a diagnostic with at most `depth` containers within each other. -/
def ofJson? : Nat → Json → Option Diagnostic
  | 0, _ => none
  | depth + 1, j => do
    match ← j.fields? ["code", "message", "label", "help", "notes", "cause"] with
    | [code, message, label, help, notes, cause] =>
      guard (0 < depth)
      let cause ← match cause with
        | none | some .null => some none
        | some cause => (ofJson? depth cause).map some
      return {
        code := ← requiredText? code
        message := ← requiredText? message
        label := ← optionalText? label
        help := ← optionalText? help
        notes := ← texts? notes
        cause := cause }
    | _ => none

/-- The depth to which the containers of a record may be nested. -/
def greatestDepth : Nat := 127

def ofExchangeText? (text : String) : Option Diagnostic := do
  ofJson? greatestDepth (← Json.parse? text)

end Diagnostic

end Datum
