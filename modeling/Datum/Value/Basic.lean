import Datum.Date.Basic
import Datum.Integer
import Datum.Kind
import Datum.Single.Text
import Datum.Text.Utf8

/-! # Values

A value is a null of some kind or a payload of one of the six other kinds. The payload of a string
is a sequence of bytes, which need not be text.
-/

namespace Datum

inductive Value where
  | null (kind : Kind)
  | integer (n : Int32)
  | float (x : Single)
  | charString (bytes : List UInt8)
  | text (bytes : List UInt8)
  | date (d : Date)
  | boolean (b : Bool)
deriving DecidableEq

namespace Value

instance : Inhabited Value := ⟨null .null⟩

def kind : Value → Kind
  | null kind => kind
  | integer _ => .integer
  | float _ => .float
  | charString _ => .charString
  | text _ => .text
  | date _ => .date
  | boolean _ => .boolean

def isNull : Value → Bool
  | null _ => true
  | _ => false

/-- The number of bytes of a string, and zero for everything else. -/
def length : Value → Nat
  | charString bytes | text bytes => bytes.length
  | _ => 0

def integer? : Value → Option Int32
  | integer n => some n
  | _ => none

def float? : Value → Option Single
  | float x => some x
  | _ => none

def bytes? : Value → Option (List UInt8)
  | charString bytes | text bytes => some bytes
  | _ => none

def date? : Value → Option Date
  | date d => some d
  | _ => none

def boolean? : Value → Option Bool
  | boolean b => some b
  | _ => none

/-- The canonical text, which every value has. Bytes that are no text show as U+FFFD. -/
def toText : Value → String
  | null _ => "NULL"
  | integer n => Integer.toText n.toInt
  | float x => x.toText
  | charString bytes | text bytes => Utf8.decodeLossy bytes
  | date d => d.toText
  | boolean true => "true"
  | boolean false => "false"

instance : ToString Value := ⟨toText⟩

def ofText (text : String) : Value :=
  charString (Utf8.encode text)

end Value

/-- A type of payloads that are stored as values of one kind. -/
class Payload (α : Type) where
  kind : Kind
  toValue : α → Value

instance : Payload Int32 := ⟨.integer, .integer⟩

instance : Payload Single := ⟨.float, .float⟩

instance : Payload String := ⟨.charString, .ofText⟩

instance : Payload Date := ⟨.date, .date⟩

instance : Payload Bool := ⟨.boolean, .boolean⟩

end Datum
