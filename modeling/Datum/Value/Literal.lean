import Datum.Date.Literal
import Datum.Error
import Datum.Single.Literal
import Datum.Text.Layout
import Datum.Value.Basic

/-! # Values from literal text

Each kind reads literals of its own. The string kinds take any text as it is; a failure of the
others keeps the text as it was given, blanks included. The literals of truth values and of the
untyped null are words, in any ASCII case and with ASCII blanks around them.
-/

namespace Datum

/-- A text without the ASCII blanks around it, with its ASCII letters in lower case. -/
def literalWord (text : String) : String :=
  String.ofList ((Text.trimAscii text).map Char.toLower)

def truthValue? (text : String) : Option Bool :=
  let word := literalWord text
  if word = "true" ∨ word = "t" ∨ word = "1" then some true
  else if word = "false" ∨ word = "f" ∨ word = "0" then some false
  else none

def isNullLiteral (text : String) : Bool :=
  literalWord text = "null"

def Integer.Fault.toError (text : String) : Integer.Fault → TypeError
  | .empty => .invalidLiteral text .integer "empty literal"
  | .notDigits => .invalidLiteral text .integer "not a decimal integer"
  | .outOfRange => .numericOverflow text .integer

def Single.Fault.toError (text : String) : Single.Fault → TypeError
  | .empty => .invalidLiteral text .float "empty literal"
  | .notNumber => .invalidLiteral text .float "not a decimal number"
  | .outOfRange => .numericOverflow text .float

def Date.Fault.toError (text : String) (fault : Date.Fault) : TypeError :=
  .invalidLiteral text .date fault.message

namespace Value

def parse (kind : Kind) (text : String) : Except TypeError Value :=
  match kind with
  | .integer => ((Integer.ofText text).mapError (·.toError text)).map .integer
  | .float => ((Single.ofText text).mapError (·.toError text)).map .float
  | .charString => .ok (.charString (Utf8.encode text))
  | .text => .ok (.text (Utf8.encode text))
  | .date => ((Date.ofText text).mapError (·.toError text)).map .date
  | .boolean =>
    match truthValue? text with
    | some b => .ok (.boolean b)
    | none => .error (.invalidLiteral text .boolean "not a boolean")
  | .null =>
    if isNullLiteral text then .ok (.null .null)
    else .error (.invalidLiteral text .null "expected NULL")

end Value

end Datum
