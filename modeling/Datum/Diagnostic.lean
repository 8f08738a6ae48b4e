import Datum.Error
import Datum.Single.Text

/-! # Diagnostics

A diagnostic is a failure prepared for a reader: its code and message, a label, a hint, notes, and
the diagnostic of its cause. It has a form of one line and one of several lines, in which each cause
is indented below what it caused.
-/

namespace Datum

structure Diagnostic where
  code : String
  message : String
  label : Option String
  help : Option String
  notes : List String
  cause : Option Diagnostic

namespace Diagnostic

/-- Code, message and causes on one line. -/
def summary : Diagnostic → String
  | ⟨code, message, _, _, _, none⟩ => code ++ ": " ++ message
  | ⟨code, message, _, _, _, some cause⟩ =>
    code ++ ": " ++ message ++ " (cause: " ++ cause.summary ++ ")"

instance : ToString Diagnostic := ⟨summary⟩

/-- The lines about a failure itself, without its cause. -/
def ownLines (d : Diagnostic) : List String :=
  ["error[" ++ d.code ++ "]: " ++ d.message] ++
    (d.label.toList.map fun label => "  = " ++ label) ++
    (d.help.toList.map fun help => "  help: " ++ help) ++
    d.notes.map fun note => "  note: " ++ note

/-- A text of lines, each behind an indentation of `depth` levels and ended by a line feed. -/
def indentLines (depth : Nat) (lines : List String) : String :=
  let indent := String.join (List.replicate depth "  ")
  String.join (lines.map fun line => indent ++ line ++ "\n")

/-- The rendering with all lines `depth` levels in. A cause stands two levels further in. -/
def renderAt (depth : Nat) : Diagnostic → String
  | ⟨code, message, label, help, notes, none⟩ =>
    indentLines depth (ownLines ⟨code, message, label, help, notes, none⟩)
  | ⟨code, message, label, help, notes, some cause⟩ =>
    indentLines depth (ownLines ⟨code, message, label, help, notes, none⟩ ++ ["  caused by:"]) ++
      cause.renderAt (depth + 2)

def render (d : Diagnostic) : String :=
  d.renderAt 0

end Diagnostic

namespace TypeError

/-- The kinds that values of a kind can be cast to, in words. -/
def targetsText : Kind → String
  | .integer => "Float, CharString, Text, Boolean"
  | .float => "Integer, CharString, Text"
  | .charString | .text => "Integer, Float, CharString, Text, Date, Boolean"
  | .date => "CharString, Text"
  | .boolean => "Integer, Float, CharString, Text"
  | .null => "every kind"

def literalHelp : Kind → String
  | .integer => "use a decimal integer such as 42 or -7"
  | .float => "use a decimal number such as 3.14 or 1e-3"
  | .date => "use the format YYYY-MM-DD such as 2024-01-31"
  | .boolean => "use true, false, t, f, 1 or 0"
  | .null => "use the NULL keyword"
  | .charString | .text => "check the literal text"

def rangeNote : Kind → String
  | .integer => s!"{Kind.integer} holds values from -2147483648 to 2147483647"
  | kind =>
    s!"{kind} holds finite values up to {Single.greatestFinite} and integers exactly up to " ++
      "16777216 in magnitude"

def diagnostic (e : TypeError) : Diagnostic :=
  match e with
  | unsupportedCast source target =>
    { code := e.code
      message := e.message
      label := some s!"cannot cast {source} to {target}"
      help := some "ensure the source and target kinds are compatible for casting"
      notes := [s!"{source} casts to: {targetsText source}"]
      cause := none }
  | invalidLiteral _ target _ =>
    { code := e.code
      message := e.message
      label := some s!"failed to cast to {target}"
      help := some (literalHelp target)
      notes := []
      cause := none }
  | numericOverflow _ target =>
    { code := e.code
      message := e.message
      label := some s!"not representable as {target}"
      help := none
      notes := [rangeNote target]
      cause := none }
  | incomparableTypes left right =>
    { code := e.code
      message := e.message
      label := some "operands have no common kind"
      help := some "cast one operand explicitly"
      notes := [s!"Left operand is of kind: {left}", s!"Right operand is of kind: {right}"]
      cause := none }
  | coercionFailed operand _ _ cause =>
    { code := e.code
      message := e.message
      label := some s!"{operand} operand could not be converted"
      help := none
      notes := []
      cause := some cause.diagnostic }
  | kindMismatch .. =>
    { code := e.code
      message := e.message
      label := none
      help := some "coerce operands to a common kind before dispatching"
      notes := []
      cause := none }
  | encoding .. =>
    { code := e.code
      message := e.message
      label := none
      help := none
      notes := []
      cause := none }

def summary (e : TypeError) : String :=
  e.diagnostic.summary

end TypeError

end Datum
