import Datum.Kind

/-! # Failures of typed operations

A failure records what went wrong as data. Its message is one sentence; the failure of a coercion
nests the failure of the cast that it needed.
-/

namespace Datum

inductive Operand where
  | left
  | right
deriving DecidableEq

namespace Operand

def text : Operand → String
  | left => "left"
  | right => "right"

instance : ToString Operand := ⟨text⟩

def opposite : Operand → Operand
  | left => right
  | right => left

end Operand

inductive TypeError where
  | unsupportedCast (source target : Kind)
  | invalidLiteral (text : String) (target : Kind) (reason : String)
  | numericOverflow (text : String) (target : Kind)
  | incomparableTypes (left right : Kind)
  | coercionFailed (operand : Operand) (source target : Kind) (cause : TypeError)
  | kindMismatch (behavior actual : Kind)
  | encoding (kind : Kind) (reason : String)
deriving DecidableEq

namespace TypeError

/-- The failure as one sentence, without what caused it. -/
def message : TypeError → String
  | unsupportedCast source target => s!"unsupported cast from {source} to {target}"
  | invalidLiteral text target reason => s!"invalid {target} literal '{text}': {reason}"
  | numericOverflow text target => s!"value '{text}' is out of range for {target}"
  | incomparableTypes left right => s!"cannot compare {left} with {right}"
  | coercionFailed operand source target _ =>
    s!"failed to coerce {operand} operand from {source} to {target}"
  | kindMismatch behavior actual => s!"{behavior} behavior cannot operate on a {actual} value"
  | encoding kind reason => s!"malformed {kind} encoding: {reason}"

def code : TypeError → String
  | unsupportedCast .. => "CAST_001"
  | invalidLiteral .. => "CAST_002"
  | numericOverflow .. => "CAST_003"
  | incomparableTypes .. => "TYPE_001"
  | coercionFailed .. => "TYPE_002"
  | kindMismatch .. => "TYPE_003"
  | encoding .. => "ENCODE_001"

def cause? : TypeError → Option TypeError
  | coercionFailed _ _ _ cause => some cause
  | _ => none

end TypeError

end Datum
