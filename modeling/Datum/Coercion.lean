import Datum.Behavior

/-! # Coercion of mixed operands

A binary operation on two values first brings them to a common kind. The operand that is cheaper to
cast is cast, the left one if both are equally cheap, and the operation is then that of the common
kind. A null operand makes a comparison unknown before any of this.
-/

namespace Datum

/-- Which operand to cast, and the common kind. -/
inductive Coercion where
  | same (kind : Kind)
  | left (target : Kind)
  | right (target : Kind)
deriving DecidableEq

namespace Coercion

def target : Coercion → Kind
  | same kind | left kind | right kind => kind

def toText : Coercion → String
  | same kind => s!"Same({kind})"
  | left kind => s!"Left({kind})"
  | right kind => s!"Right({kind})"

instance : ToString Coercion := ⟨toText⟩

end Coercion

/-- An operand in the common kind, and whether it had to be cast. -/
structure Coerced where
  value : Value
  isCast : Bool
deriving DecidableEq

/-- The common kind of two kinds. -/
def resolve (left right : Kind) : Except TypeError Coercion :=
  if left = right then .ok (.same left)
  else
    let toRight := castCost left right
    let toLeft := castCost right left
    if !toRight.isReachable ∧ !toLeft.isReachable then .error (.incomparableTypes left right)
    else if toRight.compare toLeft ≠ .gt then .ok (.left right)
    else .ok (.right left)

namespace Value

def castOperand (operand : Operand) (v : Value) (target : Kind) : Except TypeError Value :=
  (v.cast target).mapError fun cause => .coercionFailed operand v.kind target cause

/-- Brings two operands to their common kind. -/
def coerce (left right : Value) : Except TypeError (Coerced × Coerced) := do
  match ← resolve left.kind right.kind with
  | .same _ => return (⟨left, false⟩, ⟨right, false⟩)
  | .left target => return (⟨← castOperand .left left target, true⟩, ⟨right, false⟩)
  | .right target => return (⟨left, false⟩, ⟨← castOperand .right right target, true⟩)

/-- The order of two values of any kinds; unknown if one is null. -/
def compare (left right : Value) : Except TypeError (Option Ordering) :=
  if left.isNull ∨ right.isNull then .ok none
  else do
    let (l, r) ← coerce left right
    Behavior.compare l.value.kind l.value r.value

def min (left right : Value) : Except TypeError Value :=
  if left.isNull ∨ right.isNull then .ok (Behavior.nullOperand left right)
  else do
    let (l, r) ← coerce left right
    Behavior.min l.value.kind l.value r.value

def max (left right : Value) : Except TypeError Value :=
  if left.isNull ∨ right.isNull then .ok (Behavior.nullOperand left right)
  else do
    let (l, r) ← coerce left right
    Behavior.max l.value.kind l.value r.value

end Value

end Datum
