import Datum.Behavior.Convert
import Datum.Behavior.Cost
import Datum.Behavior.Order

/-! # The behavior of a kind

What generic code does with the values of one kind: comparing, choosing the smaller or larger,
casting, reading and writing. A value of another kind is refused. A null operand of any kind makes a
comparison unknown, except that the behavior of the untyped null insists on its own kind.
-/

namespace Datum.Behavior

def checkKind (kind : Kind) (v : Value) : Except TypeError Unit :=
  if v.kind = kind then .ok () else .error (.kindMismatch kind v.kind)

/-- The order of two values of a kind; unknown if an operand is null. -/
def compare (kind : Kind) (left right : Value) : Except TypeError (Option Ordering) :=
  if kind ≠ .null ∧ (left.isNull ∨ right.isNull) then .ok none
  else do
    checkKind kind left
    checkKind kind right
    return left.order? right

/-- The null among two operands, the left one if both are. -/
def nullOperand (left right : Value) : Value :=
  if left.isNull then left else right

/-- The smaller operand, the left one of two equal ones; a null operand comes before any other. -/
def min (kind : Kind) (left right : Value) : Except TypeError Value := do
  match ← compare kind left right with
  | none => return nullOperand left right
  | some .gt => return right
  | some _ => return left

/-- The larger operand, the left one of two equal ones; a null operand comes before any other. -/
def max (kind : Kind) (left right : Value) : Except TypeError Value := do
  match ← compare kind left right with
  | none => return nullOperand left right
  | some .lt => return right
  | some _ => return left

/-- The payload of a value of a kind, which must not be null, as another kind. -/
def convert (kind : Kind) (v : Value) (target : Kind) : Except TypeError Value :=
  if v.kind = kind ∧ !v.isNull then v.convert target else .error (.kindMismatch kind v.kind)

/-- A value of a kind cast to another. A null becomes a null of that kind. -/
def castTo (kind : Kind) (v : Value) (target : Kind) : Except TypeError Value := do
  checkKind kind v
  if v.isNull then return .null target
  else if !(castCost kind target).isReachable then throw (.unsupportedCast kind target)
  else if target = kind then return v
  else convert kind v target

def format (kind : Kind) (v : Value) : Except TypeError String := do
  checkKind kind v
  return v.toText

end Datum.Behavior

namespace Datum.Value

/-- A value cast to a kind by the behavior of its own. -/
def cast (v : Value) (target : Kind) : Except TypeError Value :=
  Behavior.castTo v.kind v target

end Datum.Value
