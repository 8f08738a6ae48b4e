import Datum.Coercion

/-! # Comparison operators

The six comparison operators of queries, evaluated in three-valued logic: a comparison with a null
is neither true nor false.
-/

namespace Datum

inductive Comparison where
  | equal
  | notEqual
  | lessThan
  | lessThanEqual
  | greaterThan
  | greaterThanEqual
deriving DecidableEq

namespace Comparison

def all : List Comparison :=
  [equal, notEqual, lessThan, lessThanEqual, greaterThan, greaterThanEqual]

def name : Comparison → String
  | equal => "Equal"
  | notEqual => "NotEqual"
  | lessThan => "LessThan"
  | lessThanEqual => "LessThanEqual"
  | greaterThan => "GreaterThan"
  | greaterThanEqual => "GreaterThanEqual"

def symbol : Comparison → String
  | equal => "="
  | notEqual => "<>"
  | lessThan => "<"
  | lessThanEqual => "<="
  | greaterThan => ">"
  | greaterThanEqual => ">="

instance : ToString Comparison := ⟨symbol⟩

def ofName? (name : String) : Option Comparison :=
  all.find? fun op => op.name = name

/-- The operator of a symbol. Two have a second spelling. -/
def ofSymbol? (symbol : String) : Option Comparison :=
  match symbol with
  | "=" | "==" => some equal
  | "<>" | "!=" => some notEqual
  | "<" => some lessThan
  | "<=" => some lessThanEqual
  | ">" => some greaterThan
  | ">=" => some greaterThanEqual
  | _ => none

theorem ofName?_name (op : Comparison) : ofName? op.name = some op := by
  cases op <;> decide

theorem ofSymbol?_symbol (op : Comparison) : ofSymbol? op.symbol = some op := by
  cases op <;> rfl

def holds : Comparison → Ordering → Bool
  | equal, order => order == .eq
  | notEqual, order => order != .eq
  | lessThan, order => order == .lt
  | lessThanEqual, order => order != .gt
  | greaterThan, order => order == .gt
  | greaterThanEqual, order => order != .lt

/-- The truth value of a comparison, `none` if it is unknown. -/
def evaluate (op : Comparison) (left right : Value) : Except TypeError (Option Bool) := do
  return (← left.compare right).map op.holds

end Comparison

end Datum
