import Datum.Text.Characters

/-! # Kinds of scalars

A kind classifies the values a column or an expression can hold. Each has a canonical name, which
is its text, and one or more names by which queries may call it.
-/

namespace Datum

inductive Kind where
  | integer
  | float
  | charString
  | text
  | date
  | boolean
  | null
deriving DecidableEq, Inhabited

namespace Kind

def all : List Kind :=
  [integer, float, charString, text, date, boolean, null]

def index : Kind → Nat
  | integer => 0
  | float => 1
  | charString => 2
  | text => 3
  | date => 4
  | boolean => 5
  | null => 6

def name : Kind → String
  | integer => "Integer"
  | float => "Float"
  | charString => "CharString"
  | text => "Text"
  | date => "Date"
  | boolean => "Boolean"
  | null => "Null"

instance : ToString Kind := ⟨name⟩

def isString : Kind → Bool
  | charString | text => true
  | _ => false

/-- The stored width of a value in bytes, if all values of the kind share one. -/
def fixedSize? : Kind → Option Nat
  | integer | float | date => some 4
  | boolean => some 1
  | null => some 0
  | charString | text => none

/-- The kinds whose values take as many bytes as they need. -/
def isVariable (k : Kind) : Bool :=
  k.fixedSize?.isNone

def ofName? (name : String) : Option Kind :=
  all.find? fun k => k.name = name

theorem mem_all (k : Kind) : k ∈ all := by
  cases k <;> decide

theorem ofName?_name (k : Kind) : ofName? k.name = some k := by
  cases k <;> decide

/-- The names that queries use, in upper case. -/
def queryNames : Kind → List String
  | integer => ["INT", "INTEGER"]
  | float => ["FLOAT"]
  | charString => ["CHAR", "CHARS", "CHARSTRING", "STRING"]
  | text => ["TEXT"]
  | date => ["DATE"]
  | boolean => ["BOOL", "BOOLEAN"]
  | null => ["NULL"]

/-- The kind that a query calls by this name, in any case. -/
def parse? (text : String) : Option Kind :=
  let upper := Text.upper text
  all.find? fun k => k.queryNames.contains upper

end Kind

end Datum
