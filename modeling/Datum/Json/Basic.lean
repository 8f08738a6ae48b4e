/-! # JSON documents

A document as a tree. Strings keep their escapes and numbers their digits, since what a string or a
number may stand for depends on what is read from it; objects keep the order of their members and
may repeat a name.
-/

namespace Datum

namespace Json

/-- A piece of a string: a character that stands for itself, or an escaped unit of 16 bits. -/
inductive Piece where
  | plain (c : Char)
  | escape (code : Nat)
deriving DecidableEq

/-- A number as it is written. An empty fraction means that there is no point. -/
structure Number where
  negative : Bool
  whole : List Char
  fraction : List Char
  exponent : Option Int
deriving DecidableEq

end Json

inductive Json where
  | null
  | bool (b : Bool)
  | number (n : Json.Number)
  | string (s : List Json.Piece)
  | array (elements : List Json)
  | object (members : List (List Json.Piece × Json))

namespace Json

/-- A text as a string: quotes, backslashes and control characters are escaped. -/
def piecesOf (text : String) : List Piece :=
  text.toList.map fun c =>
    if c = '"' ∨ c = '\\' ∨ c.toNat < 0x20 then .escape c.toNat else .plain c

def Number.ofInt (n : Int) : Number :=
  ⟨n < 0, Nat.toDigits 10 n.natAbs, [], none⟩

def ofText (text : String) : Json :=
  .string (piecesOf text)

def single (name : String) (value : Json) : Json :=
  .object [(piecesOf name, value)]

end Json

end Datum
