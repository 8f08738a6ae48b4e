import Datum.Json.Token

/-! # Reading JSON

The tree of a text is built in one pass over its tokens, with a stack of the containers that are
still open.
-/

namespace Datum.Json

/-- An open container: its members so far, the latest first, and for an object the name whose value
is being read. -/
inductive Frame where
  | array (done : List Json)
  | object (done : List (List Piece × Json)) (name : List Piece)

inductive Awaiting where
  | value
  /-- The first element of an array, or its end. -/
  | element
  /-- The first name of an object, or its end. -/
  | member
  /-- A further name of an object with these members. -/
  | name (done : List (List Piece × Json))
  /-- The colon behind a name. -/
  | colon (done : List (List Piece × Json)) (name : List Piece)
  /-- The comma or the end behind a value. -/
  | separator (value : Json)

def Token.scalar? : Token → Option Json
  | .null => some .null
  | .bool b => some (.bool b)
  | .number n => some (.number n)
  | .string s => some (.string s)
  | _ => none

/-- Where a value may start, continues with the token that starts it. -/
def startValue (stack : List Frame) (token : Token) : Option (List Frame × Awaiting) :=
  match token with
  | .openBracket => some (.array [] :: stack, .element)
  | .openBrace => some (stack, .member)
  | token => token.scalar?.map fun v => (stack, .separator v)

def step (stack : List Frame) (awaiting : Awaiting) (token : Token) :
    Option (List Frame × Awaiting) :=
  match awaiting, token with
  | .value, token => startValue stack token
  | .element, .closeBracket =>
    match stack with
    | .array done :: outer => some (outer, .separator (.array done.reverse))
    | _ => none
  | .element, token => startValue stack token
  | .member, .closeBrace => some (stack, .separator (.object []))
  | .member, .string name => some (stack, .colon [] name)
  | .name done, .string name => some (stack, .colon done name)
  | .colon done name, .colon => some (.object done name :: stack, .value)
  | .separator v, token =>
    match stack, token with
    | .array done :: outer, .comma => some (.array (v :: done) :: outer, .value)
    | .array done :: outer, .closeBracket => some (outer, .separator (.array (v :: done).reverse))
    | .object done name :: outer, .comma => some (outer, .name ((name, v) :: done))
    | .object done name :: outer, .closeBrace =>
      some (outer, .separator (.object ((name, v) :: done).reverse))
    | _, _ => none
  | _, _ => none

/-- Runs the parser; it must end behind a value with no container open. -/
def build (stack : List Frame) (awaiting : Awaiting) : List Token → Option Json
  | [] =>
    match stack, awaiting with
    | [], .separator v => some v
    | _, _ => none
  | token :: rest =>
    match step stack awaiting token with
    | some (stack, awaiting) => build stack awaiting rest
    | none => none

def parse? (text : String) : Option Json := do
  build [] .value (← tokens text.toList)

end Datum.Json
