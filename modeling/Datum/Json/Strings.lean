import Datum.Json.Basic
import Datum.Text.Utf8

/-! # The content of JSON strings

A string that is read as text must not contain a control character as it is, and its escaped
surrogates must come in pairs. A string that is read as bytes may break both rules: a lone surrogate
then stands for its own three bytes.
-/

namespace Datum.Json

/-- The first half of a surrogate pair. -/
def isLead (code : Nat) : Bool :=
  0xd800 ≤ code && code < 0xdc00

/-- The second half of a surrogate pair. -/
def isTrail (code : Nat) : Bool :=
  0xdc00 ≤ code && code < 0xe000

/-- The code point of a surrogate pair. -/
def joinPair (lead trail : Nat) : Nat :=
  0x10000 + (lead - 0xd800) * 0x400 + (trail - 0xdc00)

def charsOf? : List Piece → Option (List Char)
  | [] => some []
  | .plain c :: rest => if c.toNat < 0x20 then none else (charsOf? rest).map (c :: ·)
  | .escape lead :: .escape trail :: rest =>
    if isLead lead then
      if isTrail trail then (charsOf? rest).map (Char.ofNat (joinPair lead trail) :: ·) else none
    else if isTrail lead then none
    else (charsOf? (.escape trail :: rest)).map (Char.ofNat lead :: ·)
  | .escape code :: rest =>
    if isLead code || isTrail code then none else (charsOf? rest).map (Char.ofNat code :: ·)

def textOf? (s : List Piece) : Option String :=
  (charsOf? s).map String.ofList

def bytesOf : List Piece → List UInt8
  | [] => []
  | .plain c :: rest => Utf8.encodePoint c.toNat ++ bytesOf rest
  | .escape lead :: .escape trail :: rest =>
    if isLead lead && isTrail trail then Utf8.encodePoint (joinPair lead trail) ++ bytesOf rest
    else Utf8.encodePoint lead ++ bytesOf (.escape trail :: rest)
  | .escape code :: rest => Utf8.encodePoint code ++ bytesOf rest

def hasNoControl (s : List Piece) : Bool :=
  s.all fun
    | .plain c => 0x20 ≤ c.toNat
    | .escape _ => true

mutual

/-- A document that may be skipped: none of its strings contains a control character as it is. -/
def isSkippable : Json → Bool
  | string s => hasNoControl s
  | array elements => areSkippable elements
  | object members => areSkippableMembers members
  | _ => true

def areSkippable : List Json → Bool
  | [] => true
  | element :: rest => element.isSkippable && areSkippable rest

def areSkippableMembers : List (List Piece × Json) → Bool
  | [] => true
  | (name, value) :: rest =>
    hasNoControl name && value.isSkippable && areSkippableMembers rest

end

/-- The value of a member of this name, which must not occur twice. -/
def uniqueMember? (members : List (String × Json)) (name : String) : Option (Option Json) :=
  match members.filter fun member => member.1 = name with
  | [] => some none
  | [(_, value)] => some (some value)
  | _ => none

/-- The fields of a record with the given names. As an object it has each at most once, in any
order, and members of other names are skipped; as an array it has all of them in order. -/
def fields? (names : List String) : Json → Option (List (Option Json))
  | object members => do
    let members ← members.mapM fun (name, value) => do return (← textOf? name, value)
    guard ((members.filter fun member => !names.contains member.1).all (·.2.isSkippable))
    names.mapM (uniqueMember? members)
  | array elements => if elements.length = names.length then some (elements.map some) else none
  | _ => none

/-- The name of a variant without data: a string, or an object with the name and null. -/
def variantName? : Json → Option String
  | string s => textOf? s
  | object [(name, null)] => textOf? name
  | _ => none

end Datum.Json
