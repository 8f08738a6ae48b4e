import Datum.Json.Basic

/-! # Writing JSON

The compact form of a document: no blanks, and the shortest escape of each escaped unit.
-/

namespace Datum.Json

/-- The letter of a unit with an escape of two characters. -/
def shortEscape? (code : Nat) : Option Char :=
  match code with
  | 0x22 => some '"'
  | 0x5c => some '\\'
  | 0x08 => some 'b'
  | 0x09 => some 't'
  | 0x0a => some 'n'
  | 0x0c => some 'f'
  | 0x0d => some 'r'
  | _ => none

def Piece.chars : Piece → List Char
  | plain c => [c]
  | escape code =>
    match shortEscape? code with
    | some letter => ['\\', letter]
    | none =>
      let digits := Nat.toDigits 16 code
      '\\' :: 'u' :: (List.replicate (4 - digits.length) '0' ++ digits)

def stringChars (s : List Piece) : List Char :=
  '"' :: s.flatMap Piece.chars ++ ['"']

/-- The digits of a number; an exponent is written with its sign. -/
def Number.chars (n : Number) : List Char :=
  (if n.negative then ['-'] else []) ++ n.whole ++
    (if n.fraction = [] then [] else '.' :: n.fraction) ++
    match n.exponent with
    | none => []
    | some e => 'e' :: (if e < 0 then '-' else '+') :: Nat.toDigits 10 e.natAbs

def joinCommas : List (List Char) → List Char
  | [] => []
  | [last] => last
  | first :: rest => first ++ ',' :: joinCommas rest

mutual

def chars : Json → List Char
  | null => ['n', 'u', 'l', 'l']
  | bool true => ['t', 'r', 'u', 'e']
  | bool false => ['f', 'a', 'l', 's', 'e']
  | number n => n.chars
  | string s => stringChars s
  | array elements => '[' :: joinCommas (elementChars elements) ++ [']']
  | object members => '\x7b' :: joinCommas (memberChars members) ++ ['\x7d']

def elementChars : List Json → List (List Char)
  | [] => []
  | element :: rest => element.chars :: elementChars rest

def memberChars : List (List Piece × Json) → List (List Char)
  | [] => []
  | (name, value) :: rest => (stringChars name ++ ':' :: value.chars) :: memberChars rest

end

def compact (j : Json) : String :=
  String.ofList j.chars

end Datum.Json
