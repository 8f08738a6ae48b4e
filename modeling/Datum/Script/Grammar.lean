import Datum.Script.Command
import Datum.Text.Characters
import Datum.Text.Layout
import Datum.Text.Quoted

/-! # Command lines

A command line is a name, with an exclamation mark before it if the command is to fail, and
arguments behind spaces or tabs. A value is everything between two quotes of one sort, which cannot
be escaped, or a run of characters without blanks that does not begin with a quote. What looks like
a key is one: if no value follows it, the line is no command.
-/

namespace Datum.Script

def isSpacing (c : Char) : Bool :=
  c == ' ' || c == '\t'

def isKeyChar (c : Char) : Bool :=
  Text.isAlphanumeric c || c == '_'

def isBareChar (c : Char) : Bool :=
  !Text.isBlank c

def isQuote (c : Char) : Bool :=
  c == '\'' || c == '"'

/-- Reads a key with its equals sign, if the text starts with one. -/
def readKey (text : List Char) : Option (List Char) × List Char :=
  match text.takeWhile isKeyChar, text.dropWhile isKeyChar with
  | c :: key, '=' :: rest => (some (c :: key), rest)
  | _, _ => (none, text)

def readQuoted? (quote : Char) (text : List Char) : Option (List Char × List Char) :=
  match text.dropWhile (· != quote) with
  | [] => none
  | _ :: rest => some (text.takeWhile (· != quote), rest)

def readValue? : List Char → Option (List Char × List Char)
  | [] => none
  | c :: rest =>
    if isQuote c then readQuoted? c rest
    else if isBareChar c then some (c :: rest.takeWhile isBareChar, rest.dropWhile isBareChar)
    else none

def readArgument? (text : List Char) : Option (Argument × List Char) := do
  let (key, afterKey) := readKey text
  let (value, rest) ← readValue? afterKey
  return (⟨key.map String.ofList, String.ofList value⟩, rest)

theorem length_readKey_le (text : List Char) : (readKey text).2.length ≤ text.length := by
  have hd := (List.dropWhile_suffix (l := text) isKeyChar).length_le
  unfold readKey
  split
  · rename_i h
    rw [h, List.length_cons] at hd
    simp only
    omega
  · simp

theorem length_readValue? {text value rest : List Char}
    (h : readValue? text = some (value, rest)) : rest.length < text.length := by
  unfold readValue? at h
  split at h
  · cases h
  · rename_i c tail
    by_cases hq : isQuote c
    · rw [if_pos hq] at h
      have hd := (List.dropWhile_suffix (l := tail) (· != c)).length_le
      unfold readQuoted? at h
      split at h
      · cases h
      · rename_i hs
        rw [hs, List.length_cons] at hd
        simp only [Option.some.injEq, Prod.mk.injEq] at h
        rw [← h.2, List.length_cons]
        omega
    · rw [if_neg hq] at h
      have hd := (List.dropWhile_suffix (l := tail) isBareChar).length_le
      by_cases hb : isBareChar c
      · simp only [if_pos hb, Option.some.injEq, Prod.mk.injEq] at h
        rw [← h.2, List.length_cons]
        omega
      · rw [if_neg hb] at h
        cases h

theorem length_readArgument? {text rest : List Char} {arg : Argument}
    (h : readArgument? text = some (arg, rest)) : rest.length < text.length := by
  simp only [readArgument?, bind, Option.bind_eq_some_iff, Prod.exists] at h
  obtain ⟨value, after, hv, he⟩ := h
  simp only [pure, Option.some.injEq, Prod.mk.injEq] at he
  have := length_readKey_le text
  have := length_readValue? hv
  rw [← he.2]
  omega

/-- Reads arguments, each behind at least one space or tab, as far as there are any. -/
def readArguments (text : List Char) : List Argument × List Char :=
  match text with
  | [] => ([], [])
  | c :: rest =>
    if isSpacing c then
      match h : readArgument? (rest.dropWhile isSpacing) with
      | none => ([], text)
      | some (arg, after) =>
        have := length_readArgument? h
        have := (List.dropWhile_suffix (l := rest) isSpacing).length_le
        let (args, left) := readArguments after
        (arg :: args, left)
    else ([], text)
termination_by text.length
decreasing_by simp only [List.length_cons]; omega

/-- Why a line is no command: no name where one has to be, or something left over at the end. -/
inductive LineFault where
  | noName (rest : String)
  | leftOver (rest : String)
deriving DecidableEq

def LineFault.message (fault : LineFault) : String :=
  let (rest, code) := match fault with
    | noName rest => (rest, "TakeWhile1")
    | leftOver rest => (rest, "Eof")
  "Parsing Error: Error \x7b input: " ++ Text.quoted rest ++ ", code: " ++ code ++ " \x7d"

def readMark : List Char → Bool × List Char
  | '!' :: rest => (true, rest)
  | rest => (false, rest)

def parseCommand (line : String) (number : Nat) : Except LineFault Command :=
  let (fail, unmarked) := readMark (line.toList.dropWhile isSpacing)
  let name := unmarked.takeWhile isBareChar
  if name = [] then .error (.noName (String.ofList unmarked))
  else
    let (args, left) := readArguments (unmarked.dropWhile isBareChar)
    let rest := left.dropWhile isSpacing
    if rest = [] then .ok ⟨String.ofList name, args, fail, number⟩
    else .error (.leftOver (String.ofList rest))

end Datum.Script
