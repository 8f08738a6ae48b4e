import Datum.Json.Writer
import Datum.Text.Digits

/-! # Tokens of JSON

A text of JSON is a sequence of tokens with blanks between them. A token reaches as far as it can,
and a text with anything that starts no token has none.
-/

namespace Datum.Json

open Text (spanDigits readSign hexDigit?)

inductive Token where
  | openBracket
  | closeBracket
  | openBrace
  | closeBrace
  | comma
  | colon
  | null
  | bool (b : Bool)
  | number (n : Number)
  | string (s : List Piece)
deriving DecidableEq

def isSpace (c : Char) : Bool :=
  c == ' ' || c == '\n' || c == '\t' || c == '\r'

/-- The unit that the letter of a short escape stands for. The slash may be escaped, too. -/
def unescape? (letter : Char) : Option Nat :=
  match letter with
  | '"' => some 0x22
  | '\\' => some 0x5c
  | '/' => some 0x2f
  | 'b' => some 0x08
  | 't' => some 0x09
  | 'n' => some 0x0a
  | 'f' => some 0x0c
  | 'r' => some 0x0d
  | _ => none

def hexUnit? (a b c d : Char) : Option Nat := do
  return (← hexDigit? a) * 0x1000 + (← hexDigit? b) * 0x100 + (← hexDigit? c) * 0x10 +
    (← hexDigit? d)

/-- Reads a string behind its opening quote. -/
def lexString : List Char → Option (List Piece × List Char)
  | [] => none
  | '"' :: rest => some ([], rest)
  | '\\' :: 'u' :: a :: b :: c :: d :: rest => do
    let code ← hexUnit? a b c d
    let (s, after) ← lexString rest
    return (.escape code :: s, after)
  | '\\' :: letter :: rest => do
    let code ← unescape? letter
    let (s, after) ← lexString rest
    return (.escape code :: s, after)
  | c :: rest =>
    if c = '\\' then none
    else do
      let (s, after) ← lexString rest
      return (.plain c :: s, after)

/-- Reads the digits in front of the point: a zero alone, or any that do not start with one. -/
def lexWhole (text : List Char) : Option (List Char × List Char) :=
  let digits := spanDigits text
  if digits.1 = [] ∨ (digits.1.head? = some '0' ∧ digits.1 ≠ ['0']) then none else some digits

/-- Reads a point with at least one digit behind it, if there is a point. -/
def lexFraction (text : List Char) : Option (List Char × List Char) :=
  match text with
  | '.' :: rest =>
    let digits := spanDigits rest
    if digits.1 = [] then none else some digits
  | _ => some ([], text)

/-- Reads an exponent with at least one digit, if there is the letter for one. -/
def lexExponent (text : List Char) : Option (Option Int × List Char) :=
  match text with
  | [] => some (none, [])
  | c :: rest =>
    if c = 'e' ∨ c = 'E' then
      let signed := readSign rest
      let digits := spanDigits signed.2
      let n := Nat.ofDigitChars 10 digits.1 0
      if digits.1 = [] then none else some (some (if signed.1 then -(n : Int) else n), digits.2)
    else some (none, text)

def lexUnsigned (negative : Bool) (text : List Char) : Option (Number × List Char) := do
  let (whole, afterWhole) ← lexWhole text
  let (fraction, afterFraction) ← lexFraction afterWhole
  let (exponent, after) ← lexExponent afterFraction
  return (⟨negative, whole, fraction, exponent⟩, after)

def lexNumber : List Char → Option (Number × List Char)
  | '-' :: rest => lexUnsigned true rest
  | text => lexUnsigned false text

theorem length_lexString {text : List Char} {s : List Piece} {after : List Char}
    (h : lexString text = some (s, after)) : after.length < text.length := by
  fun_induction lexString text generalizing s after with
  | case1 => simp at h
  | case2 rest =>
    simp only [Option.some.injEq, Prod.mk.injEq] at h
    simp [h.2]
  | case3 a b c d rest ih =>
    simp only [bind, Option.bind_eq_some_iff, Prod.exists] at h
    obtain ⟨_, _, s', after', h', he⟩ := h
    have := ih h'
    simp only [pure, Option.some.injEq, Prod.mk.injEq] at he
    simp only [← he.2, List.length_cons]
    omega
  | case4 letter rest _ ih =>
    simp only [bind, Option.bind_eq_some_iff, Prod.exists] at h
    obtain ⟨_, _, s', after', h', he⟩ := h
    have := ih h'
    simp only [pure, Option.some.injEq, Prod.mk.injEq] at he
    simp only [← he.2, List.length_cons]
    omega
  | case5 => simp at h
  | case6 c rest _ _ _ _ ih =>
    simp only [bind, Option.bind_eq_some_iff, Prod.exists] at h
    obtain ⟨s', after', h', he⟩ := h
    have := ih h'
    simp only [pure, Option.some.injEq, Prod.mk.injEq] at he
    simp only [← he.2, List.length_cons]
    omega

theorem length_lexWhole {text digits after : List Char}
    (h : lexWhole text = some (digits, after)) : after.length < text.length := by
  unfold lexWhole at h
  by_cases hn : (spanDigits text).1 = [] ∨
      ((spanDigits text).1.head? = some '0' ∧ (spanDigits text).1 ≠ ['0'])
  · rw [if_pos hn] at h
    cases h
  · rw [if_neg hn, Option.some.injEq] at h
    have hd := List.length_pos_iff.2 fun he => hn (Or.inl he)
    have hl := congrArg List.length (List.takeWhile_append_dropWhile (p := Char.isDigit) (l := text))
    rw [List.length_append] at hl
    simp only [spanDigits] at h hd
    have ha := congrArg (fun split => split.2.length) h
    simp only at ha
    omega

theorem length_lexFraction {text digits after : List Char}
    (h : lexFraction text = some (digits, after)) : after.length ≤ text.length := by
  unfold lexFraction at h
  split at h
  · rename_i rest
    have := Text.length_spanDigits_le rest
    simp only [Option.ite_none_left_eq_some, Option.some.injEq] at h
    have h' := congrArg Prod.snd h.2
    simp only at h'
    rw [← h', List.length_cons]
    omega
  · simp only [Option.some.injEq, Prod.mk.injEq] at h
    simp [h.2]

theorem length_lexExponent {text after : List Char} {e : Option Int}
    (h : lexExponent text = some (e, after)) : after.length ≤ text.length := by
  unfold lexExponent at h
  split at h
  · simp only [Option.some.injEq, Prod.mk.injEq] at h
    simp [← h.2]
  · rename_i c rest
    have hs := Text.length_readSign_le rest
    have hd := Text.length_spanDigits_le (Text.readSign rest).2
    by_cases hc : c = 'e' ∨ c = 'E'
    · simp only [if_pos hc, Option.ite_none_left_eq_some, Option.some.injEq, Prod.mk.injEq] at h
      rw [← h.2.2, List.length_cons]
      omega
    · simp only [if_neg hc, Option.some.injEq, Prod.mk.injEq] at h
      simp [← h.2]

theorem length_lexUnsigned {negative : Bool} {text after : List Char} {n : Number}
    (h : lexUnsigned negative text = some (n, after)) : after.length < text.length := by
  simp only [lexUnsigned, bind, Option.bind_eq_some_iff, Prod.exists] at h
  obtain ⟨_, a, ha, _, b, hb, _, c, hc, he⟩ := h
  simp only [pure, Option.some.injEq, Prod.mk.injEq] at he
  have := length_lexWhole ha
  have := length_lexFraction hb
  have := length_lexExponent hc
  rw [← he.2]
  omega

theorem length_lexNumber {text after : List Char} {n : Number}
    (h : lexNumber text = some (n, after)) : after.length < text.length := by
  unfold lexNumber at h
  split at h
  · have := length_lexUnsigned h
    rw [List.length_cons]
    omega
  · exact length_lexUnsigned h

def tokens (text : List Char) : Option (List Token) :=
  match text with
  | [] => some []
  | '[' :: rest => (tokens rest).map (.openBracket :: ·)
  | ']' :: rest => (tokens rest).map (.closeBracket :: ·)
  | '\x7b' :: rest => (tokens rest).map (.openBrace :: ·)
  | '\x7d' :: rest => (tokens rest).map (.closeBrace :: ·)
  | ',' :: rest => (tokens rest).map (.comma :: ·)
  | ':' :: rest => (tokens rest).map (.colon :: ·)
  | 'n' :: 'u' :: 'l' :: 'l' :: rest => (tokens rest).map (.null :: ·)
  | 't' :: 'r' :: 'u' :: 'e' :: rest => (tokens rest).map (.bool true :: ·)
  | 'f' :: 'a' :: 'l' :: 's' :: 'e' :: rest => (tokens rest).map (.bool false :: ·)
  | '"' :: rest =>
    match h : lexString rest with
    | none => none
    | some (s, after) =>
      have := length_lexString h
      (tokens after).map (.string s :: ·)
  | c :: rest =>
    if isSpace c then tokens rest
    else
      match h : lexNumber (c :: rest) with
      | none => none
      | some (n, after) =>
        have := length_lexNumber h
        (tokens after).map (.number n :: ·)
termination_by text.length
decreasing_by all_goals simp_all <;> omega

end Datum.Json
