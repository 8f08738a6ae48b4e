import Datum.Json.Token
import Datum.Proofs.Text.Digits

/-!
# What is written as a token is read as it

The text of a string is read up to its closing quote (`lexString_chars`) and the text of a number up
to a character that cannot go on with it (`lexNumber_chars`).  Both need a piece of the document to be
well-formed: a string has its quotes and backslashes escaped, and a number has no zero in front.
-/

namespace Datum.Json

open Text (AllDigits)

/-! ### Strings -/

/-- A piece that stands in a string as it is neither ends it nor starts an escape, and the code of an
escape has four digits. -/
def Piece.WellFormed : Piece → Prop
  | plain c => c ≠ '"' ∧ c ≠ '\\'
  | escape code => code < 0x10000

theorem hexDigit?_digitChar {d : Nat} (h : d < 16) : Text.hexDigit? (Nat.digitChar d) = some d := by
  revert d
  decide

/-- The digits of a number, with zeros in front up to a width. -/
def hexDigits (width n : Nat) : List Char :=
  List.replicate (width - (Nat.toDigits 16 n).length) '0' ++ Nat.toDigits 16 n

theorem hexDigits_succ {width : Nat} (hw : 0 < width) (n : Nat) :
    hexDigits (width + 1) n = hexDigits width (n / 16) ++ [Nat.digitChar (n % 16)] := by
  rcases Nat.lt_or_ge n 16 with hn | hn
  · rw [hexDigits, hexDigits, Nat.toDigits_of_lt_base hn, Nat.div_eq_of_lt hn, Nat.mod_eq_of_lt hn,
      Nat.toDigits_of_lt_base (by decide)]
    show List.replicate (width + 1 - 1) '0' ++ [_] = List.replicate (width - 1) '0' ++ ['0'] ++ [_]
    rw [← List.replicate_succ', Nat.sub_add_cancel hw, Nat.add_sub_cancel]
  · rw [hexDigits, hexDigits, Nat.toDigits_of_base_le (by decide) hn, List.length_append,
      List.append_assoc]
    simp

theorem hexDigits_four {code : Nat} (h : code < 0x10000) :
    hexDigits 4 code =
      [Nat.digitChar (code / 0x1000), Nat.digitChar (code / 0x100 % 16),
        Nat.digitChar (code / 0x10 % 16), Nat.digitChar (code % 16)] := by
  rw [hexDigits_succ (by decide), hexDigits_succ (by decide), hexDigits_succ (by decide), hexDigits,
    Nat.toDigits_of_lt_base (by omega)]
  simp [Nat.div_div_eq_div_mul]

theorem hexUnit?_hexDigits {code : Nat} (h : code < 0x10000) :
    hexUnit? (Nat.digitChar (code / 0x1000)) (Nat.digitChar (code / 0x100 % 16))
      (Nat.digitChar (code / 0x10 % 16)) (Nat.digitChar (code % 16)) = some code := by
  rw [hexUnit?, hexDigit?_digitChar (by omega), hexDigit?_digitChar (by omega),
    hexDigit?_digitChar (by omega), hexDigit?_digitChar (by omega)]
  simp only [bind, Option.bind, pure, Option.some.injEq]
  omega

theorem unescape?_shortEscape? {code : Nat} {letter : Char} (h : shortEscape? code = some letter) :
    unescape? letter = some code ∧ letter ≠ 'u' := by
  unfold shortEscape? at h
  split at h <;> cases h <;> decide

theorem lexString_plain {c : Char} (hquote : c ≠ '"') (hslash : c ≠ '\\') (text : List Char) :
    lexString (c :: text) = (lexString text).map fun read => (.plain c :: read.1, read.2) := by
  rw [lexString.eq_def]
  split
  · contradiction
  · rename_i h
    exact absurd (List.cons.inj h).1 hquote
  · rename_i h
    exact absurd (List.cons.inj h).1 hslash
  · rename_i h
    exact absurd (List.cons.inj h).1 hslash
  · rename_i h
    obtain ⟨rfl, rfl⟩ := List.cons.inj h
    rw [if_neg hslash]
    cases lexString text <;> rfl

theorem lexString_letter {letter : Char} (hunit : letter ≠ 'u') (text : List Char) :
    lexString ('\\' :: letter :: text) = (unescape? letter).bind fun code =>
      (lexString text).map fun read => (.escape code :: read.1, read.2) := by
  rw [lexString.eq_def]
  split
  · contradiction
  · rename_i h
    exact absurd (List.cons.inj h).1 (by decide)
  · rename_i h
    exact absurd (List.cons.inj (List.cons.inj h).2).1 hunit
  · rename_i h
    obtain ⟨rfl, rfl⟩ := List.cons.inj (List.cons.inj h).2
    cases unescape? letter <;> cases lexString text <;> rfl
  · rename_i hother h
    obtain ⟨rfl, rfl⟩ := List.cons.inj h
    exact (hother _ _ rfl rfl).elim

theorem lexString_piece {p : Piece} (hp : p.WellFormed) (text : List Char) :
    lexString (p.chars ++ text) = (lexString text).map fun read => (p :: read.1, read.2) := by
  cases p with
  | plain c => exact lexString_plain hp.1 hp.2 text
  | escape code =>
    rw [Piece.chars]
    cases hshort : shortEscape? code with
    | some letter =>
      obtain ⟨hletter, hunit⟩ := unescape?_shortEscape? hshort
      rw [List.cons_append, List.singleton_append, lexString_letter hunit, hletter, Option.bind_some]
    | none =>
      have hdigits := hexDigits_four hp
      rw [hexDigits] at hdigits
      simp only [hdigits, List.cons_append, List.nil_append, lexString, hexUnit?_hexDigits hp]
      cases lexString text <;> rfl

/-- **A string is read up to its closing quote.** -/
theorem lexString_chars {s : List Piece} (hs : ∀ p ∈ s, p.WellFormed) (rest : List Char) :
    lexString (s.flatMap Piece.chars ++ '"' :: rest) = some (s, rest) := by
  induction s with
  | nil => simp [lexString]
  | cons p s ih =>
    obtain ⟨hp, hs⟩ := List.forall_mem_cons.mp hs
    rw [List.flatMap_cons, List.append_assoc, lexString_piece hp, ih hs]
    rfl

/-! ### Numbers -/

/-- A number has digits in front of the point, and no zero in front of those. -/
structure Number.WellFormed (n : Number) : Prop where
  allDigits_whole : AllDigits n.whole
  whole_ne_nil : n.whole ≠ []
  no_leading_zero : n.whole.head? = some '0' → n.whole = ['0']
  allDigits_fraction : AllDigits n.fraction

def EndsNumber (text : List Char) : Prop :=
  ∀ c ∈ text.head?, c.isDigit = false ∧ c ≠ '.' ∧ c ≠ 'e' ∧ c ≠ 'E'

namespace Number

def fractionChars (fraction : List Char) : List Char :=
  if fraction = [] then [] else '.' :: fraction

def exponentChars : Option Int → List Char
  | none => []
  | some e => 'e' :: (if e < 0 then '-' else '+') :: Nat.toDigits 10 e.natAbs

def unsignedChars (n : Number) : List Char :=
  n.whole ++ (fractionChars n.fraction ++ exponentChars n.exponent)

theorem chars_eq (n : Number) :
    n.chars = (if n.negative then ['-'] else []) ++ n.unsignedChars := by
  rw [unsignedChars, ← List.append_assoc, ← List.append_assoc]
  rfl

end Number

open Json.Number (fractionChars exponentChars unsignedChars)

variable {n : Number} {rest : List Char}

theorem lexExponent_chars (hr : EndsNumber rest) (e : Option Int) :
    lexExponent (exponentChars e ++ rest) = some (e, rest) := by
  cases e with
  | none =>
    cases rest with
    | nil => rfl
    | cons c rest =>
      obtain ⟨-, -, hlower, hupper⟩ := hr c rfl
      exact if_neg (not_or.mpr ⟨hlower, hupper⟩)
  | some e =>
    have hspan : Text.spanDigits (Nat.toDigits 10 e.natAbs ++ rest) =
        (Nat.toDigits 10 e.natAbs, rest) :=
      Text.spanDigits_append (Text.allDigits_toDigits _) fun c hc => (hr c hc).1
    have hsign : Text.readSign ((if e < 0 then '-' else '+') :: (Nat.toDigits 10 e.natAbs ++ rest)) =
        (decide (e < 0), Nat.toDigits 10 e.natAbs ++ rest) := by
      by_cases he : e < 0
      · rw [if_pos he, decide_eq_true he]
        rfl
      · rw [if_neg he, decide_eq_false he]
        rfl
    have hvalue : (if e < 0 then -(e.natAbs : Int) else e.natAbs) = e := by
      split <;> omega
    simp only [exponentChars, List.cons_append, lexExponent, true_or, if_true, hsign, hspan,
      Nat.toDigits_ne_nil, if_false, Nat.ofDigitChars_ten_toDigits, decide_eq_true_eq, hvalue]

theorem lexFraction_chars {fraction : List Char} (hf : AllDigits fraction)
    (hr : ∀ c ∈ rest.head?, c.isDigit = false ∧ c ≠ '.') :
    lexFraction (fractionChars fraction ++ rest) = some (fraction, rest) := by
  by_cases h : fraction = []
  · subst h
    unfold lexFraction
    split
    · rename_i hpoint
      exact absurd rfl (hr '.' (by rw [show rest = _ from hpoint]; rfl)).2
    · rfl
  · have hspan := Text.spanDigits_append hf fun c hc => (hr c hc).1
    simp [fractionChars, lexFraction, h, hspan]

theorem lexWhole_append (hn : n.WellFormed) (hr : ∀ c ∈ rest.head?, c.isDigit = false) :
    lexWhole (n.whole ++ rest) = some (n.whole, rest) := by
  have hspan := Text.spanDigits_append hn.allDigits_whole hr
  rw [lexWhole, hspan, if_neg]
  rintro (h | ⟨hzero, hne⟩)
  · exact hn.whole_ne_nil h
  · exact hne (hn.no_leading_zero hzero)

theorem head_exponentChars (hr : EndsNumber rest) (e : Option Int) :
    ∀ c ∈ (exponentChars e ++ rest).head?, c.isDigit = false ∧ c ≠ '.' := by
  intro c hc
  cases e with
  | none =>
    obtain ⟨hdigit, hpoint, -⟩ := hr c hc
    exact ⟨hdigit, hpoint⟩
  | some e =>
    cases hc
    decide

theorem head_fractionChars (hr : ∀ c ∈ rest.head?, c.isDigit = false) (fraction : List Char) :
    ∀ c ∈ (fractionChars fraction ++ rest).head?, c.isDigit = false := by
  intro c hc
  rw [fractionChars] at hc
  split at hc
  · exact hr c hc
  · cases hc
    rfl

theorem lexUnsigned_chars (hn : n.WellFormed) (hr : EndsNumber rest) :
    lexUnsigned n.negative (n.unsignedChars ++ rest) = some (n, rest) := by
  have hexponent := head_exponentChars hr n.exponent
  have hfraction := head_fractionChars (fun c hc => (hexponent c hc).1) n.fraction
  rw [unsignedChars, List.append_assoc, List.append_assoc, lexUnsigned, lexWhole_append hn hfraction]
  simp only [bind, Option.bind_some, lexFraction_chars hn.allDigits_fraction hexponent,
    lexExponent_chars hr]
  rfl

theorem lexNumber_of_isDigit {c : Char} (hc : c.isDigit = true) (text : List Char) :
    lexNumber (c :: text) = lexUnsigned false (c :: text) := by
  unfold lexNumber
  split
  · rename_i h
    obtain ⟨rfl, -⟩ := List.cons.inj h
    cases hc
  · rfl

theorem Number.WellFormed.unsignedChars_cons (hn : n.WellFormed) :
    ∃ c text, n.unsignedChars = c :: text ∧ c.isDigit = true := by
  obtain ⟨c, whole, hw⟩ := List.exists_cons_of_ne_nil hn.whole_ne_nil
  refine ⟨c, whole ++ (fractionChars n.fraction ++ exponentChars n.exponent), ?_, ?_⟩
  · rw [unsignedChars, hw, List.cons_append]
  · exact hn.allDigits_whole c (hw ▸ List.mem_cons_self)

theorem Number.WellFormed.chars_cons (hn : n.WellFormed) :
    ∃ c text, n.chars = c :: text ∧ (c.isDigit = true ∨ c = '-') := by
  obtain ⟨c, text, hchars, hc⟩ := hn.unsignedChars_cons
  rw [Number.chars_eq, hchars]
  cases n.negative with
  | true => exact ⟨'-', c :: text, rfl, .inr rfl⟩
  | false => exact ⟨c, text, rfl, .inl hc⟩

/-- **A number is read up to a character that cannot go on with it.** -/
theorem lexNumber_chars (hn : n.WellFormed) (hr : EndsNumber rest) :
    lexNumber (n.chars ++ rest) = some (n, rest) := by
  have hread := lexUnsigned_chars hn hr
  rw [Number.chars_eq]
  cases hs : n.negative with
  | true =>
    rw [hs] at hread
    exact hread
  | false =>
    obtain ⟨c, text, hchars, hc⟩ := hn.unsignedChars_cons
    rw [hs, hchars] at hread
    rw [hchars]
    exact (lexNumber_of_isDigit hc _).trans hread

/-! ### Tokens -/

theorem tokens_of_lexString {text after : List Char} {s : List Piece}
    (h : lexString text = some (s, after)) :
    tokens ('"' :: text) = (tokens after).map (.string s :: ·) := by
  rw [tokens]
  split
  · rename_i hnone
    rw [h] at hnone
    cases hnone
  · rename_i hsome
    rw [h] at hsome
    cases hsome
    rfl

theorem tokens_of_lexNumber {c : Char} {text after : List Char}
    (hc : c.isDigit = true ∨ c = '-') (h : lexNumber (c :: text) = some (n, after)) :
    tokens (c :: text) = (tokens after).map (.number n :: ·) := by
  have hne : ∀ d : Char, d.isDigit = false → d ≠ '-' → c ≠ d := by
    rintro d hdigit hminus rfl
    exact hc.elim (fun h => absurd h (by simp [hdigit])) hminus
  have hspace : isSpace c = false := by
    simp [isSpace, hne]
  rw [tokens, if_neg (by simp [hspace])]
  · split
    · rename_i hnone
      rw [h] at hnone
      cases hnone
    · rename_i hsome
      rw [h] at hsome
      cases hsome
      rfl
  -- no other token begins with a digit or a minus sign
  all_goals simp [hne]

/-- **A string is a token, whatever follows.** -/
theorem tokens_stringChars {s : List Piece} (hs : ∀ p ∈ s, p.WellFormed) (rest : List Char) :
    tokens (stringChars s ++ rest) = (tokens rest).map (.string s :: ·) := by
  have hchars : stringChars s ++ rest = '"' :: (s.flatMap Piece.chars ++ '"' :: rest) := by
    simp [stringChars]
  rw [hchars, tokens_of_lexString (lexString_chars hs rest)]

/-- **A number is a token in front of what cannot go on with it.** -/
theorem tokens_numberChars (hn : n.WellFormed) (hr : EndsNumber rest) :
    tokens (n.chars ++ rest) = (tokens rest).map (.number n :: ·) := by
  obtain ⟨c, text, hchars, hc⟩ := hn.chars_cons
  have hread := lexNumber_chars hn hr
  rw [hchars] at hread ⊢
  exact tokens_of_lexNumber hc hread

end Datum.Json
