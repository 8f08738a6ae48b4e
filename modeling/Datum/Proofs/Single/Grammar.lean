import Datum.Proofs.Text.Digits
import Datum.Single.Literal
import Mathlib.Data.Int.Notation
import Mathlib.Data.Nat.Notation

/-!
# The grammar of float literals

A float literal is an optional sign and either one of three words in any ASCII case or a decimal number
(`IsLiteral`).  The grammar is given without the reader, and the reader finds what a text is by the
grammar, or nothing (`readNumeral?_eq_some_iff`, `readMagnitude?_eq_some_iff`).  So a literal is read as
what it denotes, and any other text is refused (`ofText_of_isLiteral`, `ofText_of_not_isLiteral`).

The infinities are also told from the numbers by their letters alone (`IsLiteral.infix_iff`).
-/

namespace Datum

open Text (AllDigits IsSign readSign signed spanDigits)

namespace Single

/-! ### The grammar -/

/-- The digits of a decimal number, those before the point and those behind it.  There is at least one,
and a point may only be missing if it has no digits behind it. -/
inductive IsMantissa : List Char → List Char → List Char → Prop
  | whole {digits : List Char} (hne : digits ≠ []) (hd : AllDigits digits) :
      IsMantissa digits digits []
  | point {whole fraction : List Char} (hne : whole ≠ []) (hw : AllDigits whole)
      (hf : AllDigits fraction) : IsMantissa (whole ++ '.' :: fraction) whole fraction
  | leadingPoint {fraction : List Char} (hne : fraction ≠ []) (hf : AllDigits fraction) :
      IsMantissa ('.' :: fraction) [] fraction

/-- An exponent behind its letter, with an optional sign.  It may be missing. -/
inductive IsExponent : List Char → ℤ → Prop
  | none : IsExponent [] 0
  | power {letter : Char} {sign digits : List Char} {negative : Bool}
      (hletter : letter = 'e' ∨ letter = 'E') (hs : IsSign sign negative) (hne : digits ≠ [])
      (hd : AllDigits digits) :
      IsExponent (letter :: (sign ++ digits)) (signed negative (Nat.ofDigitChars 10 digits 0 : ℤ))

def Numeral.IsWritten (n : Numeral) (text : List Char) : Prop :=
  ∃ mantissa exponent, text = mantissa ++ exponent ∧ IsMantissa mantissa n.whole n.fraction ∧
    IsExponent exponent n.exponent

/-- The text is a way to write the magnitude: one of the words in any ASCII case, or a numeral. -/
inductive Magnitude.IsWritten : Magnitude → List Char → Prop
  | inf {word : List Char} (h : word.map Char.toLower = "inf".toList) : IsWritten .infinity word
  | infinity {word : List Char} (h : word.map Char.toLower = "infinity".toList) :
      IsWritten .infinity word
  | nan {word : List Char} (h : word.map Char.toLower = "nan".toList) : IsWritten .nan word
  | number {n : Numeral} {text : List Char} (h : n.IsWritten text) : IsWritten (.number n) text

/-- The text is an optional sign and a magnitude. -/
def IsLiteral (text : List Char) (negative : Bool) (m : Magnitude) : Prop :=
  ∃ sign unsigned, text = sign ++ unsigned ∧ IsSign sign negative ∧ m.IsWritten unsigned

/-! ### Reading a numeral -/

theorem IsExponent.head? {text : List Char} {e : ℤ} (h : IsExponent text e) :
    ∀ c ∈ text.head?, c = 'e' ∨ c = 'E' := by
  cases h with
  | none => rintro c ⟨⟩
  | power hletter hs hne hd =>
    rintro c ⟨⟩
    exact hletter

theorem readExponent?_eq_some_iff {text : List Char} {e : ℤ} :
    readExponent? text = some e ↔ IsExponent text e := by
  constructor
  · intro h
    cases text with
    | nil =>
      obtain rfl := Option.some.inj h
      exact .none
    | cons letter rest =>
      obtain ⟨sign, hs, hrest⟩ := Text.exists_sign rest
      obtain ⟨negative, digits, hread⟩ : ∃ negative digits, readSign rest = (negative, digits) :=
        ⟨_, _, rfl⟩
      rw [hread] at hs hrest
      simp only [readExponent?, hread] at h
      split at h
      · rename_i hletter
        split at h
        · rename_i hdigits
          obtain rfl := Option.some.inj h
          rw [hrest]
          exact .power hletter hs hdigits.1 (List.all_eq_true.mp hdigits.2)
        · cases h
      · cases h
  · intro h
    cases h with
    | none => rfl
    | power hletter hs hne hd =>
      have hread := Text.readSign_append_digits hs hne hd []
      rw [List.append_nil] at hread
      simp only [readExponent?, hread]
      rw [if_pos hletter, if_pos ⟨hne, hd.all⟩]
      rfl

theorem readNumeral?_of_parts {text whole afterWhole fraction afterFraction : List Char}
    (hw : spanDigits text = (whole, afterWhole))
    (hf : readFraction afterWhole = (fraction, afterFraction)) {n : Numeral} :
    readNumeral? text = some n ↔
      (whole ≠ [] ∨ fraction ≠ []) ∧ n.whole = whole ∧ n.fraction = fraction ∧
        IsExponent afterFraction n.exponent := by
  obtain ⟨nw, nf, ne⟩ := n
  have hread : readNumeral? text = (do
      guard (whole ≠ [] ∨ fraction ≠ [])
      let exponent ← readExponent? afterFraction
      return ⟨whole, fraction, exponent⟩) := by
    rw [readNumeral?, hw]
    dsimp only
    rw [hf]
  rw [← readExponent?_eq_some_iff, hread]
  by_cases hne : whole ≠ [] ∨ fraction ≠ []
  · have hguard : (guard (whole ≠ [] ∨ fraction ≠ []) : Option Unit) = some () := if_pos hne
    rw [hguard]
    cases readExponent? afterFraction <;> simp [hne, eq_comm]
  · have hguard : (guard (whole ≠ [] ∨ fraction ≠ []) : Option Unit) = none := if_neg hne
    rw [hguard]
    exact iff_of_false (by rintro ⟨⟩) fun h => hne h.1

theorem readFraction_of_head? {text : List Char} (h : ∀ c ∈ text.head?, c ≠ '.') :
    readFraction text = ([], text) := by
  rw [readFraction.eq_def]
  split
  · exact absurd rfl (h '.' rfl)
  · rfl

theorem isWritten_of_readNumeral? {text : List Char} {n : Numeral}
    (h : readNumeral? text = some n) : n.IsWritten text := by
  obtain ⟨whole, afterWhole, hw⟩ : ∃ whole afterWhole, spanDigits text = (whole, afterWhole) :=
    ⟨_, _, rfl⟩
  obtain ⟨fraction, afterFraction, hf⟩ :
      ∃ fraction afterFraction, readFraction afterWhole = (fraction, afterFraction) := ⟨_, _, rfl⟩
  obtain ⟨hne, rfl, rfl, hexp⟩ := (readNumeral?_of_parts hw hf).mp h
  have htext := Text.eq_append_spanDigits text
  have hwhole := Text.allDigits_spanDigits text
  rw [hw] at htext hwhole
  by_cases hpoint : ∃ rest, afterWhole = '.' :: rest
  · obtain ⟨rest, rfl⟩ := hpoint
    have hspan : spanDigits rest = (n.fraction, afterFraction) := hf
    have hrest := Text.eq_append_spanDigits rest
    have hfraction := Text.allDigits_spanDigits rest
    rw [hspan] at hrest hfraction
    refine ⟨n.whole ++ '.' :: n.fraction, afterFraction, ?_, ?_, hexp⟩
    · rw [htext, hrest, List.append_assoc, List.cons_append]
    · by_cases hempty : n.whole = []
      · rw [hempty]
        exact .leadingPoint (hne.resolve_left fun h => h hempty) hfraction
      · exact .point hempty hwhole hfraction
  · have hread : readFraction afterWhole = ([], afterWhole) := by
      refine readFraction_of_head? fun c hc hdot => hpoint ?_
      obtain ⟨rest, rfl⟩ := List.head?_eq_some_iff.mp hc
      exact ⟨rest, by rw [hdot]⟩
    obtain ⟨hfraction, rfl⟩ := Prod.mk.inj (hread.symm.trans hf)
    refine ⟨n.whole, afterWhole, htext, ?_, hexp⟩
    rw [← hfraction] at hne ⊢
    exact .whole (hne.resolve_right fun h => h rfl) hwhole

theorem readNumeral?_of_isWritten {text : List Char} {n : Numeral} (h : n.IsWritten text) :
    readNumeral? text = some n := by
  obtain ⟨mantissa, exponent, rfl, hm, hexp⟩ := h
  have hnotDigit : ∀ c ∈ exponent.head?, c.isDigit = false := by
    intro c hc
    rcases hexp.head? c hc with rfl | rfl <;> rfl
  have hnotPoint : ∀ c ∈ exponent.head?, c ≠ '.' := by
    intro c hc
    rcases hexp.head? c hc with rfl | rfl <;> decide
  obtain ⟨whole, fraction, e⟩ := n
  cases hm with
  | whole hne hd =>
    rw [readNumeral?_of_parts (Text.spanDigits_append hd hnotDigit) (readFraction_of_head? hnotPoint)]
    exact ⟨.inl hne, rfl, rfl, hexp⟩
  | point hne hw hf =>
    have hspan : spanDigits (whole ++ '.' :: fraction ++ exponent) =
        (whole, '.' :: (fraction ++ exponent)) := by
      rw [List.append_assoc]
      exact Text.spanDigits_append hw (by rintro c ⟨⟩; rfl)
    rw [readNumeral?_of_parts hspan (Text.spanDigits_append hf hnotDigit)]
    exact ⟨.inl hne, rfl, rfl, hexp⟩
  | leadingPoint hne hf =>
    have hspan : spanDigits ('.' :: fraction ++ exponent) = ([], '.' :: (fraction ++ exponent)) := rfl
    rw [readNumeral?_of_parts hspan (Text.spanDigits_append hf hnotDigit)]
    exact ⟨.inr hne, rfl, rfl, hexp⟩

/-- **A numeral is read from the ways to write it, and from nothing else.** -/
theorem readNumeral?_eq_some_iff {text : List Char} {n : Numeral} :
    readNumeral? text = some n ↔ n.IsWritten text :=
  ⟨isWritten_of_readNumeral?, readNumeral?_of_isWritten⟩

theorem Numeral.IsWritten.head? {n : Numeral} {text : List Char} (h : n.IsWritten text) :
    ∃ c rest, text = c :: rest ∧ (c.isDigit = true ∨ c = '.') := by
  obtain ⟨whole, fraction, e⟩ := n
  obtain ⟨mantissa, exponent, rfl, hm, -⟩ := h
  have hdigits {digits : List Char} (rest : List Char) (hne : digits ≠ []) (hd : AllDigits digits) :
      ∃ c tail, digits ++ rest = c :: tail ∧ (c.isDigit = true ∨ c = '.') := by
    obtain ⟨c, tail, rfl⟩ := List.exists_cons_of_ne_nil hne
    exact ⟨c, tail ++ rest, rfl, .inl (hd c List.mem_cons_self)⟩
  cases hm with
  | whole hne hd => exact hdigits exponent hne hd
  | point hne hw hf =>
    rw [List.append_assoc]
    exact hdigits _ hne hw
  | leadingPoint hne hf => exact ⟨'.', _, rfl, .inr rfl⟩

/-! ### Reading a literal -/

theorem toLower_of_isDigit {c : Char} (h : c.isDigit = true) : c.toLower = c := by
  have hb := Text.isDigit_bounds h
  refine dif_neg fun hupper => ?_
  have : 65 ≤ c.toNat := hupper.1
  omega

theorem readNumeral?_of_word {word : List Char} {c : Char} {letters : List Char}
    (h : word.map Char.toLower = c :: letters) (hc : c = 'i' ∨ c = 'n') :
    readNumeral? word = none := by
  rw [Option.eq_none_iff_forall_ne_some]
  intro n hn
  obtain ⟨d, rest, rfl, hd⟩ := (readNumeral?_eq_some_iff.mp hn).head?
  obtain ⟨hlower, -⟩ := List.cons.inj h
  rcases hd with hd | rfl
  · rw [toLower_of_isDigit hd] at hlower
    rcases hc with rfl | rfl <;> subst hlower <;> cases hd
  · rcases hc with rfl | rfl <;> revert hlower <;> decide

/-- **A magnitude is read from the ways to write it, and from nothing else.** -/
theorem readMagnitude?_eq_some_iff {text : List Char} {m : Magnitude} :
    readMagnitude? text = some m ↔ m.IsWritten text := by
  constructor
  · intro h
    rw [readMagnitude?] at h
    split at h
    · rename_i n hn
      obtain rfl := Option.some.inj h
      exact .number (readNumeral?_eq_some_iff.mp hn)
    · simp only [← String.toList_inj, String.toList_ofList] at h
      split at h
      · rename_i hword
        obtain rfl := Option.some.inj h
        exact hword.elim .inf .infinity
      · split at h
        · rename_i hword
          obtain rfl := Option.some.inj h
          exact .nan hword
        · cases h
  · intro h
    rw [readMagnitude?]
    cases h with
    | number hn => rw [readNumeral?_eq_some_iff.mpr hn]
    | inf hword => rw [readNumeral?_of_word hword (.inl rfl), hword]; rfl
    | infinity hword => rw [readNumeral?_of_word hword (.inl rfl), hword]; rfl
    | nan hword => rw [readNumeral?_of_word hword (.inr rfl), hword]; rfl

theorem Magnitude.IsWritten.head? {m : Magnitude} {text : List Char} (h : m.IsWritten text) :
    ∀ c ∈ text.head?, c ≠ '+' ∧ c ≠ '-' := by
  have hword {c : Char} {letters : List Char} (hw : text.map Char.toLower = c :: letters)
      (hc : c = 'i' ∨ c = 'n') : ∀ c ∈ text.head?, c ≠ '+' ∧ c ≠ '-' := by
    intro d hd
    obtain ⟨rest, rfl⟩ := List.head?_eq_some_iff.mp hd
    obtain ⟨hlower, -⟩ := List.cons.inj hw
    constructor <;> rintro rfl <;> rcases hc with rfl | rfl <;> revert hlower <;> decide
  cases h with
  | inf h => exact hword h (.inl rfl)
  | infinity h => exact hword h (.inl rfl)
  | nan h => exact hword h (.inr rfl)
  | number h =>
    obtain ⟨c, rest, rfl, hc⟩ := h.head?
    rintro d ⟨⟩
    constructor <;> rintro rfl <;> rcases hc with hc | hc <;> revert hc <;> decide

theorem ofText_of_isLiteral {text : String} {negative : Bool} {m : Magnitude}
    (h : IsLiteral (Text.trimAscii text) negative m) :
    ofText text =
      if (denote negative m).isInfinite ∧ m ≠ .infinity then .error .outOfRange
      else .ok (denote negative m) := by
  obtain ⟨sign, unsigned, htext, hs, hm⟩ := h
  have hsign := Text.readSign_append hs hm.head?
  have hne : sign ++ unsigned ≠ [] := by
    intro hnil
    obtain ⟨-, rfl⟩ := List.append_eq_nil_iff.mp hnil
    have hread : readMagnitude? [] = some m := readMagnitude?_eq_some_iff.mpr hm
    cases hread
  unfold ofText
  rw [htext]
  split
  · contradiction
  · simp only [hsign, readMagnitude?_eq_some_iff.mpr hm]

theorem ofText_of_not_isLiteral {text : String}
    (h : ¬∃ negative m, IsLiteral (Text.trimAscii text) negative m) :
    ofText text = .error (if Text.trimAscii text = [] then .empty else .notNumber) := by
  unfold ofText
  split
  · rename_i hnil
    rw [hnil, if_pos rfl]
  · rename_i hne
    obtain ⟨sign, hs, htext⟩ := Text.exists_sign (Text.trimAscii text)
    rw [if_neg hne]
    cases hread : readMagnitude? (readSign (Text.trimAscii text)).2 with
    | none => simp only [hread]
    | some m => exact absurd ⟨_, m, sign, _, htext, hs, readMagnitude?_eq_some_iff.mp hread⟩ h

/-! ### The characters of a literal -/

theorem Numeral.IsWritten.mem {n : Numeral} {text : List Char} (h : n.IsWritten text) :
    ∀ c ∈ text, c.isDigit = true ∨ c ∈ ['.', 'e', 'E', '+', '-'] := by
  obtain ⟨whole, fraction, e⟩ := n
  obtain ⟨mantissa, exponent, rfl, hm, hexp⟩ := h
  have hexponent : ∀ c ∈ exponent, c.isDigit = true ∨ c ∈ ['.', 'e', 'E', '+', '-'] := by
    intro c hc
    cases hexp with
    | none => cases hc
    | power hletter hs hne hd =>
      rcases List.mem_cons.mp hc with rfl | hc
      · rcases hletter with rfl | rfl <;> simp
      · rcases List.mem_append.mp hc with hc | hc
        · rcases hs.mem hc with rfl | rfl <;> simp
        · exact .inl (hd c hc)
  intro c hc
  rcases List.mem_append.mp hc with hc | hc
  · cases hm with
    | whole hne hd => exact .inl (hd c hc)
    | point hne hw hf =>
      rcases List.mem_append.mp hc with hc | hc
      · exact .inl (hw c hc)
      · rcases List.mem_cons.mp hc with rfl | hc
        · simp
        · exact .inl (hf c hc)
    | leadingPoint hne hf =>
      rcases List.mem_cons.mp hc with rfl | hc
      · simp
      · exact .inl (hf c hc)
  · exact hexponent c hc

theorem IsLiteral.not_isAsciiBlank {text : List Char} {negative : Bool} {n : Numeral}
    (h : IsLiteral text negative (.number n)) : ∀ c ∈ text, Text.isAsciiBlank c = false := by
  obtain ⟨sign, unsigned, rfl, hs, hm⟩ := h
  cases hm with
  | number hn =>
    intro c hc
    rcases List.mem_append.mp hc with hc | hc
    · rcases hs.mem hc with rfl | rfl <;> rfl
    · rcases hn.mem c hc with hd | hc
      · exact Text.not_isAsciiBlank_of_isDigit hd
      · simp only [List.mem_cons, List.not_mem_nil, or_false] at hc
        rcases hc with rfl | rfl | rfl | rfl | rfl <;> rfl

/-- **The infinities are the literals that have `inf` among their letters.**  Searching a literal for
it tells an infinity that is written out from a number that is rounded to one. -/
theorem IsLiteral.infix_iff {text : List Char} {negative : Bool} {m : Magnitude}
    (h : IsLiteral text negative m) :
    "inf".toList <:+: text.map Char.toLower ↔ m = .infinity := by
  obtain ⟨sign, unsigned, rfl, hs, hm⟩ := h
  have hsign : 'i' ∉ sign.map Char.toLower := by
    cases hs <;> decide
  have hno (hi : 'i' ∉ unsigned.map Char.toLower) :
      ¬"inf".toList <:+: (sign ++ unsigned).map Char.toLower := by
    intro hinfix
    have hmem := hinfix.subset (show 'i' ∈ "inf".toList by decide)
    rw [List.map_append, List.mem_append] at hmem
    exact hmem.elim hsign hi
  cases hm with
  | inf hword =>
    refine iff_of_true ⟨sign.map Char.toLower, [], ?_⟩ rfl
    rw [List.map_append, hword, List.append_nil]
  | infinity hword =>
    refine iff_of_true ⟨sign.map Char.toLower, "inity".toList, ?_⟩ rfl
    rw [List.map_append, hword, List.append_assoc]
    rfl
  | nan hword =>
    refine iff_of_false (hno ?_) (by rintro ⟨⟩)
    rw [hword]
    decide
  | number hn =>
    refine iff_of_false (hno ?_) (by rintro ⟨⟩)
    intro hi
    obtain ⟨c, hc, hlower⟩ := List.mem_map.mp hi
    rcases hn.mem c hc with hd | hc
    · rw [toLower_of_isDigit hd] at hlower
      subst hlower
      cases hd
    · simp only [List.mem_cons, List.not_mem_nil, or_false] at hc
      rcases hc with rfl | rfl | rfl | rfl | rfl <;> cases hlower

end Single

end Datum
