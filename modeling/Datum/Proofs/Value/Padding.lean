import Datum.Proofs.Value.Literal

/-!
# Blanks around a literal

A literal of any kind but a string is read from its text without the ASCII blanks around it, and from
nothing else of the text, so that two texts which differ in these blanks alone are read alike
(`parse_alike`).  What remains of the difference is the text that a failure shows (`SameFailure`).
-/

namespace Datum

def IsPadding (pad : String) : Prop :=
  pad.toList.all Text.isAsciiBlank = true

instance (pad : String) : Decidable (IsPadding pad) :=
  inferInstanceAs (Decidable (_ = true))

theorem trimAscii_padded {front back : String} (hf : IsPadding front) (hb : IsPadding back)
    (text : String) : Text.trimAscii (front ++ text ++ back) = Text.trimAscii text := by
  simp only [Text.trimAscii, String.toList_append, List.append_assoc]
  exact Text.trim_append_of_all hf hb text.toList

/-- The failures of reading two texts as literals of a kind, if they are the same but for the text:
both are no literal, for one reason, or both are out of range. -/
inductive SameFailure (kind : Kind) (a b : String) : TypeError → TypeError → Prop
  | invalid (reason : String) :
      SameFailure kind a b (.invalidLiteral a kind reason) (.invalidLiteral b kind reason)
  | outOfRange : SameFailure kind a b (.numericOverflow a kind) (.numericOverflow b kind)

theorem Integer.Fault.sameFailure (a b : String) (fault : Fault) :
    SameFailure .integer a b (fault.toError a) (fault.toError b) := by
  cases fault with
  | empty => exact .invalid _
  | notDigits => exact .invalid _
  | outOfRange => exact .outOfRange

theorem Single.Fault.sameFailure (a b : String) (fault : Fault) :
    SameFailure .float a b (fault.toError a) (fault.toError b) := by
  cases fault with
  | empty => exact .invalid _
  | notNumber => exact .invalid _
  | outOfRange => exact .outOfRange

theorem Date.Fault.sameFailure (a b : String) (fault : Fault) :
    SameFailure .date a b (fault.toError a) (fault.toError b) :=
  .invalid _

namespace Value

variable {kind : Kind} {a b : String}

/-- What a reader of faults makes of one outcome, for two texts. -/
theorem alike_of_reader {α φ : Type} (outcome : Except φ α) (value : α → Value)
    {toError : String → φ → TypeError}
    (h : ∀ fault, SameFailure kind a b (toError a fault) (toError b fault)) :
    Alike (SameFailure kind a b) Eq ((outcome.mapError (toError a)).map value)
      ((outcome.mapError (toError b)).map value) := by
  cases outcome with
  | ok x => exact .ok rfl
  | error fault => exact .error (h fault)

/-- **A literal is read from what is between the blanks.** -/
theorem parse_alike (hk : kind.isString = false) (h : Text.trimAscii a = Text.trimAscii b) :
    Alike (SameFailure kind a b) Eq (parse kind a) (parse kind b) := by
  have hword : literalWord a = literalWord b := by rw [literalWord, literalWord, h]
  cases kind with
  | charString => cases hk
  | text => cases hk
  | integer =>
    have hread : Integer.ofText a = Integer.ofText b := by rw [Integer.ofText, Integer.ofText, h]
    rw [parse, parse, hread]
    exact alike_of_reader _ integer (Integer.Fault.sameFailure a b)
  | float =>
    have hread : Single.ofText a = Single.ofText b := by rw [Single.ofText, Single.ofText, h]
    rw [parse, parse, hread]
    exact alike_of_reader _ float (Single.Fault.sameFailure a b)
  | date =>
    have hread : Date.ofText a = Date.ofText b := by rw [Date.ofText, Date.ofText, h]
    rw [parse, parse, hread]
    exact alike_of_reader _ date (Date.Fault.sameFailure a b)
  | boolean =>
    have hread : truthValue? a = truthValue? b := by rw [truthValue?, truthValue?, hword]
    rw [parse, parse, hread]
    cases truthValue? b with
    | some b => exact .ok rfl
    | none => exact .error (.invalid _)
  | null =>
    have hread : isNullLiteral a = isNullLiteral b := by rw [isNullLiteral, isNullLiteral, hword]
    rw [parse, parse, hread]
    split
    · exact .ok rfl
    · exact .error (.invalid _)

/-- **Blanks around a literal do not matter.**  With ASCII blanks around it a text is read as the same
value, or fails in the same way with the same target and reason; and so does a string of it that is
cast. -/
theorem padding_insignificant {kind : Kind} (hk : kind.isString = false) {front back : String}
    (hf : IsPadding front) (hb : IsPadding back) (text : String) :
    Alike (SameFailure kind (front ++ text ++ back) text) Eq
      (parse kind (front ++ text ++ back)) (parse kind text) ∧
    (kind ≠ .null → ∀ s : Kind, s.isString = true →
      Alike (SameFailure kind (front ++ text ++ back) text) Eq
        ((ofBytes s (Utf8.encode (front ++ text ++ back))).cast kind)
        ((ofBytes s (Utf8.encode text)).cast kind)) := by
  have hparse := parse_alike hk (trimAscii_padded hf hb text)
  refine ⟨hparse, fun hn s hs => ?_⟩
  rw [cast_ofBytes_encode hs hk hn, cast_ofBytes_encode hs hk hn]
  exact hparse

/-- A float that is out of range, and a zero with a minus, with all five blanks around them. -/
theorem padding_insignificant_around_float :
    IsPadding " \t\n" ∧ IsPadding "\x0c\r" ∧
    (Value.text (Utf8.encode (" \t\n" ++ "1e39" ++ "\x0c\r"))).cast .float =
      .error (.numericOverflow (" \t\n" ++ "1e39" ++ "\x0c\r") .float) ∧
    parse .float (" \t\n" ++ "-0" ++ "\x0c\r") = .ok (float ⟨0x80000000⟩) := by
  have hf : IsPadding " \t\n" := by decide
  have hb : IsPadding "\x0c\r" := by decide
  have hfar : (ofBytes .text (Utf8.encode "1e39")).cast .float =
      .error (.numericOverflow "1e39" .float) := by decide +kernel
  have hzero : parse .float "-0" = .ok (float ⟨0x80000000⟩) := by decide
  obtain ⟨-, hcast⟩ := @padding_insignificant .float rfl _ _ hf hb "1e39"
  obtain ⟨hparse, -⟩ := @padding_insignificant .float rfl _ _ hf hb "-0"
  have hpadded := hcast (by decide) .text rfl
  rw [hfar] at hpadded
  rw [hzero] at hparse
  refine ⟨hf, hb, ?_, ?_⟩
  · show (ofBytes .text _).cast .float = _
    generalize (ofBytes .text _).cast .float = outcome at hpadded ⊢
    cases hpadded with
    | error h =>
      cases h
      rfl
  · generalize parse .float _ = outcome at hparse ⊢
    cases hparse with
    | ok h => rw [h]

end Value

end Datum
