import Datum.Proofs.Outcome
import Datum.Proofs.Script.Consumption
import Datum.Proofs.Text.Hex
import Datum.Script.Interpreter

/-!
# Decoding bytes that a script gives in hexadecimal

A command that decodes takes a kind and the text of the bytes, its first two positional arguments
(`Arguments.exists_takeFirst`).  If the text cannot be read, the command fails with the reason, whatever
other arguments it has (`interpret_decode`), except for a text in which a pair of bytes ends inside a
character: there it crashes, and no mark expects that.
-/

namespace Datum.Script

def hexOutcome : Hex.Fault → RunFault
  | .oddLength text => .failed s!"odd hex length in '{text}'"
  | .notDigit => .failed "invalid digit found in string"
  | .splitsCharacter => .crashed

/-! ### Positional arguments -/

theorem Arguments.exists_takeFirst {p : Argument → Bool} {args : Arguments} {arg : Argument}
    {more : List Argument} (h : (args.map (·.arg)).filter p = arg :: more) :
    ∃ taken left, args.takeFirst p = (some taken, left) ∧ taken.arg = arg ∧
      (left.map (·.arg)).filter p = more := by
  have hnone {l : Arguments} (hl : ∀ b ∈ l, p b.arg = false) : (l.map (·.arg)).filter p = [] := by
    rw [List.filter_eq_nil_iff, List.forall_mem_map]
    intro b hb
    rw [hl b hb]
    nofun
  have hfirst := isFirst_takeFirst p args
  rcases ht : args.takeFirst p with ⟨_ | taken, left⟩
  · rw [ht] at hfirst
    rw [hnone hfirst.2] at h
    cases h
  · rw [ht] at hfirst
    obtain ⟨before, after, rfl, rfl, htaken, hbefore⟩ := hfirst
    rw [List.map_append, List.filter_append, hnone hbefore, List.nil_append, List.map_cons,
      List.filter_cons_of_pos htaken] at h
    obtain ⟨hhead, htail⟩ := List.cons.inj h
    refine ⟨taken, before ++ after, rfl, hhead, ?_⟩
    rw [List.map_append, List.filter_append, hnone hbefore, List.nil_append, htail]

theorem map_arg_arguments (command : Command) : command.arguments.map (·.arg) = command.args := by
  rw [Command.arguments, List.map_map]
  exact List.zipIdx_map_fst 0 command.args

/-! ### The steps of the command -/

namespace Execution

theorem run_takePositional {args left : Arguments} {taken : Placed}
    (h : args.nextPos = (some taken, left)) (missing : String) :
    (takePositional missing).run args = .ok (taken.arg.value, left) := by
  simp only [takePositional, take, StateT.run_bind, StateT.run_get, pure_bind, h]
  rfl

theorem run_takeKind {args left : Arguments} {taken : Placed} {k : Kind}
    (h : args.nextPos = (some taken, left)) (hk : Kind.parse? taken.arg.value = some k)
    (missing : String) : (takeKind missing).run args = .ok (k, left) := by
  rw [takeKind, StateT.run_bind, run_takePositional h, ok_bind, kind, hk]
  rfl

theorem run_bytes {text : String} {fault : Hex.Fault} (h : Hex.read text = .error fault)
    (args : Arguments) : (bytes text).run args = .error (hexOutcome fault) := by
  rw [bytes, h]
  cases fault <;> rfl

end Execution

/-- **Bytes that cannot be read decide how a command that decodes ends.** -/
theorem interpret_decode {command : Command} (hname : command.name = "decode")
    {kind text : Argument} {more : List Argument}
    (hargs : command.args.filter (·.key.isNone) = kind :: text :: more) {k : Kind}
    (hk : Kind.parse? kind.value = some k) {fault : Hex.Fault}
    (h : Hex.read text.value = .error fault) : interpret command = .error (hexOutcome fault) := by
  rw [← map_arg_arguments] at hargs
  obtain ⟨takenKind, afterKind, hfirst, rfl, hrest⟩ := Arguments.exists_takeFirst hargs
  obtain ⟨takenText, afterText, hsecond, rfl, -⟩ := Arguments.exists_takeFirst hrest
  rw [interpret, hname, answer]
  simp only [StateT.run_bind]
  rw [Execution.run_takeKind hfirst hk, ok_bind, Execution.run_takePositional hsecond, ok_bind,
    Execution.run_bytes h]
  rfl

/-- **A text is read as the bytes that it spells, and any other text is reported** as the failure of
the command that decodes it, unless it cuts a character.  It spells bytes by two digits for each, and a
plus sign is taken for a zero in the first place.  In ASCII there is no character to cut, and without
plus signs only digits are read.  What is written for bytes is read back. -/
theorem hex_text_read_or_reported (text : String) :
    (∀ bytes, Hex.read text = .ok bytes ↔ Hex.Spells Hex.IsLeading text.toList bytes) ∧
    ('+' ∉ text.toList →
      ∀ bytes, Hex.read text = .ok bytes ↔ Hex.Spells Hex.IsDigit text.toList bytes) ∧
    (Hex.read text = .error .splitsCharacter ↔
      text.utf8ByteSize % 2 = 0 ∧ Hex.CutsCharacter text.toList) ∧
    ((∀ c ∈ text.toList, c.toNat < 128) → Hex.read text ≠ .error .splitsCharacter) ∧
    (∀ (command : Command) (kind arg : Argument) (more : List Argument) (k : Kind) (fault : Hex.Fault),
      command.name = "decode" → command.args.filter (·.key.isNone) = kind :: arg :: more →
      Kind.parse? kind.value = some k → arg.value = text → Hex.read text = .error fault →
      interpret command = .error (hexOutcome fault)) ∧
    (∀ bytes, Hex.read (String.ofList ((Hex.spaced bytes).toList.filter (· ≠ ' '))) = .ok bytes) := by
  refine ⟨fun bytes => Hex.read_eq_ok_iff, ?_, Hex.read_eq_splits_iff, ?_, ?_,
    Hex.read_without_blanks⟩
  · intro hplus bytes
    rw [Hex.read_eq_ok_iff, Hex.spells_isLeading_iff hplus]
  · intro hascii hsplits
    exact Hex.not_cutsCharacter_of_ascii hascii (Hex.read_eq_splits_iff.mp hsplits).2
  · rintro command kind arg more k fault hname hargs hk rfl hread
    exact interpret_decode hname hargs hk hread

/-- Digits of either case, a text in ASCII that is no number, and one that ends with a character of
two bytes, given between other arguments. -/
theorem hex_text_read_or_reported_at_edges :
    '+' ∉ "0aF1".toList ∧ Hex.Spells Hex.IsDigit "0aF1".toList [10, 241] ∧
    Hex.read "0x" ≠ .error .splitsCharacter ∧
    Hex.read "1fé" = .error .notDigit ∧
    interpret ⟨"decode", [⟨none, "int"⟩, ⟨some "k", "v"⟩, ⟨none, "1fé"⟩, ⟨none, "x"⟩], true, 1⟩ =
      .error (.failed "invalid digit found in string") := by
  have hread : Hex.read "1fé" = .error .notDigit := by decide +kernel
  have hplus : '+' ∉ "0aF1".toList := by decide
  obtain ⟨-, hdigits, -⟩ := hex_text_read_or_reported "0aF1"
  obtain ⟨-, -, -, hascii, -⟩ := hex_text_read_or_reported "0x"
  obtain ⟨-, -, -, -, hreported, -⟩ := hex_text_read_or_reported "1fé"
  exact ⟨hplus, (hdigits hplus _).mp (by decide +kernel), hascii (by simp), hread,
    hreported _ ⟨none, "int"⟩ ⟨none, "1fé"⟩ [⟨none, "x"⟩] .integer _ rfl rfl (by decide) rfl hread⟩

/-- A sign is read as a digit, and a pair that ends inside a character is a crash also where the
command is marked to fail. -/
theorem sign_read_and_character_cut :
    Hex.read "+1" = .ok [1] ∧ (¬∃ bytes, Hex.Spells Hex.IsDigit "+1".toList bytes) ∧
    Hex.read "€a" = .error .splitsCharacter ∧
    interpret ⟨"decode", [⟨none, "int"⟩, ⟨none, "€a"⟩], true, 1⟩ = .error .crashed := by
  refine ⟨by decide +kernel, ?_, by decide +kernel, by decide +kernel⟩
  rintro ⟨bytes, h⟩
  have h : Hex.Spells Hex.IsDigit ['+', '1'] bytes := h
  cases h with
  | pair ha _ _ =>
    rw [← Hex.hexDigit?_eq_some_iff] at ha
    cases ha

end Datum.Script
