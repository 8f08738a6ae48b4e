import Datum.Proofs.Outcome
import Datum.Proofs.Script.Spelling

/-!
# Arguments shown as text

The text of an argument is its key and its value as it is.  So it is a spelling of the argument if the
value needs no quotes, and only so (`isSpelledBy_text_iff`): the quotes of any other spelling make it
longer than the text.  This decides whether the argument is read back from a line of its text
(`text_read_back`).
-/

namespace Datum.Script

namespace Argument

variable {arg : Argument}

theorem toList_text (arg : Argument) : arg.text.toList = arg.keyChars ++ arg.value.toList := by
  cases h : arg.key with
  | none => rw [keyChars_of_none h, text, h, List.nil_append]
  | some key =>
    rw [keyChars_of_some h, text, h]
    simp only [String.toList_append]
    rfl

theorem IsSpelledBy.isBare {written : List Char} (h : arg.IsSpelledBy written)
    (hlen : written.length ≤ arg.text.toList.length) : arg.IsBare := by
  cases h with
  | bare _ hb => exact hb
  | quoted =>
    rw [toList_text] at hlen
    simp only [List.length_append, List.length_cons] at hlen
    omega

/-- **The text of an argument is a spelling of it if the value needs no quotes, and only so.** -/
theorem isSpelledBy_text_iff (h : arg.HasKey) : arg.IsSpelledBy arg.text.toList ↔ arg.IsBare := by
  constructor
  · exact fun hs => hs.isBare (Nat.le_refl _)
  · intro hb
    rw [toList_text]
    exact .bare h hb

end Argument

theorem AreSpelledBy.hasKey {args : List Argument} {written : List Char}
    (h : AreSpelledBy args written) {arg : Argument} (hm : arg ∈ args) : arg.HasKey := by
  induction h with
  | nil => cases hm
  | cons _ _ hs _ ih =>
    rcases List.mem_cons.mp hm with rfl | hm
    · exact hs.hasKey
    · exact ih hm

theorem AreSpelledBy.of_singleton {arg : Argument} {written : List Char}
    (h : AreSpelledBy [arg] written) :
    ∃ gap text, gap ≠ [] ∧ arg.IsSpelledBy text ∧ written = gap ++ text := by
  cases h with
  | cons hne _ hs hnil =>
    cases hnil
    exact ⟨_, _, hne, hs, by rw [List.append_nil]⟩

/-- **An argument is read back from its text if its value needs no quotes, and only so.**  A line of a
name and the text of an argument that has been read is a command with this argument alone in the first
case; in the second it is no command, or one with other arguments. -/
theorem text_read_back {line : String} {number : Nat} {command : Command} {arg : Argument}
    (h : parseCommand line number = .ok command) (harg : arg ∈ command.args) {name : String}
    (hname : IsName false name.toList) (number' : Nat) :
    (arg.IsBare → parseCommand (name ++ " " ++ arg.text) number' = .ok ⟨name, [arg], false, number'⟩) ∧
    (∀ command', parseCommand (name ++ " " ++ arg.text) number' = .ok command' →
      command'.args = [arg] → arg.IsBare) := by
  obtain ⟨_, _, _, -, -, -, -, hargs⟩ := isSpelledBy_of_parseCommand h
  have hkey : arg.HasKey := hargs.hasKey harg
  have hline : (name ++ " " ++ arg.text).toList =
      [] ++ (markChars false ++ (name.toList ++ (' ' :: arg.text.toList))) := by
    simp only [String.toList_append, List.append_assoc]
    rfl
  constructor
  · intro hb
    have hspelled : AreSpelledBy [arg] (" ".toList ++ (arg.text.toList ++ [])) :=
      .cons (by decide) (by decide) ((Argument.isSpelledBy_text_iff hkey).mpr hb) .nil
    have hcommand : Command.IsSpelledBy ⟨name, [arg], false, number'⟩
        (name ++ " " ++ arg.text).toList := by
      refine ⟨[], _, [], ?_, nofun, nofun, hname, hspelled⟩
      rw [hline, List.append_nil, List.append_nil]
      rfl
    exact parseCommand_of_isSpelledBy hcommand
  · intro command' hread hargs'
    have htail : StartsSpaced (' ' :: arg.text.toList) := by
      rintro _ ⟨⟩
      rfl
    rw [parseCommand_of_name hline nofun hname htail] at hread
    split at hread
    · obtain rfl := Except.ok.inj hread
      obtain ⟨written, hwritten, htext⟩ := eq_append_of_readArguments (' ' :: arg.text.toList)
      simp only at hargs'
      rw [hargs'] at hwritten
      obtain ⟨gap, spelling, hne, hspelling, rfl⟩ := hwritten.of_singleton
      -- the gap takes up a character, so that nothing is left for quotes
      have hlen := congrArg List.length htext
      have hgap := List.length_pos_iff.mpr hne
      simp only [List.length_cons, List.length_append] at hlen
      exact hspelling.isBare (by omega)
    · cases hread

/-- A value that could be taken for another key is read back behind a key, and not without one. -/
theorem text_read_back_behind_key :
    parseCommand "set k='a=1' 'a=1'" 1 = .ok ⟨"set", [⟨some "k", "a=1"⟩, ⟨none, "a=1"⟩], false, 1⟩ ∧
    parseCommand "set k=a=1" 2 = .ok ⟨"set", [⟨some "k", "a=1"⟩], false, 2⟩ ∧
    ¬(parseCommand "set a=1" 2).map (·.args) = .ok [⟨none, "a=1"⟩] := by
  have hread : parseCommand "set k='a=1' 'a=1'" 1 =
      .ok ⟨"set", [⟨some "k", "a=1"⟩, ⟨none, "a=1"⟩], false, 1⟩ := by decide +kernel
  have hname : IsName false "set".toList := by decide
  obtain ⟨hback, -⟩ := text_read_back hread List.mem_cons_self hname 2
  obtain ⟨-, hlost⟩ := text_read_back hread (List.mem_cons_of_mem _ List.mem_cons_self) hname 2
  refine ⟨hread, hback (by decide), fun hargs => ?_⟩
  obtain ⟨command', hcommand, hargs⟩ := map_eq_ok_iff.mp hargs
  exact absurd (hlost command' hcommand hargs) (by decide)

/-- Without its quotes a value with a blank is read as two, and an empty one not at all. -/
theorem quotes_lost_in_text :
    parseCommand "parse \"it's x\"" 1 = .ok ⟨"parse", [⟨none, "it's x"⟩], false, 1⟩ ∧
    Argument.text ⟨none, "it's x"⟩ = "it's x" ∧
    parseCommand "parse it's x" 1 = .ok ⟨"parse", [⟨none, "it's"⟩, ⟨none, "x"⟩], false, 1⟩ ∧
    parseCommand "parse text=''" 1 = .ok ⟨"parse", [⟨some "text", ""⟩], false, 1⟩ ∧
    Argument.text ⟨some "text", ""⟩ = "text=" ∧
    parseCommand "parse text=" 1 = .error (.leftOver "text=") := by
  decide +kernel

end Datum.Script
