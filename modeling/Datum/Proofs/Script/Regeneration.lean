import Datum.Proofs.Script.Accounting
import Datum.Proofs.Script.Playback
import Datum.Script.Interpreter

/-!
# Scripts that a replay leaves alone

A replay writes every block as it was, and behind it the texts of its commands.  If the texts have no
blank lines (`Tidy`), reading what was written finds the same blocks, only with other line numbers
(`readBlocks_renderBlocks`).  A runner whose answers do not depend on line numbers or on what came
before (`Runner.Steady`) then gives the same texts again, so that a second replay changes nothing
(`generate_fixed_point`).
-/

namespace Datum.Script

open Text (IsLine)

variable {σ : Type}

/-! ### Line numbers -/

/-- The command as if it stood nowhere. -/
def Command.unnumbered (command : Command) : Command :=
  { command with line := 0 }

def Block.unnumbered (block : Block) : Block :=
  { block with commands := block.commands.map Command.unnumbered }

theorem parseCommand_renumber {line : String} {number : Nat} {command : Command}
    (h : parseCommand line number = .ok command) (number' : Nat) :
    ∃ command', parseCommand line number' = .ok command' ∧
      command'.unnumbered = command.unnumbered := by
  unfold parseCommand at h ⊢
  simp only at h ⊢
  split at h
  · cases h
  · rename_i hname
    rw [if_neg hname]
    split at h
    · rename_i hrest
      rw [← Except.ok.inj h, if_pos hrest]
      exact ⟨_, rfl, rfl⟩
    · cases h

/-- The same lines have the same commands, wherever they stand. -/
theorem readCommands_renumber {body body' : List Line} (hb : body'.map (·.1) = body.map (·.1))
    {commands : List Command} (h : readCommands body = .ok commands) :
    ∃ commands', readCommands body' = .ok commands' ∧
      commands'.map Command.unnumbered = commands.map Command.unnumbered := by
  induction body generalizing body' commands with
  | nil =>
    obtain rfl : body' = [] := by simpa using hb
    exact ⟨commands, h, rfl⟩
  | cons l body ih =>
    obtain ⟨line, number⟩ := l
    cases body' with
    | nil => cases hb
    | cons l' body' =>
      obtain ⟨line', number'⟩ := l'
      obtain ⟨rfl, htexts⟩ := List.cons.inj hb
      by_cases hr : isRemark line'
      · rw [readCommands_cons_remark hr] at h ⊢
        exact ih htexts h
      · obtain ⟨command, more, hc, hm, rfl⟩ := (readCommands_cons_eq_ok_iff hr).mp h
        obtain ⟨command', hc', hu⟩ := parseCommand_renumber hc number'
        obtain ⟨more', hm', hus⟩ := ih htexts hm
        refine ⟨command' :: more', ?_, by rw [List.map_cons, List.map_cons, hu, hus]⟩
        exact (readCommands_cons_eq_ok_iff hr).mpr ⟨command', more', hc', hm', rfl⟩

theorem readCommands_numbered {body : List Line} {commands : List Command}
    (h : readCommands body = .ok commands) (number : Nat) :
    ∃ commands', readCommands ((body.map (·.1)).zipIdx number) = .ok commands' ∧
      commands'.map Command.unnumbered = commands.map Command.unnumbered :=
  readCommands_renumber (List.zipIdx_map_fst number _) h

/-! ### Blocks written and read again -/

/-- No line of the text is blank. -/
def Tidy (text : String) : Prop :=
  ∀ line ∈ Text.lines text, ¬Text.allBlank line.toList

instance (text : String) : Decidable (Tidy text) :=
  inferInstanceAs (Decidable (∀ line ∈ Text.lines text, ¬Text.allBlank line.toList))

theorem endsLine_endLine (text : String) : Text.EndsLine (endLine text).toList := by
  rw [endLine]
  split
  · rename_i h
    exact .inl (List.getLast?_eq_none_iff.mp h)
  · rename_i h
    exact .inr h
  · exact .inr (by simp)

theorem Tidy.endLine {text : String} (h : Tidy text) : Tidy (endLine text) := by
  rw [Script.endLine]
  split
  · exact h
  · exact h
  · rename_i c hc hlast
    have hopen : ¬Text.EndsLine text.toList := by
      rintro (hnil | hfeed)
      · rw [hnil] at hlast
        cases hlast
      · rw [hlast] at hfeed
        exact hc (Option.some.inj hfeed)
    obtain ⟨before, line, hl, hl'⟩ := Text.lines_feed_of_not_endsLine hopen
    rw [Tidy, hl, List.forall_mem_append, List.forall_mem_singleton, String.toList_ofList] at h
    rw [Tidy, hl', List.forall_mem_append, List.forall_mem_singleton, String.toList_ofList,
      Text.allBlank_dropReturn]
    exact h

/-- Texts of commands, one behind the other, are whole lines. -/
theorem endsLine_join_endLine (shown : List String) :
    Text.EndsLine (String.join (shown.map endLine)).toList := by
  induction shown with
  | nil => exact .inl rfl
  | cons text shown ih =>
    rw [List.map_cons, String.join_cons, String.toList_append]
    exact (endsLine_endLine text).append ih

theorem tidy_join_endLine {shown : List String} (h : ∀ text ∈ shown, Tidy text) :
    Tidy (String.join (shown.map endLine)) := by
  induction shown with
  | nil => exact fun _ hl => absurd hl List.not_mem_nil
  | cons text shown ih =>
    obtain ⟨ht, hs⟩ := List.forall_mem_cons.mp h
    rw [List.map_cons, String.join_cons, Tidy, Text.lines_append (endsLine_endLine text),
      List.forall_mem_append]
    exact ⟨ht.endLine, ih hs⟩

theorem isLine_separator : IsLine separator :=
  ⟨by decide, by decide⟩

theorem lines_literalOf_append {body : List Line} (h : ∀ l ∈ body, IsLine l.1) (rest : String) :
    Text.lines (literalOf body ++ rest) = body.map (·.1) ++ Text.lines rest := by
  rw [literalOf, Text.lines_append (Text.endsLine_joinLines _),
    Text.lines_joinLines (List.forall_mem_map.mpr h)]

/-- The lines of a block with commands: its own, the separator, those of the texts and a blank
one. -/
theorem lines_render_append {body : List Line} {block : Block} (hq : Quotes body block)
    (hc : block.commands ≠ []) (hb : ∀ l ∈ body, IsLine l.1) (shown : List String)
    (rest : String) :
    Text.lines (block.render shown ++ rest) =
      body.map (·.1) ++ separator :: (Text.lines (String.join (shown.map endLine)) ++
        "" :: Text.lines rest) := by
  rw [Block.render, if_neg hc, hq.literal]
  simp only [String.append_assoc]
  rw [lines_literalOf_append hb, Text.lines_cons isLine_separator,
    Text.lines_append (endsLine_join_endLine shown), Text.lines_feed_cons]

theorem readBlocks_section {body shown : List String} (hb : ∀ line ∈ body, line ≠ separator)
    (hs : ∀ line ∈ shown, ¬Text.allBlank line.toList) (number : Nat) (rest : List String) :
    readBlocks number (.block "" []) (body ++ separator :: (shown ++ "" :: rest)) =
      readCommands (body.zipIdx number) >>= fun commands =>
        if commands = [] then .error (.separatorWithoutCommands (number + body.length))
        else (readBlocks (number + body.length + 1 + shown.length + 1) (.block "" []) rest).map
          (⟨Text.joinLines body, commands⟩ :: ·) := by
  rw [readBlocks_append_body hb]
  cases readCommands (body.zipIdx number) with
  | error fault => rfl
  | ok commands =>
    simp only [ok_bind, List.nil_append, String.empty_append]
    rw [readBlocks, if_pos rfl, readBlocks_append_output hs, readBlocks,
      if_pos (show Text.allBlank "".toList = true from rfl)]
    rfl

/-- **Blocks that are written with tidy texts are read again, up to line numbers.** -/
theorem readBlocks_renderBlocks {o : Outline} (hr : o.Regular) {blocks : List Block}
    (h : o.read = .ok blocks) (hlines : ∀ l ∈ o.bodyLines, IsLine l.1) {shown : List String}
    (htidy : ∀ text ∈ shown, Tidy text) (number : Nat) :
    ∃ again, readBlocks number (.block "" []) (Text.lines (renderBlocks blocks shown)) = .ok again ∧
      again.map Block.unnumbered = blocks.map Block.unnumbered := by
  induction o generalizing blocks shown number with
  | ending rest =>
    rcases Outline.read_ending_eq_ok_iff.mp h with ⟨rfl, rfl⟩ | ⟨hne, block, rfl, hq, hc⟩
    · exact ⟨[], rfl, rfl⟩
    · simp only [Outline.Regular, Outline.bodyLines] at hr hlines
      have hl := lines_literalOf_append hlines ""
      rw [String.append_empty, show Text.lines "" = [] from rfl, List.append_nil] at hl
      obtain ⟨commands, hread, rfl⟩ := quotes_iff.mp hq
      obtain rfl : commands = [] := hc
      -- The lines are all remarks, so they are an outline by themselves and have no commands.
      have hout : (Outline.ending ((rest.map (·.1)).zipIdx number)).Regular :=
        (forall_mem_numbered (p := (· ≠ separator))).mpr (List.forall_mem_map.mpr hr)
      obtain ⟨commands', hread', hu⟩ := readCommands_numbered hread number
      obtain rfl : commands' = [] := by simpa using hu
      refine ⟨[⟨literalOf rest, []⟩], ?_, rfl⟩
      simp only [renderBlocks, Block.render, if_true, String.append_empty]
      rw [hl, readBlocks_of_outline hout rfl, Outline.read_ending_eq_ok_iff]
      refine .inr ⟨by simpa using hne, _, rfl, quotes_iff.mpr ⟨[], hread', ?_⟩, rfl⟩
      rw [literalOf_numbered, literalOf]
  | block head next ih =>
    obtain ⟨first, more, hq, hc, hm, rfl⟩ := Outline.read_block_eq_ok_iff.mp h
    obtain ⟨hbody, -, hnext⟩ := hr
    rw [Outline.bodyLines, List.forall_mem_append] at hlines
    obtain ⟨commands, hread, rfl⟩ := quotes_iff.mp hq
    obtain ⟨commands', hread', hu⟩ := readCommands_numbered hread number
    have hc' : commands' ≠ [] := by
      rintro rfl
      exact hc (by simpa using hu.symm)
    have htake : ∀ text ∈ shown.take commands.length, Tidy text :=
      fun text ht => htidy text (List.mem_of_mem_take ht)
    have hdrop : ∀ text ∈ shown.drop commands.length, Tidy text :=
      fun text ht => htidy text (List.mem_of_mem_drop ht)
    rw [renderBlocks, lines_render_append hq hc hlines.1,
      readBlocks_section (List.forall_mem_map.mpr hbody) (tidy_join_endLine htake), hread', ok_bind,
      if_neg hc']
    obtain ⟨again, hagain, hsame⟩ := ih hnext hm hlines.2 hdrop _
    rw [hagain]
    refine ⟨_, rfl, ?_⟩
    rw [List.map_cons, List.map_cons, hsame, ← literalOf]
    simp only [Block.unnumbered, hu]

/-! ### Texts produced again -/

/-- The answer to a command depends on its name, its arguments and its mark alone. -/
def Runner.Steady (run : Runner σ) : Prop :=
  ∃ answer : String → List Argument → Bool → Except RunFault String,
    ∀ command s, (run command s).1 = answer command.name command.args command.fail

theorem Runner.Steady.eq_of_unnumbered {run : Runner σ} (h : run.Steady) {a b : Command}
    (hu : a.unnumbered = b.unnumbered) (s t : σ) : (run a s).1 = (run b t).1 := by
  obtain ⟨answer, h⟩ := h
  simp only [Command.unnumbered, Command.mk.injEq, and_true] at hu
  rw [h, h, hu.1, hu.2.1, hu.2.2]

theorem outcomeText_of_unnumbered {a b : Command} (hu : a.unnumbered = b.unnumbered)
    {outcome : Except RunFault String} {text : String} (h : outcomeText a outcome = .ok text) :
    outcomeText b outcome = .ok text := by
  have hfail : a.fail = b.fail := (Command.mk.inj hu).2.2.1
  unfold outcomeText at h ⊢
  rw [hfail] at h
  split at h
  · cases h
  · split at h
    · cases h
    · rename_i hmark
      rw [← Except.ok.inj h, if_neg hmark]
  · split at h
    · rename_i hmark
      rw [← Except.ok.inj h, if_pos hmark]
    · cases h

theorem texts_of_steady {run : Runner σ} (hsteady : run.Steady) {a b : List Command}
    (hu : b.map Command.unnumbered = a.map Command.unnumbered) {s : σ} {shown : List String}
    (h : texts (run.answers a s) = .ok shown) (t : σ) : texts (run.answers b t) = .ok shown := by
  induction a generalizing b s t shown with
  | nil =>
    obtain rfl : b = [] := by simpa using hu
    exact h
  | cons command a ih =>
    cases b with
    | nil => cases hu
    | cons command' b =>
      obtain ⟨hc, hrest⟩ := List.cons.inj hu
      rw [Runner.answers, texts_cons_eq_ok_iff] at h ⊢
      obtain ⟨text, more, ho, ha, rfl⟩ := h
      rw [hsteady.eq_of_unnumbered hc t s]
      exact ⟨text, more, outcomeText_of_unnumbered hc.symm ho, ih hrest ha _, rfl⟩

theorem renderBlocks_of_unnumbered {blocks again : List Block}
    (h : again.map Block.unnumbered = blocks.map Block.unnumbered) (shown : List String) :
    renderBlocks again shown = renderBlocks blocks shown := by
  induction blocks generalizing again shown with
  | nil =>
    obtain rfl : again = [] := by simpa using h
    rfl
  | cons block blocks ih =>
    cases again with
    | nil => cases h
    | cons block' again =>
      obtain ⟨hb, hrest⟩ := List.cons.inj h
      obtain ⟨hliteral, hcommands⟩ := Block.mk.inj hb
      have hlen : block'.commands.length = block.commands.length := by
        simpa using congrArg List.length hcommands
      have hnil : block'.commands = [] ↔ block.commands = [] := by
        rw [← List.length_eq_zero_iff, hlen, List.length_eq_zero_iff]
      simp only [renderBlocks, Block.render, hlen, hliteral, hnil, ih hrest]

theorem allCommands_of_unnumbered {blocks again : List Block}
    (h : again.map Block.unnumbered = blocks.map Block.unnumbered) :
    (allCommands again).map Command.unnumbered = (allCommands blocks).map Command.unnumbered := by
  have hall (bs : List Block) :
      (allCommands bs).map Command.unnumbered = allCommands (bs.map Block.unnumbered) := by
    simp only [allCommands, List.map_flatMap, List.flatMap_map, Block.unnumbered]
  rw [hall, hall, h]

theorem mem_answers {run : Runner σ} {commands : List Command} {s : σ} {x : Answer}
    (h : x ∈ run.answers commands s) : x.1 ∈ commands ∧ ∃ t, x.2 = (run x.1 t).1 := by
  induction commands generalizing s with
  | nil => cases h
  | cons command rest ih =>
    rcases List.mem_cons.mp h with rfl | h
    · exact ⟨List.mem_cons_self, s, rfl⟩
    · obtain ⟨hm, ht⟩ := ih h
      exact ⟨List.mem_cons_of_mem command hm, ht⟩

/-- No text that the runner can put into this script has a blank line. -/
def Runner.TidyOn (run : Runner σ) (script : String) : Prop :=
  ∀ blocks, parse script = .ok blocks → ∀ command ∈ allCommands blocks, ∀ s text,
    outcomeText command (run command s).1 = .ok text → Tidy text

/-- The texts of a replay without a surprise are tidy if the runner is. -/
theorem tidy_of_texts {run : Runner σ} {script : String} (htidy : run.TidyOn script)
    {blocks : List Block} (hp : parse script = .ok blocks) {s : σ} {shown : List String}
    (h : texts (run.answers (allCommands blocks) s) = .ok shown) : ∀ text ∈ shown, Tidy text := by
  obtain ⟨he, rfl, -⟩ := texts_eq_ok h
  intro text hm
  obtain ⟨x, hx, rfl⟩ := List.mem_map.mp hm
  obtain ⟨hc, t, ho⟩ := mem_answers hx
  refine htidy blocks hp x.1 hc t _ ?_
  rw [← ho]
  exact outcomeText_of_expected (he x hx)

theorem generate_of_unnumbered {run : Runner σ} (hsteady : run.Steady) {script script' : String}
    {blocks again : List Block} (hp : parse script = .ok blocks) (hp' : parse script' = .ok again)
    (hsame : again.map Block.unnumbered = blocks.map Block.unnumbered) {s : σ} {output : String}
    (h : (generate run script s).1 = .ok output) (t : σ) :
    (generate run script' t).1 = .ok output := by
  rw [generate_eq_ok_iff] at h ⊢
  obtain ⟨_, shown, hblocks, ht, rfl⟩ := h
  obtain rfl := Except.ok.inj (hp.symm.trans hblocks)
  exact ⟨again, shown, hp', texts_of_steady hsteady (allCommands_of_unnumbered hsame) ht t,
    renderBlocks_of_unnumbered hsame shown⟩

theorem mem_bodyLines {o : Outline} {script : String} (hl : o.lines = numberedLines script)
    {l : Line} (hm : l ∈ o.bodyLines) :
    '\n' ∉ l.1.toList ∧ ∀ c ∈ l.1.toList, c ∈ script.toList := by
  have hm := o.bodyLines_subset hm
  rw [hl] at hm
  exact (forall_mem_numbered (p := fun line => '\n' ∉ line.toList ∧
    ∀ c ∈ line.toList, c ∈ script.toList)).mpr (fun _ => Text.mem_lines) l hm

/-- **What a replay with tidy texts wrote has the blocks of the script, and is what the next replay
writes.** -/
theorem generate_again {run : Runner σ} (hsteady : run.Steady) {script : String} {o : Outline}
    (hl : o.lines = numberedLines script) (hr : o.Regular) (hlines : ∀ l ∈ o.bodyLines, IsLine l.1)
    (htidy : run.TidyOn script) {s : σ} {output : String}
    (h : (generate run script s).1 = .ok output) :
    ∃ blocks again, parse script = .ok blocks ∧ parse output = .ok again ∧
      again.map Block.unnumbered = blocks.map Block.unnumbered ∧
      ∀ t, (generate run output t).1 = .ok output := by
  obtain ⟨blocks, shown, hp, ht, rfl⟩ := generate_eq_ok_iff.mp h
  obtain ⟨again, hagain, hsame⟩ := readBlocks_renderBlocks hr ((parse_eq_read hr hl).symm.trans hp)
    hlines (tidy_of_texts htidy hp ht) 1
  exact ⟨blocks, again, hp, hagain, hsame, generate_of_unnumbered hsteady hp hagain hsame h⟩

/-- **Regenerating a script is a fixed point.**  For a steady runner whose texts have no blank lines,
the output of a replay is read as the blocks of the script, up to line numbers, and a replay of the
output writes it again. -/
theorem generate_fixed_point {run : Runner σ} (hsteady : run.Steady) {script : String}
    (hreturn : '\r' ∉ script.toList) (htidy : run.TidyOn script) {s : σ} {output : String}
    (h : (generate run script s).1 = .ok output) :
    (∃ blocks again, parse script = .ok blocks ∧ parse output = .ok again ∧
      again.map Block.unnumbered = blocks.map Block.unnumbered) ∧
    ∀ t, (generate run output t).1 = .ok output := by
  obtain ⟨o, hl, hr⟩ := exists_outline (numberedLines script)
  have hlines : ∀ l ∈ o.bodyLines, IsLine l.1 := by
    intro l hm
    obtain ⟨hfeed, hchars⟩ := mem_bodyLines hl hm
    exact ⟨hfeed, fun hlast => hreturn (hchars _ (List.mem_of_getLast? hlast))⟩
  obtain ⟨blocks, again, hp, hagain, hsame, hfix⟩ := generate_again hsteady hl hr hlines htidy h
  exact ⟨⟨blocks, again, hp, hagain, hsame⟩, hfix⟩

/-! ### Commands on values -/

theorem interpreter_steady : interpreter.Steady :=
  ⟨fun name args fail => interpret ⟨name, args, fail, 0⟩, fun _ _ => rfl⟩

theorem interpreter_tidyOn {script : String} {commands : List Command}
    (hp : (parse script).map allCommands = .ok commands)
    (ht : ∀ command ∈ commands, ∀ text ∈ (outcomeText command (interpret command)).toOption,
      Tidy text) : interpreter.TidyOn script := by
  intro blocks hb command hc s text ho
  rw [hb] at hp
  rw [Except.ok.inj hp] at hc
  refine ht command hc text ?_
  rw [show outcomeText command (interpret command) = .ok text from ho]
  rfl

/-- Two blocks with a stale output, and remarks before, between and behind them. -/
def remarkedScript : String :=
  "# note\n\ncompare int=1 int=2\n!parse int x\n---\nstale\n\n\ncost int float\n---\n\n# end\n  "

def remarkedOutput : String :=
  "# note\n\ncompare int=1 int=2\n!parse int x\n---\nLess\n" ++
    "Error: CAST_002: invalid Integer literal 'x': not a decimal integer\n\n" ++
    "\ncost int float\n---\n1\n\n# end\n  \n"

theorem generate_fixed_point_remarkedScript :
    '\r' ∉ remarkedScript.toList ∧ interpreter.TidyOn remarkedScript ∧
      (generate interpreter remarkedScript ()).1 = .ok remarkedOutput ∧
      (∃ blocks again, parse remarkedScript = .ok blocks ∧ parse remarkedOutput = .ok again ∧
        again.map Block.unnumbered = blocks.map Block.unnumbered) ∧
      ∀ t, (generate interpreter remarkedOutput t).1 = .ok remarkedOutput := by
  have hreturn : '\r' ∉ remarkedScript.toList := by decide +kernel
  have htidy : interpreter.TidyOn remarkedScript :=
    @interpreter_tidyOn remarkedScript [⟨"compare", [⟨some "int", "1"⟩, ⟨some "int", "2"⟩], false, 3⟩,
      ⟨"parse", [⟨none, "int"⟩, ⟨none, "x"⟩], true, 4⟩,
      ⟨"cost", [⟨none, "int"⟩, ⟨none, "float"⟩], false, 9⟩] (by decide +kernel) (by decide +kernel)
  have hrun : (generate interpreter remarkedScript ()).1 = .ok remarkedOutput := by decide +kernel
  exact ⟨hreturn, htidy, hrun, generate_fixed_point interpreter_steady hreturn htidy hrun⟩

end Datum.Script
