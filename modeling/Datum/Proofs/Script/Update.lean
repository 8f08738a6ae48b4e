import Datum.Proofs.Script.Regeneration

/-!
# Script files brought up to date

A file that is brought up to date gets the output of a replay, without the blanks at its end and with
one line feed.  Blanks at the end of a script matter only for the last block without commands
(`readBlocks_trimmed`), so that a replay of the file differs from one of the output in blanks at the
end alone (`generate_trimBlankEnd`), which a check ignores.

The file then passes if its output is read again as it was written (`checkFile_after_update`).  It is
not if an output has a blank line, since the lines behind that are taken for commands and comments,
or if a line that a block quotes ends with a carriage return, which is lost when it is read again.
-/

namespace Datum.Script

variable {σ : Type}

/-! ### Blank lines at the end -/

theorem isRemark_of_allBlank {line : String} (h : Text.allBlank line.toList) : isRemark line := by
  have hd : line.toList.dropWhile Text.isBlank = [] :=
    List.dropWhile_eq_nil_iff.mpr (List.all_eq_true.mp h)
  rw [isRemark, Text.trim, Text.trimStart, hd]
  rfl

theorem isRemark_append {line pad : List Char} {c : Char} (hc : line.getLast? = some c)
    (hb : Text.isBlank c = false) (hp : Text.allBlank pad) :
    isRemark (String.ofList (line ++ pad)) = isRemark (String.ofList line) := by
  have hne : line.dropWhile Text.isBlank ≠ [] := by
    intro hnil
    have hall := List.dropWhile_eq_nil_iff.mp hnil c (List.mem_of_getLast? hc)
    rw [hb] at hall
    cases hall
  simp only [isRemark, String.toList_ofList, Text.trim, Text.trimStart, List.dropWhile_append,
    List.isEmpty_iff, if_neg hne, Text.trimEnd_append_of_all hp]

theorem ne_separator_of_allBlank {line : String} (h : Text.allBlank line.toList) :
    line ≠ separator := by
  rintro rfl
  exact absurd h (by decide)

theorem readCommands_remarks {body : List Line} (h : ∀ l ∈ body, isRemark l.1) :
    readCommands body = .ok [] := by
  rw [readCommands_eq_ok_iff, commandLines_eq_nil_iff.mpr h]
  exact .nil

theorem readBlocks_blanks {blanks : List String}
    (h : ∀ line ∈ blanks, Text.allBlank line.toList = true) (number : Nat) (literal : String)
    (commands : List Command) :
    readBlocks number (.block literal commands) blanks =
      readBlocks (number + blanks.length) (.block (literal ++ Text.joinLines blanks) commands)
        [] := by
  have hr : readCommands (blanks.zipIdx number) = .ok [] :=
    readCommands_remarks ((forall_mem_numbered (p := fun line => isRemark line = true)).mpr
      fun line hl => isRemark_of_allBlank (h line hl))
  have hb := readBlocks_append_body (fun line hl => ne_separator_of_allBlank (h line hl)) number
    literal commands []
  rw [hr, ok_bind, List.append_nil, List.append_nil] at hb
  exact hb

/-! ### Blocks that differ in blanks at the end -/

/-- The blocks are the same, but for blanks at the end of a last one without commands. -/
inductive SameButEnd : List Block → List Block → Prop
  | nil : SameButEnd [] []
  | dropped {literal : String} (h : Text.trimBlankEnd literal = "") : SameButEnd [⟨literal, []⟩] []
  | trimmed {literal literal' : String}
      (h : Text.trimBlankEnd literal = Text.trimBlankEnd literal') :
      SameButEnd [⟨literal, []⟩] [⟨literal', []⟩]
  | cons (block : Block) {a b : List Block} (h : SameButEnd a b) :
      SameButEnd (block :: a) (block :: b)

/-- What is left of a script whose last line with a character that is not blank has been read. -/
theorem readBlocks_blanks_eq_ok {blanks : List String}
    (h : ∀ line ∈ blanks, Text.allBlank line.toList = true) {number : Nat} {literal : String}
    {commands : List Command} {blocks : List Block}
    (hb : readBlocks number (.block literal commands) blanks = .ok blocks) :
    commands = [] ∧ (blocks = [] ∧ literal ++ Text.joinLines blanks = "" ∨
      blocks = [⟨literal ++ Text.joinLines blanks, []⟩]) := by
  rw [readBlocks_blanks h, readBlocks] at hb
  by_cases hc : commands = []
  · refine ⟨hc, ?_⟩
    rw [if_neg (not_not.mpr hc)] at hb
    split at hb
    · rename_i hl
      exact .inl ⟨(Except.ok.inj hb).symm, hl⟩
    · exact .inr (Except.ok.inj hb).symm
  · rw [if_pos hc] at hb
    cases hb

theorem trimBlankEnd_trimBlankEnd (text : String) :
    Text.trimBlankEnd (Text.trimBlankEnd text) = Text.trimBlankEnd text := by
  simp only [Text.trimBlankEnd, String.toList_ofList, Text.trimEnd_trimEnd]

theorem allBlank_joinLines {blanks : List String}
    (h : ∀ line ∈ blanks, Text.allBlank line.toList = true) :
    Text.allBlank (Text.joinLines blanks).toList = true := by
  rw [Text.toList_joinLines, Text.allBlank, List.all_eq_true]
  intro c hc
  obtain ⟨line, hl, hc⟩ := List.mem_flatMap.mp hc
  rcases List.mem_append.mp hc with hc | hc
  · exact List.all_eq_true.mp (h line hl) c hc
  · rw [List.mem_singleton.mp hc]
    rfl

/-- Behind output, blank lines are at most a block without commands. -/
theorem readBlocks_output_blanks {blanks : List String}
    (h : ∀ line ∈ blanks, Text.allBlank line.toList = true) {number : Nat} {blocks : List Block}
    (hb : readBlocks number .output blanks = .ok blocks) : SameButEnd blocks [] := by
  cases blanks with
  | nil =>
    rw [← Except.ok.inj hb]
    exact .nil
  | cons line blanks =>
    obtain ⟨hline, hrest⟩ := List.forall_mem_cons.mp h
    rw [readBlocks, if_pos hline] at hb
    obtain ⟨-, ⟨rfl, -⟩ | rfl⟩ := readBlocks_blanks_eq_ok hrest hb
    · exact .nil
    · refine .dropped ?_
      rw [Text.trimBlankEnd_append_blank "" (allBlank_joinLines hrest)]
      rfl

theorem SameButEnd.append (closed : List Block) {a b : List Block} (h : SameButEnd a b) :
    SameButEnd (closed ++ a) (closed ++ b) := by
  induction closed with
  | nil => exact h
  | cons block closed ih => exact .cons block ih

/-- A line is an error, or leads to another position and may close a block. -/
theorem readBlocks_cons (number : Nat) (position : Position) (line : String) :
    (∃ fault, ∀ rest, readBlocks number position (line :: rest) = .error fault) ∨
    ∃ position' closed, ∀ rest, readBlocks number position (line :: rest) =
      (readBlocks (number + 1) position' rest).map (closed ++ ·) := by
  have hid (x : Except ScriptFault (List Block)) : x = x.map ([] ++ ·) := by cases x <;> rfl
  cases position with
  | output =>
    by_cases hb : Text.allBlank line.toList
    · refine .inr ⟨.block "" [], [], fun rest => ?_⟩
      rw [readBlocks, if_pos hb]
      exact hid _
    · refine .inr ⟨.output, [], fun rest => ?_⟩
      rw [readBlocks, if_neg hb]
      exact hid _
  | block literal commands =>
    by_cases hs : line = separator
    · by_cases hc : commands = []
      · exact .inl ⟨_, fun rest => by rw [readBlocks, if_pos hs, if_pos hc]⟩
      · refine .inr ⟨.output, [⟨literal, commands⟩], fun rest => ?_⟩
        rw [readBlocks, if_pos hs, if_neg hc]
        rfl
    · by_cases hr : isRemark line
      · refine .inr ⟨.block (literal ++ line ++ "\n") commands, [], fun rest => ?_⟩
        rw [readBlocks, if_neg hs]
        simp only [if_pos hr]
        exact hid _
      · cases hp : parseCommand line number with
        | error fault =>
          refine .inl ⟨.invalidCommand number line fault, fun rest => ?_⟩
          rw [readBlocks, if_neg hs]
          simp only [if_neg hr, hp]
        | ok command =>
          refine .inr ⟨.block (literal ++ line ++ "\n") (commands ++ [command]), [], fun rest => ?_⟩
          rw [readBlocks, if_neg hs]
          simp only [if_neg hr, hp]
          exact hid _

theorem eq_nil_of_separator {line pad : List Char} (hp : Text.allBlank pad)
    (hs : String.ofList (line ++ pad) = separator) : pad = [] := by
  refine List.eq_nil_iff_forall_not_mem.mpr fun c hc => ?_
  have hdash : c ∈ separator.toList := by
    rw [← hs, String.toList_ofList]
    exact List.mem_append_right line hc
  have hall : separator.toList.all (fun d => !Text.isBlank d) = true := by decide
  have hvisible := List.all_eq_true.mp hall c hdash
  rw [List.all_eq_true.mp hp c hc] at hvisible
  cases hvisible

/-- The last line that is not blank, in a block or in output. -/
theorem readBlocks_trimmed_last {line pad : List Char} {c : Char} (hc : line.getLast? = some c)
    (hb : Text.isBlank c = false) (hp : Text.allBlank pad) {blanks : List String}
    (hblanks : ∀ line ∈ blanks, Text.allBlank line.toList = true) {number : Nat}
    {position : Position} {blocks : List Block}
    (h : readBlocks number position (String.ofList (line ++ pad) :: blanks) = .ok blocks) :
    ∃ blocks', readBlocks number position [String.ofList line] = .ok blocks' ∧
      SameButEnd blocks blocks' := by
  have hmem : c ∈ line := List.mem_of_getLast? hc
  cases position with
  | output =>
    have hvisible (rest : List Char) : ¬Text.allBlank (String.ofList (line ++ rest)).toList := by
      intro hall
      rw [String.toList_ofList, Text.allBlank, List.all_eq_true] at hall
      rw [hall c (List.mem_append_left rest hmem)] at hb
      cases hb
    have hv := hvisible []
    rw [List.append_nil] at hv
    rw [readBlocks, if_neg (hvisible pad)] at h
    exact ⟨[], by rw [readBlocks, if_neg hv, readBlocks], readBlocks_output_blanks hblanks h⟩
  | block literal commands =>
    by_cases hs : String.ofList (line ++ pad) = separator
    · obtain rfl := eq_nil_of_separator hp hs
      rw [List.append_nil] at hs h
      rw [hs, readBlocks, if_pos rfl] at h ⊢
      by_cases hcommands : commands = []
      · rw [if_pos hcommands] at h
        cases h
      · rw [if_neg hcommands] at h ⊢
        obtain ⟨more, hm, rfl⟩ := map_eq_ok_iff.mp h
        exact ⟨[⟨literal, commands⟩], rfl, .cons _ (readBlocks_output_blanks hblanks hm)⟩
    · rw [readBlocks, if_neg hs] at h
      by_cases hr : isRemark (String.ofList (line ++ pad))
      · have hr' : isRemark (String.ofList line) := (isRemark_append hc hb hp).symm.trans hr
        have hs' : String.ofList line ≠ separator := by
          intro he
          rw [he] at hr'
          exact absurd hr' (by decide)
        have hne (text : String) : literal ++ text ++ "\n" ≠ "" := by
          rw [Ne, ← String.toList_inj]
          simp
        simp only [if_pos hr] at h
        obtain ⟨rfl, ⟨-, hempty⟩ | rfl⟩ := readBlocks_blanks_eq_ok hblanks h
        · rw [String.append_eq_empty_iff] at hempty
          exact absurd hempty.1 (hne _)
        · refine ⟨[⟨literal ++ String.ofList line ++ "\n", []⟩], ?_, .trimmed ?_⟩
          · rw [readBlocks, if_neg hs']
            simp only [if_pos hr', readBlocks, ne_eq, not_true_eq_false, if_false, if_neg (hne _)]
          · have hpad : Text.allBlank (String.ofList pad).toList := by rwa [String.toList_ofList]
            rw [Text.trimBlankEnd_append_blank _ (allBlank_joinLines hblanks), Text.trimBlankEnd_feed,
              Text.trimBlankEnd_feed, String.ofList_append, ← String.append_assoc,
              Text.trimBlankEnd_append_blank _ hpad]
      · -- Commands would be pending at the end.
        simp only [if_neg hr] at h
        cases hcommand : parseCommand (String.ofList (line ++ pad)) number with
        | error fault =>
          rw [hcommand] at h
          cases h
        | ok command =>
          rw [hcommand] at h
          simpa using (readBlocks_blanks_eq_ok hblanks h).1

/-- **Blanks at the end of a script change no command and at most the end of the last block.**  The
script is given by its lines: those before the last line that is not blank, this line, the blanks
behind it and the blank lines. -/
theorem readBlocks_trimmed {line pad : List Char} {c : Char} (hc : line.getLast? = some c)
    (hb : Text.isBlank c = false) (hp : Text.allBlank pad) {blanks : List String}
    (hblanks : ∀ line ∈ blanks, Text.allBlank line.toList = true) {before : List String}
    {number : Nat} {position : Position} {blocks : List Block}
    (h : readBlocks number position (before ++ String.ofList (line ++ pad) :: blanks) = .ok blocks) :
    ∃ blocks', readBlocks number position (before ++ [String.ofList line]) = .ok blocks' ∧
      SameButEnd blocks blocks' := by
  induction before generalizing number position blocks with
  | nil => exact readBlocks_trimmed_last hc hb hp hblanks h
  | cons first before ih =>
    rcases readBlocks_cons number position first with ⟨fault, he⟩ | ⟨position', closed, hstep⟩
    · rw [List.cons_append, he] at h
      cases h
    · rw [List.cons_append, hstep] at h
      obtain ⟨more, hm, rfl⟩ := map_eq_ok_iff.mp h
      obtain ⟨more', hm', hsame⟩ := ih hm
      rw [List.cons_append, hstep, hm']
      exact ⟨closed ++ more', rfl, hsame.append closed⟩

/-! ### Replays of scripts without blanks at the end -/

theorem runBlocks_remarks (run : Runner σ) (literal : String) (s : σ) :
    (runBlocks run [⟨literal, []⟩] s).1 = .ok literal := by
  simp [runBlocks, runBlock, Except.map]

theorem trimBlankEnd_append_congr (text : String) {a b : String}
    (h : Text.trimBlankEnd a = Text.trimBlankEnd b) :
    Text.trimBlankEnd (text ++ a) = Text.trimBlankEnd (text ++ b) := by
  simp only [Text.trimBlankEnd, String.ofList_inj, String.toList_append] at h ⊢
  exact Text.trimEnd_append_congr h text.toList

theorem runBlocks_cons_eq_ok_iff {run : Runner σ} {block : Block} {rest : List Block} {s : σ}
    {output : String} :
    (runBlocks run (block :: rest) s).1 = .ok output ↔
      ∃ text s' more, runBlock run block s = (.ok text, s') ∧
        (runBlocks run rest s').1 = .ok more ∧ text ++ more = output := by
  rw [runBlocks]
  rcases runBlock run block s with ⟨fault | text, s'⟩
  · simp
  · simp [map_eq_ok_iff]

theorem runBlocks_sameButEnd {a b : List Block} (h : SameButEnd a b) (run : Runner σ) {s : σ}
    {output : String} (hr : (runBlocks run a s).1 = .ok output) :
    ∃ output', (runBlocks run b s).1 = .ok output' ∧
      Text.trimBlankEnd output = Text.trimBlankEnd output' := by
  induction h generalizing s output with
  | nil => exact ⟨output, hr, rfl⟩
  | dropped h =>
    rw [runBlocks_remarks] at hr
    exact ⟨"", rfl, by rw [← Except.ok.inj hr, h]; rfl⟩
  | @trimmed literal literal' h =>
    rw [runBlocks_remarks] at hr
    exact ⟨literal', by rw [runBlocks_remarks], by rw [← Except.ok.inj hr, h]⟩
  | @cons block a b _ ih =>
    obtain ⟨text, s', more, hblock, hmore, rfl⟩ := runBlocks_cons_eq_ok_iff.mp hr
    obtain ⟨more', hmore', htrim⟩ := ih hmore
    refine ⟨text ++ more', ?_, trimBlankEnd_append_congr text htrim⟩
    exact runBlocks_cons_eq_ok_iff.mpr ⟨text, s', more', hblock, hmore', rfl⟩

theorem generate_trimBlankEnd (run : Runner σ) {script : String}
    (hne : Text.trimBlankEnd script ≠ "") {s : σ} {output : String}
    (h : (generate run script s).1 = .ok output) :
    ∃ output', (generate run (Text.trimBlankEnd script ++ "\n") s).1 = .ok output' ∧
      Text.trimBlankEnd output = Text.trimBlankEnd output' := by
  obtain ⟨before, line, pad, blanks, c, hl, hl', hc, hb, hp, hblanks⟩ := Text.lines_trimBlankEnd hne
  obtain ⟨blocks, -, hparse, -, -⟩ := generate_eq_ok_iff.mp h
  rw [generate, hparse] at h
  rw [parse, hl] at hparse
  obtain ⟨blocks', hparse', hsame⟩ := readBlocks_trimmed hc hb hp hblanks hparse
  rw [← hl'] at hparse'
  rw [generate, show parse (Text.trimBlankEnd script ++ "\n") = .ok blocks' from hparse']
  exact runBlocks_sameButEnd hsame run h

/-! ### Files -/

/-- No block of the script quotes a carriage return before a line feed. -/
def PlainOn (script : String) : Prop :=
  ∀ blocks, parse script = .ok blocks → ∀ block ∈ blocks, ¬['\r', '\n'] <:+: block.literal.toList

theorem isLine_of_literalOf {body : List Line} (hfeed : ∀ l ∈ body, '\n' ∉ l.1.toList)
    (hplain : ¬['\r', '\n'] <:+: (literalOf body).toList) : ∀ l ∈ body, Text.IsLine l.1 := by
  intro l hl
  refine ⟨hfeed l hl, fun hlast => hplain ?_⟩
  obtain ⟨before, after, rfl⟩ := List.append_of_mem hl
  obtain ⟨init, hinit⟩ := List.getLast?_eq_some_iff.mp hlast
  refine ⟨(literalOf before).toList ++ init, (literalOf after).toList, ?_⟩
  simp [literalOf, hinit]

theorem isLine_of_plain {o : Outline} {blocks : List Block} (h : o.read = .ok blocks)
    (hfeed : ∀ l ∈ o.bodyLines, '\n' ∉ l.1.toList)
    (hplain : ∀ block ∈ blocks, ¬['\r', '\n'] <:+: block.literal.toList) :
    ∀ l ∈ o.bodyLines, Text.IsLine l.1 := by
  induction o generalizing blocks with
  | ending rest =>
    rcases Outline.read_ending_eq_ok_iff.mp h with ⟨rfl, -⟩ | ⟨-, block, rfl, hq, -⟩
    · exact fun l hl => absurd hl List.not_mem_nil
    · have hblock := hplain block List.mem_cons_self
      rw [hq.literal] at hblock
      exact isLine_of_literalOf hfeed hblock
  | block head next ih =>
    obtain ⟨first, more, hq, -, hm, rfl⟩ := Outline.read_block_eq_ok_iff.mp h
    rw [Outline.bodyLines, List.forall_mem_append] at hfeed ⊢
    obtain ⟨hfirst, hmore⟩ := List.forall_mem_cons.mp hplain
    rw [hq.literal] at hfirst
    exact ⟨isLine_of_literalOf hfeed.1 hfirst, ih hm hfeed.2 hmore⟩

theorem generate_output {run : Runner σ} (hsteady : run.Steady) {script : String}
    (hplain : PlainOn script) (htidy : run.TidyOn script) {s : σ} {output : String}
    (h : (generate run script s).1 = .ok output) (t : σ) :
    (generate run output t).1 = .ok output := by
  obtain ⟨o, hl, hr⟩ := exists_outline (numberedLines script)
  obtain ⟨blocks, -, hp, -, -⟩ := generate_eq_ok_iff.mp h
  have hlines : ∀ l ∈ o.bodyLines, Text.IsLine l.1 :=
    isLine_of_plain ((parse_eq_read hr hl).symm.trans hp) (fun l hm => (mem_bodyLines hl hm).1)
      (hplain blocks hp)
  obtain ⟨-, -, -, -, -, hfix⟩ := generate_again hsteady hl hr hlines htidy h
  exact hfix t

theorem generate_of_steady {run : Runner σ} (hsteady : run.Steady) {script : String} {s : σ}
    {output : String} (h : (generate run script s).1 = .ok output) (t : σ) :
    (generate run script t).1 = .ok output := by
  obtain ⟨blocks, -, hp, -, -⟩ := generate_eq_ok_iff.mp h
  exact generate_of_unnumbered hsteady hp hp rfl h t

theorem checkFile_passes {run : Runner σ} {script output : String} {s : σ}
    (h : (generate run script s).1 = .ok output)
    (ht : Text.trimBlankEnd output = Text.trimBlankEnd script) (path : String) (update : Bool) :
    (checkFile run path update script s).1 = .ok none := by
  cases hg : generate run script s with
  | mk outcome s' =>
    rw [hg] at h
    obtain rfl : outcome = .ok output := h
    rw [checkFile, hg]
    simp only [if_pos ht]

theorem checkFile_update_cases {run : Runner σ} {path script : String} {s : σ}
    {new : Option String} (h : (checkFile run path true script s).1 = .ok new) :
    ∃ output, (generate run script s).1 = .ok output ∧
      (new = none ∧ Text.trimBlankEnd output = Text.trimBlankEnd script ∨
        new = some (Text.trimBlankEnd output ++ "\n")) := by
  cases hg : generate run script s with
  | mk outcome s' =>
    rw [checkFile, hg] at h
    cases outcome with
    | error fault => cases h
    | ok output =>
      refine ⟨output, rfl, ?_⟩
      simp only at h
      split at h
      · rename_i ht
        exact .inl ⟨(Except.ok.inj h).symm, ht⟩
      · exact .inr (Except.ok.inj h).symm

/-- **A file that has been brought up to date passes**, for a steady runner and a script that is
plain and tidy: the next check finds the output that is in the file and leaves the file alone. -/
theorem checkFile_after_update {run : Runner σ} (hsteady : run.Steady) {script : String}
    (hplain : PlainOn script) (htidy : run.TidyOn script) {path : String} {s : σ}
    {new : Option String} (h : (checkFile run path true script s).1 = .ok new) (t : σ) :
    (checkFile run path false (new.getD script) t).1 = .ok none := by
  obtain ⟨output, hg, ⟨rfl, ht⟩ | rfl⟩ := checkFile_update_cases h
  · exact checkFile_passes (generate_of_steady hsteady hg t) ht path false
  · by_cases hempty : Text.trimBlankEnd output = ""
    · rw [hempty]
      exact checkFile_passes (show (generate run "\n" t).1 = .ok "\n" from rfl) rfl path false
    · obtain ⟨output', hg', ht⟩ :=
        generate_trimBlankEnd run hempty (generate_output hsteady hplain htidy hg t)
      refine checkFile_passes hg' ?_ path false
      rw [← ht]
      simp only [Text.trimBlankEnd_feed, trimBlankEnd_trimBlankEnd]

/-- **A script of commands on values passes after it has been brought up to date**, if no text of its
commands has a blank line and no line of its blocks ends with a carriage return. -/
theorem interpreter_passes_after_update {script : String} (hplain : PlainOn script)
    (htidy : interpreter.TidyOn script) {path : String} {new : Option String}
    (h : (checkFile interpreter path true script ()).1 = .ok new) :
    (checkFile interpreter path false (new.getD script) ()).1 = .ok none :=
  checkFile_after_update interpreter_steady hplain htidy h ()

/-- A text of two lines in an output that was stale, and blanks behind the last comment. -/
def staleScript : String :=
  "decode text 03000000610a62\n---\nstale\n\n# end \t\n\n"

def freshScript : String :=
  "decode text 03000000610a62\n---\nText a\nb\n\n# end\n"

theorem plainOn_staleScript : PlainOn staleScript := by
  have hp : (parse staleScript).map (·.map (·.literal)) =
      .ok ["decode text 03000000610a62\n", "# end \t\n\n"] := by decide +kernel
  intro blocks hb block hm
  rw [hb] at hp
  have hliterals : blocks.map (·.literal) = ["decode text 03000000610a62\n", "# end \t\n\n"] :=
    Except.ok.inj hp
  have hmem : block.literal ∈ blocks.map (·.literal) := List.mem_map_of_mem hm
  have hall : ∀ literal ∈ blocks.map (·.literal), ¬['\r', '\n'] <:+: literal.toList := by
    rw [hliterals]
    decide +kernel
  exact hall block.literal hmem

theorem interpreter_passes_after_update_staleScript :
    PlainOn staleScript ∧ interpreter.TidyOn staleScript ∧
      (checkFile interpreter "stale" true staleScript ()).1 = .ok (some freshScript) ∧
      (checkFile interpreter "stale" false freshScript ()).1 = .ok none := by
  have htidy : interpreter.TidyOn staleScript :=
    @interpreter_tidyOn staleScript
      [⟨"decode", [⟨none, "text"⟩, ⟨none, "03000000610a62"⟩], false, 1⟩] (by decide +kernel)
      (by decide +kernel)
  have hupdate : (checkFile interpreter "stale" true staleScript ()).1 = .ok (some freshScript) := by
    decide +kernel
  have hpasses := interpreter_passes_after_update plainOn_staleScript htidy hupdate
  rw [Option.getD_some] at hpasses
  exact ⟨plainOn_staleScript, htidy, hupdate, hpasses⟩

/-- A text with a blank line breaks its output in two: what follows the blank line is read as a
comment, and a replay writes it once more. -/
theorem blank_line_differs_after_update :
    (checkFile interpreter "blank" true "decode text 06000000610a0a232062\n---\n" ()).1 =
      .ok (some "decode text 06000000610a0a232062\n---\nText a\n\n# b\n") ∧
    (checkFile interpreter "blank" false
      "decode text 06000000610a0a232062\n---\nText a\n\n# b\n" ()).1 =
      .error (.outputDiffers "blank" 6 "" ""
        "decode text 06000000610a0a232062\n---\nText a\n\n# b\n\n# b\n") := by
  constructor <;> decide +kernel

/-- Of two carriage returns before a line feed, one is left after each time the line is written. -/
theorem carriage_return_differs_after_update :
    (checkFile interpreter "return" true "# a\r\r\n# b\n" ()).1 = .ok (some "# a\r\n# b\n") ∧
    (checkFile interpreter "return" false "# a\r\n# b\n" ()).1 =
      .error (.outputDiffers "return" 3 "" "" "# a\n# b\n") := by
  constructor <;> decide +kernel

end Datum.Script
