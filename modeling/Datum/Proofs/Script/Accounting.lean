import Datum.Proofs.Script.Outline
import Datum.Proofs.Script.Spelling

/-!
# Every line of a script is accounted for

A block quotes its lines and has one command for each of them that is neither blank nor a comment
(`Quotes`).  Reading an outline yields such a block for every section and, if lines follow the last
section, one more without commands (`Outline.read_eq_ok_iff`).  It fails in three cases, which are
seen from the outline (`Outline.read_fails_iff`).  Both are put together for scripts in
`parse_accounts_for_every_line`.
-/

namespace Datum.Script

/-! ### Commands on lines -/

/-- The lines that are neither blank nor comments. -/
def commandLines (body : List Line) : List Line :=
  body.filter fun l => !isRemark l.1

theorem commandLines_eq_nil_iff {body : List Line} :
    commandLines body = [] ↔ ∀ l ∈ body, isRemark l.1 := by
  simp [commandLines]

theorem readCommands_cons_remark {line : String} (h : isRemark line) (number : Nat)
    (rest : List Line) : readCommands ((line, number) :: rest) = readCommands rest := by
  rw [readCommands, if_pos h]

theorem commandLines_cons_remark {line : String} (h : isRemark line) (number : Nat)
    (rest : List Line) : commandLines ((line, number) :: rest) = commandLines rest :=
  List.filter_cons_of_neg (by simp [h])

theorem commandLines_cons {line : String} (h : ¬isRemark line) (number : Nat) (rest : List Line) :
    commandLines ((line, number) :: rest) = (line, number) :: commandLines rest :=
  List.filter_cons_of_pos (by simp [h])

theorem readCommands_cons_eq_ok_iff {line : String} (h : ¬isRemark line) {number : Nat}
    {rest : List Line} {commands : List Command} :
    readCommands ((line, number) :: rest) = .ok commands ↔
      ∃ command more, parseCommand line number = .ok command ∧ readCommands rest = .ok more ∧
        commands = command :: more := by
  rw [readCommands, if_neg h]
  cases parseCommand line number with
  | error fault => simp
  | ok command => simp [map_eq_ok_iff, @eq_comm _ commands]

theorem readCommands_eq_ok_iff {body : List Line} {commands : List Command} :
    readCommands body = .ok commands ↔
      List.Forall₂ (fun l command => parseCommand l.1 l.2 = .ok command) (commandLines body)
        commands := by
  induction body generalizing commands with
  | nil =>
    rw [readCommands, commandLines, List.filter_nil, List.forall₂_nil_left_iff]
    exact ⟨fun h => (Except.ok.inj h).symm, fun h => congrArg Except.ok h.symm⟩
  | cons l body ih =>
    obtain ⟨line, number⟩ := l
    by_cases hr : isRemark line
    · rw [readCommands_cons_remark hr, commandLines_cons_remark hr, ih]
    · rw [readCommands_cons_eq_ok_iff hr, commandLines_cons hr, List.forall₂_cons_left_iff]
      simp only [ih]

theorem readCommands_succeeds_iff {body : List Line} :
    (∃ commands, readCommands body = .ok commands) ↔
      ∀ l ∈ commandLines body, ∃ command, parseCommand l.1 l.2 = .ok command := by
  simp only [readCommands_eq_ok_iff]
  induction commandLines body with
  | nil => simp
  | cons l rest ih =>
    rw [List.forall_mem_cons, ← ih]
    constructor
    · rintro ⟨_, h⟩
      obtain ⟨command, commands, hc, hr, -⟩ := List.forall₂_cons_left_iff.mp h
      exact ⟨⟨command, hc⟩, commands, hr⟩
    · rintro ⟨⟨command, hc⟩, commands, hr⟩
      exact ⟨command :: commands, .cons hc hr⟩

theorem readCommands_eq_nil_iff {body : List Line} {commands : List Command}
    (h : readCommands body = .ok commands) : commands = [] ↔ ∀ l ∈ body, isRemark l.1 := by
  rw [readCommands_eq_ok_iff] at h
  rw [← commandLines_eq_nil_iff, ← List.length_eq_zero_iff, ← h.length_eq,
    List.length_eq_zero_iff]

/-! ### Blocks and outlines -/

/-- The block quotes these lines and has, in order, the commands on them, each with the number of
its line. -/
structure Quotes (body : List Line) (block : Block) : Prop where
  literal : block.literal = literalOf body
  commands : List.Forall₂
    (fun l command => parseCommand l.1 l.2 = .ok command ∧ command.line = l.2)
    (commandLines body) block.commands

theorem quotes_iff {body : List Line} {block : Block} :
    Quotes body block ↔
      ∃ commands, readCommands body = .ok commands ∧ block = ⟨literalOf body, commands⟩ := by
  constructor
  · rintro ⟨hl, hc⟩
    exact ⟨block.commands, readCommands_eq_ok_iff.mpr (hc.imp fun _ _ h => h.1), by rw [← hl]⟩
  · rintro ⟨commands, hc, rfl⟩
    exact ⟨rfl, (readCommands_eq_ok_iff.mp hc).imp fun _ _ h => ⟨h, line_of_parseCommand h⟩⟩

theorem exists_quotes_iff {body : List Line} :
    (∃ block, Quotes body block ∧ block.commands ≠ []) ↔
      (∃ l ∈ body, ¬isRemark l.1) ∧
      ∀ l ∈ commandLines body, ∃ command, parseCommand l.1 l.2 = .ok command := by
  rw [← readCommands_succeeds_iff]
  constructor
  · rintro ⟨block, hq, hne⟩
    obtain ⟨commands, hc, rfl⟩ := quotes_iff.mp hq
    refine ⟨?_, commands, hc⟩
    by_contra hr
    push Not at hr
    exact hne ((readCommands_eq_nil_iff hc).mpr hr)
  · rintro ⟨⟨l, hl, hr⟩, commands, hc⟩
    refine ⟨_, quotes_iff.mpr ⟨commands, hc, rfl⟩, fun hnil => hr ?_⟩
    exact (readCommands_eq_nil_iff hc).mp hnil l hl

theorem Quotes.map_line {body : List Line} {block : Block} (h : Quotes body block) :
    block.commands.map (·.line) = (commandLines body).map (·.2) := by
  obtain ⟨-, h⟩ := h
  generalize commandLines body = kept, block.commands = commands at h ⊢
  induction h with
  | nil => rfl
  | cons hl _ ih => rw [List.map_cons, List.map_cons, ih, hl.2]

namespace Outline

/-- The lines of the blocks, without separators and output. -/
def bodyLines : Outline → List Line
  | ending rest => rest
  | block head next => head.body ++ next.bodyLines

theorem bodyLines_subset (o : Outline) : o.bodyLines ⊆ o.lines := by
  induction o with
  | ending rest => exact List.Subset.refl rest
  | block head next ih =>
    rw [bodyLines, lines, Section.lines]
    refine List.append_subset.mpr ⟨fun l hl => ?_, fun l hl => List.mem_append_right _ (ih hl)⟩
    exact List.mem_append_left _ (List.mem_append_left _ hl)

/-- The blocks of the lines behind the last section: one without commands, if there are any. -/
def EndsWith (rest : List Line) (last : List Block) : Prop :=
  rest = [] ∧ last = [] ∨
  rest ≠ [] ∧ ∃ block, last = [block] ∧ Quotes rest block ∧ block.commands = []

theorem read_ending_eq_ok_iff {rest : List Line} {blocks : List Block} :
    (ending rest).read = .ok blocks ↔ EndsWith rest blocks := by
  rw [read, EndsWith]
  by_cases hrest : rest = []
  · subst hrest
    simp [readCommands, eq_comm]
  · simp only [hrest, false_and, false_or, ne_eq, not_false_eq_true, true_and, quotes_iff]
    cases readCommands rest with
    | error fault => simp
    | ok commands =>
      cases commands with
      | nil => simp [eq_comm]
      | cons command commands => simp

theorem read_block_eq_ok_iff {head : Section} {next : Outline} {blocks : List Block} :
    (Outline.block head next).read = .ok blocks ↔
      ∃ first more, Quotes head.body first ∧ first.commands ≠ [] ∧ next.read = .ok more ∧
        blocks = first :: more := by
  simp only [read, quotes_iff]
  cases readCommands head.body with
  | error fault => simp
  | ok commands =>
    cases commands with
    | nil => simp
    | cons command commands =>
      cases next.read with
      | error fault => simp [Except.map]
      | ok more => simp [Except.map, eq_comm]

/-- **An outline yields a block with commands for each section and one without for the rest.** -/
theorem read_eq_ok_iff {o : Outline} {blocks : List Block} :
    o.read = .ok blocks ↔ ∃ closed last, blocks = closed ++ last ∧
      List.Forall₂ (fun s block => Quotes s.body block ∧ block.commands ≠ []) o.sections closed ∧
      EndsWith o.rest last := by
  induction o generalizing blocks with
  | ending rest =>
    rw [read_ending_eq_ok_iff]
    simp only [sections, List.forall₂_nil_left_iff]
    constructor
    · exact fun h => ⟨[], blocks, rfl, rfl, h⟩
    · rintro ⟨closed, last, rfl, rfl, h⟩
      exact h
  | block head next ih =>
    rw [read_block_eq_ok_iff]
    simp only [sections, List.forall₂_cons_left_iff, ih]
    constructor
    · rintro ⟨first, more, hq, hc, ⟨closed, last, rfl, hclosed, hlast⟩, rfl⟩
      exact ⟨first :: closed, last, rfl, ⟨first, closed, ⟨hq, hc⟩, hclosed, rfl⟩, hlast⟩
    · rintro ⟨_, last, rfl, ⟨first, closed, ⟨hq, hc⟩, hclosed, rfl⟩, hlast⟩
      exact ⟨first, closed ++ last, hq, hc, ⟨closed, last, rfl, hclosed, hlast⟩, rfl⟩

theorem read_succeeds_iff {o : Outline} :
    (∃ blocks, o.read = .ok blocks) ↔
      (∀ s ∈ o.sections, ∃ l ∈ s.body, ¬isRemark l.1) ∧
      (∀ l ∈ commandLines o.bodyLines, ∃ command, parseCommand l.1 l.2 = .ok command) ∧
      ∀ l ∈ o.rest, isRemark l.1 := by
  induction o with
  | ending rest =>
    simp only [read_ending_eq_ok_iff, EndsWith, sections, bodyLines, Outline.rest,
      List.not_mem_nil, false_implies, implies_true, true_and]
    constructor
    · rintro ⟨_, ⟨rfl, rfl⟩ | ⟨-, block, rfl, hq, hnil⟩⟩
      · exact ⟨fun _ hl => absurd hl List.not_mem_nil, fun _ hl => absurd hl List.not_mem_nil⟩
      · obtain ⟨commands, hc, rfl⟩ := quotes_iff.mp hq
        exact ⟨readCommands_succeeds_iff.mp ⟨commands, hc⟩, (readCommands_eq_nil_iff hc).mp hnil⟩
    · rintro ⟨hc, hr⟩
      obtain ⟨commands, hc⟩ := readCommands_succeeds_iff.mpr hc
      by_cases hrest : rest = []
      · exact ⟨[], .inl ⟨hrest, rfl⟩⟩
      · exact ⟨_, .inr ⟨hrest, _, rfl, quotes_iff.mpr ⟨commands, hc, rfl⟩,
          (readCommands_eq_nil_iff hc).mpr hr⟩⟩
  | block head next ih =>
    have hsplit : (∃ blocks, (Outline.block head next).read = .ok blocks) ↔
        (∃ first, Quotes head.body first ∧ first.commands ≠ []) ∧
          ∃ more, next.read = .ok more := by
      simp only [read_block_eq_ok_iff]
      constructor
      · rintro ⟨_, first, more, hq, hne, hm, -⟩
        exact ⟨⟨first, hq, hne⟩, more, hm⟩
      · rintro ⟨⟨first, hq, hne⟩, more, hm⟩
        exact ⟨_, first, more, hq, hne, hm, rfl⟩
    rw [hsplit, exists_quotes_iff, ih, and_and_and_comm]
    simp only [sections, bodyLines, Outline.rest, List.forall_mem_cons, commandLines,
      List.filter_append, List.forall_mem_append, and_assoc]

/-- **An outline is refused for a section without commands, for a line that is no command, or for
commands behind the last section.** -/
theorem read_fails_iff {o : Outline} :
    (∃ fault, o.read = .error fault) ↔
      (∃ s ∈ o.sections, ∀ l ∈ s.body, isRemark l.1) ∨
      (∃ l ∈ commandLines o.bodyLines, ∃ fault, parseCommand l.1 l.2 = .error fault) ∨
      ∃ l ∈ o.rest, ¬isRemark l.1 := by
  rw [fails_iff, read_succeeds_iff, not_and_or, not_and_or]
  simp only [not_forall, exists_prop, not_exists, not_and, not_not, fails_iff]

/-- The blocks quote all lines of the outline that are neither separators nor output. -/
theorem join_literal {o : Outline} {blocks : List Block} (h : o.read = .ok blocks) :
    String.join (blocks.map (·.literal)) = literalOf o.bodyLines := by
  induction o generalizing blocks with
  | ending rest =>
    rcases read_ending_eq_ok_iff.mp h with ⟨rfl, rfl⟩ | ⟨-, block, rfl, hq, -⟩
    · rfl
    · simpa [bodyLines] using hq.literal
  | block head next ih =>
    obtain ⟨first, more, hq, -, hm, rfl⟩ := read_block_eq_ok_iff.mp h
    rw [List.map_cons, String.join_cons, ih hm, hq.literal, bodyLines, literalOf, literalOf,
      literalOf, List.map_append, Text.joinLines_append]

/-- The numbers of the commands are those of their lines, in order. -/
theorem map_line_sublist {o : Outline} {blocks : List Block} (h : o.read = .ok blocks) :
    ((blocks.flatMap (·.commands)).map (·.line)).Sublist (o.lines.map (·.2)) := by
  have hquote {body : List Line} {block : Block} (hq : Quotes body block) :
      (block.commands.map (·.line)).Sublist (body.map (·.2)) := by
    rw [hq.map_line]
    exact List.filter_sublist.map _
  induction o generalizing blocks with
  | ending rest =>
    rcases read_ending_eq_ok_iff.mp h with ⟨rfl, rfl⟩ | ⟨-, block, rfl, hq, -⟩
    · exact List.Sublist.refl _
    · simpa [lines] using hquote hq
  | block head next ih =>
    obtain ⟨first, more, hq, -, hm, rfl⟩ := read_block_eq_ok_iff.mp h
    simp only [List.flatMap_cons, List.map_append, lines, Section.lines, List.map_cons,
      List.append_assoc, List.cons_append]
    refine (hquote hq).append (.cons _ ?_)
    exact (ih hm).trans (List.sublist_append_right _ _)

end Outline

/-! ### Scripts -/

theorem pairwise_number (ls : List String) (number : Nat) :
    ((ls.zipIdx number).map (·.2)).Pairwise (· < ·) := by
  rw [List.zipIdx_map_snd]
  exact List.pairwise_lt_range'

/-- **The lines of a script are those of its blocks, separators and output, and nothing else.**  A
script has exactly one outline.  If it is read, every section has become a block with commands,
the rest has become one without, every command stands for one line and has its number, and the
numbers increase.  It is refused exactly for a section without commands, a line that is no command
and commands behind the last section. -/
theorem parse_accounts_for_every_line (script : String) :
    ∃ o : Outline, o.lines = numberedLines script ∧ o.Regular ∧
      (∀ o' : Outline, o'.lines = numberedLines script → o'.Regular → o' = o) ∧
      (∀ blocks, parse script = .ok blocks ↔ ∃ closed last, blocks = closed ++ last ∧
        List.Forall₂ (fun s block => Quotes s.body block ∧ block.commands ≠ []) o.sections closed ∧
        (o.rest = [] ∧ last = [] ∨ o.rest ≠ [] ∧ ∃ block, last = [block] ∧ Quotes o.rest block ∧
          block.commands = [])) ∧
      (∀ blocks, parse script = .ok blocks →
        String.join (blocks.map (·.literal)) = literalOf o.bodyLines ∧
        ((blocks.flatMap (·.commands)).map (·.line)).Pairwise (· < ·)) ∧
      ((∃ fault, parse script = .error fault) ↔
        (∃ s ∈ o.sections, ∀ l ∈ s.body, isRemark l.1) ∨
        (∃ l ∈ commandLines o.bodyLines, ∃ fault, parseCommand l.1 l.2 = .error fault) ∨
        ∃ l ∈ o.rest, ¬isRemark l.1) := by
  obtain ⟨o, hl, hr⟩ := exists_outline (numberedLines script)
  rw [parse_eq_read hr hl]
  refine ⟨o, hl, hr, ?_, ?_, ?_, Outline.read_fails_iff⟩
  · exact fun o' hl' hr' => Outline.ext_of_regular hr' hr (hl'.trans hl.symm)
  · exact fun blocks => Outline.read_eq_ok_iff
  · intro blocks h
    refine ⟨Outline.join_literal h, List.Pairwise.sublist (Outline.map_line_sublist h) ?_⟩
    rw [hl]
    exact pairwise_number _ _

/-- Comments and blank lines are quoted and counted, but they are no commands. -/
example : parse "# a\n \t\nb\n---\nold\n\n  # c\n" =
    .ok [⟨"# a\n \t\nb\n", [⟨"b", [], false, 3⟩]⟩, ⟨"  # c\n", []⟩] := by
  decide +kernel

end Datum.Script
