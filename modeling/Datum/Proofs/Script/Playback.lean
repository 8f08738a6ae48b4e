import Datum.Proofs.Outcome
import Datum.Script.Replay

/-!
# Which commands a replay runs

Given all commands of a script one after the other, a runner has an answer to each
(`Runner.answers`).  A replay depends on the runner through these answers alone: it gives commands to
the runner up to the first surprise, and writes the script with the texts of the answers if there is
none (`runBlocks_eq`).  So the commands that were run can be told, with or without a result
(`generate_runs_in_order`).
-/

namespace Datum.Script

variable {σ : Type}

/-! ### Answers -/

abbrev Answer := Command × Except RunFault String

/-- The answers to commands that are given one after the other, whatever the answers are. -/
def Runner.answers (run : Runner σ) : List Command → σ → List Answer
  | [], _ => []
  | command :: rest, s => (command, (run command s).1) :: answers run rest (run command s).2

def Runner.after (run : Runner σ) (commands : List Command) (s : σ) : σ :=
  commands.foldl (fun s command => (run command s).2) s

@[simp] theorem Runner.after_nil (run : Runner σ) (s : σ) : run.after [] s = s := rfl

@[simp] theorem Runner.after_cons (run : Runner σ) (command : Command) (rest : List Command)
    (s : σ) : run.after (command :: rest) s = run.after rest (run command s).2 := rfl

theorem Runner.map_answers (run : Runner σ) (commands : List Command) (s : σ) :
    (run.answers commands s).map (·.1) = commands := by
  induction commands generalizing s with
  | nil => rfl
  | cons command rest ih => rw [answers, List.map_cons, ih]

theorem Runner.answers_append (run : Runner σ) (a b : List Command) (s : σ) :
    run.answers (a ++ b) s = run.answers a s ++ run.answers b (run.after a s) := by
  induction a generalizing s with
  | nil => rfl
  | cons command a ih => rw [List.cons_append, answers, answers, ih]; rfl

theorem Runner.after_append (run : Runner σ) (a b : List Command) (s : σ) :
    run.after (a ++ b) s = run.after b (run.after a s) :=
  List.foldl_append

theorem Runner.answers_noting (run : Runner σ) (commands seen : List Command) (s : σ) :
    run.noting.answers commands (s, seen) = run.answers commands s := by
  induction commands generalizing s seen with
  | nil => rfl
  | cons command rest ih =>
    rw [answers, answers]
    exact congrArg ((command, (run command s).1) :: ·) (ih (command :: seen) _)

theorem Runner.after_noting (run : Runner σ) (commands seen : List Command) (s : σ) :
    run.noting.after commands (s, seen) = (run.after commands s, commands.reverse ++ seen) := by
  induction commands generalizing s seen with
  | nil => rfl
  | cons command rest ih =>
    rw [after_cons, after_cons, List.reverse_cons, List.append_assoc]
    exact ih (command :: seen) _

def Expected (command : Command) : Except RunFault String → Prop
  | .ok _ => command.fail = false
  | .error (.failed _) => command.fail = true
  | .error .crashed => False

def shownText : Except RunFault String → String
  | .ok text => text
  | .error (.failed message) => "Error: " ++ message
  | .error .crashed => ""

def surprise (command : Command) : Except RunFault String → ReplayFault
  | .ok text => .unexpectedSuccess command text
  | .error (.failed message) => .commandFailed command message
  | .error .crashed => .crashed

theorem outcomeText_of_expected {command : Command} {outcome : Except RunFault String}
    (h : Expected command outcome) : outcomeText command outcome = .ok (shownText outcome) := by
  match outcome, h with
  | .ok text, h => simp [outcomeText, shownText, show command.fail = false from h]
  | .error (.failed message), h => simp [outcomeText, shownText, show command.fail = true from h]

theorem outcomeText_of_not_expected {command : Command} {outcome : Except RunFault String}
    (h : ¬Expected command outcome) :
    outcomeText command outcome = .error (surprise command outcome) := by
  match outcome with
  | .ok text => simp_all [outcomeText, surprise, Expected]
  | .error (.failed message) => simp_all [outcomeText, surprise, Expected]
  | .error .crashed => rfl

/-- **A surprise is reported with the line and the name of its command.** -/
theorem message_surprise (command : Command) {outcome : Except RunFault String}
    (h : outcome ≠ .error .crashed) :
    ∃ what, (surprise command outcome).message =
      s!"line {command.line}: '{command.name}' " ++ what := by
  match outcome with
  | .ok text =>
    refine ⟨"was expected to fail, got: " ++ Text.trimBlankEnd text, ?_⟩
    rw [← String.toList_inj]
    simp [surprise, ReplayFault.message, toString]
  | .error (.failed message) =>
    refine ⟨"failed: " ++ message, ?_⟩
    rw [← String.toList_inj]
    simp [surprise, ReplayFault.message, toString]

/-! ### Texts and commands up to a surprise -/

/-- The texts of answers that are all expected, or what is said about the first surprise. -/
def texts : List Answer → Except ReplayFault (List String)
  | [] => .ok []
  | (command, outcome) :: rest =>
    match outcomeText command outcome with
    | .error fault => .error fault
    | .ok text => (texts rest).map (text :: ·)

/-- The commands up to and with the first surprise. -/
def given : List Answer → List Command
  | [] => []
  | (command, outcome) :: rest =>
    match outcomeText command outcome with
    | .error _ => [command]
    | .ok _ => command :: given rest

theorem texts_cons_eq_ok_iff {command : Command} {outcome : Except RunFault String}
    {rest : List Answer} {shown : List String} :
    texts ((command, outcome) :: rest) = .ok shown ↔
      ∃ text more, outcomeText command outcome = .ok text ∧ texts rest = .ok more ∧
        text :: more = shown := by
  rw [texts]
  cases outcomeText command outcome with
  | error fault => simp
  | ok text => simp [map_eq_ok_iff]

theorem given_append_of_ok {a : List Answer} {shown : List String} (h : texts a = .ok shown)
    (b : List Answer) : given (a ++ b) = a.map (·.1) ++ given b := by
  induction a generalizing shown with
  | nil => rfl
  | cons answer a ih =>
    obtain ⟨command, outcome⟩ := answer
    obtain ⟨text, more, ho, ha, -⟩ := texts_cons_eq_ok_iff.mp h
    rw [List.cons_append, given, ho]
    exact congrArg (command :: ·) (ih ha)

theorem given_append_of_error {a : List Answer} {fault : ReplayFault} (h : texts a = .error fault)
    (b : List Answer) : given (a ++ b) = given a := by
  induction a with
  | nil => cases h
  | cons answer a ih =>
    obtain ⟨command, outcome⟩ := answer
    rw [texts] at h
    rw [List.cons_append, given, given]
    cases ho : outcomeText command outcome with
    | error fault => rfl
    | ok text =>
      rw [ho] at h
      exact congrArg (command :: ·) (ih (eq_error_of_map h))

theorem texts_append (a b : List Answer) :
    texts (a ++ b) = texts a >>= fun shown => (texts b).map (shown ++ ·) := by
  induction a with
  | nil =>
    rw [List.nil_append, texts, ok_bind]
    cases texts b <;> rfl
  | cons answer a ih =>
    obtain ⟨command, outcome⟩ := answer
    rw [List.cons_append, texts, texts]
    cases outcomeText command outcome with
    | error fault => rfl
    | ok text =>
      simp only [ih]
      cases texts a with
      | error fault => rfl
      | ok shown => cases texts b <;> rfl

theorem texts_cases (a : List Answer) :
    (∀ x ∈ a, Expected x.1 x.2) ∧ texts a = .ok (a.map fun x => shownText x.2) ∧
      given a = a.map (·.1) ∨
    ∃ before command outcome after, a = before ++ (command, outcome) :: after ∧
      (∀ x ∈ before, Expected x.1 x.2) ∧ ¬Expected command outcome ∧
      texts a = .error (surprise command outcome) ∧ given a = before.map (·.1) ++ [command] := by
  induction a with
  | nil => exact .inl ⟨fun _ h => absurd h List.not_mem_nil, rfl, rfl⟩
  | cons answer a ih =>
    obtain ⟨command, outcome⟩ := answer
    by_cases he : Expected command outcome
    · have ho := outcomeText_of_expected he
      rcases ih with ⟨hall, ht, hg⟩ | ⟨before, command', outcome', after, rfl, hall, hn, ht, hg⟩
      · refine .inl ⟨List.forall_mem_cons.mpr ⟨he, hall⟩, ?_, ?_⟩
        · simp only [texts, ho, ht, Except.map, List.map_cons]
        · simp only [given, ho, hg, List.map_cons]
      · refine .inr ⟨(command, outcome) :: before, command', outcome', after, rfl,
          List.forall_mem_cons.mpr ⟨he, hall⟩, hn, ?_, ?_⟩
        · simp only [texts, ho, ht, Except.map]
        · simp only [given, ho, hg, List.map_cons, List.cons_append]
    · have ho := outcomeText_of_not_expected he
      refine .inr ⟨[], command, outcome, a, rfl, fun _ h => absurd h List.not_mem_nil, he, ?_, ?_⟩
      · simp only [texts, ho]
      · simp only [given, ho, List.map_nil, List.nil_append]

theorem texts_eq_ok {a : List Answer} {shown : List String} (h : texts a = .ok shown) :
    (∀ x ∈ a, Expected x.1 x.2) ∧ shown = a.map (fun x => shownText x.2) ∧
      given a = a.map (·.1) := by
  rcases texts_cases a with ⟨he, ht, hg⟩ | ⟨_, _, _, _, _, _, _, ht, _⟩
  · rw [ht] at h
    exact ⟨he, (Except.ok.inj h).symm, hg⟩
  · rw [ht] at h
    cases h

/-! ### Replaying -/

def Block.render (block : Block) (shown : List String) : String :=
  if block.commands = [] then block.literal
  else block.literal ++ separator ++ "\n" ++ String.join (shown.map endLine) ++ "\n"

def renderBlocks : List Block → List String → String
  | [], _ => ""
  | block :: rest, shown =>
    block.render (shown.take block.commands.length) ++
      renderBlocks rest (shown.drop block.commands.length)

def allCommands (blocks : List Block) : List Command :=
  blocks.flatMap (·.commands)

theorem allCommands_cons (block : Block) (rest : List Block) :
    allCommands (block :: rest) = block.commands ++ allCommands rest := rfl

theorem runCommands_eq (run : Runner σ) (commands : List Command) (s : σ) :
    runCommands run commands s =
      ((texts (run.answers commands s)).map fun shown => String.join (shown.map endLine),
        run.after (given (run.answers commands s)) s) := by
  induction commands generalizing s with
  | nil => rfl
  | cons command rest ih =>
    rw [runCommands, Runner.answers, texts, given]
    rcases hr : run command s with ⟨outcome, s'⟩
    cases ho : outcomeText command outcome with
    | error fault => simp only [ho, Except.map, Runner.after_cons, Runner.after_nil, hr]
    | ok text =>
      simp only [ho, ih, Runner.after_cons, hr]
      cases texts (run.answers rest s') with
      | error fault => rfl
      | ok shown => simp [Except.map]

theorem runBlock_eq (run : Runner σ) (block : Block) (s : σ) :
    runBlock run block s =
      ((texts (run.answers block.commands s)).map block.render,
        run.after (given (run.answers block.commands s)) s) := by
  rw [runBlock]
  split
  · rename_i h
    rw [h]
    simp only [Runner.answers, texts, Except.map, Block.render, h, if_pos, given, Runner.after_nil]
  · rename_i h
    simp only [runCommands_eq]
    cases texts (run.answers block.commands s) with
    | error fault => rfl
    | ok shown => simp only [Except.map, Block.render, if_neg h]

/-- **A replay is told by the answers of the runner**: its result by the texts, and the state it
leaves by the commands up to a surprise. -/
theorem runBlocks_eq (run : Runner σ) (blocks : List Block) (s : σ) :
    runBlocks run blocks s =
      ((texts (run.answers (allCommands blocks) s)).map (renderBlocks blocks),
        run.after (given (run.answers (allCommands blocks) s)) s) := by
  induction blocks generalizing s with
  | nil => rfl
  | cons block rest ih =>
    rw [runBlocks, runBlock_eq, allCommands_cons, Runner.answers_append, texts_append]
    cases ha : texts (run.answers block.commands s) with
    | error fault =>
      rw [given_append_of_error ha]
      rfl
    | ok shown =>
      obtain ⟨-, hshown, hgiven⟩ := texts_eq_ok ha
      have hlen : shown.length = block.commands.length := by
        rw [hshown, List.length_map, ← List.length_map (·.1), Runner.map_answers]
      rw [Runner.map_answers] at hgiven
      rw [given_append_of_ok ha, Runner.map_answers, Runner.after_append]
      simp only [Except.map, ok_bind, hgiven, ih]
      cases texts (run.answers (allCommands rest) (run.after block.commands s)) with
      | error fault => rfl
      | ok more => simp only [renderBlocks, List.take_left' hlen, List.drop_left' hlen]

theorem generate_of_parse {script : String} {blocks : List Block} (h : parse script = .ok blocks)
    (run : Runner σ) (s : σ) :
    generate run script s =
      ((texts (run.answers (allCommands blocks) s)).map (renderBlocks blocks),
        run.after (given (run.answers (allCommands blocks) s)) s) := by
  rw [generate, h]
  exact runBlocks_eq run blocks s

theorem generate_eq_ok_iff {run : Runner σ} {script : String} {s : σ} {output : String} :
    (generate run script s).1 = .ok output ↔ ∃ blocks shown, parse script = .ok blocks ∧
      texts (run.answers (allCommands blocks) s) = .ok shown ∧
      renderBlocks blocks shown = output := by
  cases hp : parse script with
  | error fault => simp [generate, hp]
  | ok blocks => simp [generate_of_parse hp, map_eq_ok_iff]

def commandsGiven (run : Runner σ) (script : String) (s : σ) : List Command :=
  (generate run.noting script (s, [])).2.2.reverse

theorem commandsGiven_of_parse {script : String} {blocks : List Block}
    (h : parse script = .ok blocks) (run : Runner σ) (s : σ) :
    commandsGiven run script s = given (run.answers (allCommands blocks) s) := by
  rw [commandsGiven, generate_of_parse h, Runner.answers_noting, Runner.after_noting]
  simp only [List.append_nil, List.reverse_reverse]

/-- **A replay runs the commands of a script in order, each once, up to the first surprise.**  A text
that is no script runs nothing.  The commands given to the runner are all commands, and then the
result is every block with the texts of its commands, or a prefix that ends with the first command
whose outcome is not what its mark says, and then the result is an error about that command. -/
theorem generate_runs_in_order (run : Runner σ) (script : String) (s : σ) :
    match parse script with
    | .error fault =>
      generate run script s = (.error (.badScript fault), s) ∧ commandsGiven run script s = []
    | .ok blocks =>
      (∀ x ∈ run.answers (allCommands blocks) s, Expected x.1 x.2) ∧
        (generate run script s).1 = .ok (renderBlocks blocks
          ((run.answers (allCommands blocks) s).map fun x => shownText x.2)) ∧
        commandsGiven run script s = allCommands blocks ∨
      ∃ before command outcome after,
        run.answers (allCommands blocks) s = before ++ (command, outcome) :: after ∧
        (∀ x ∈ before, Expected x.1 x.2) ∧ ¬Expected command outcome ∧
        (generate run script s).1 = .error (surprise command outcome) ∧
        (outcome ≠ .error .crashed → ∃ what, (surprise command outcome).message =
          s!"line {command.line}: '{command.name}' " ++ what) ∧
        commandsGiven run script s = before.map (·.1) ++ [command] ∧
        commandsGiven run script s <+: allCommands blocks := by
  cases h : parse script with
  | error fault =>
    have hg {τ : Type} (r : Runner τ) (t : τ) :
        generate r script t = (.error (.badScript fault), t) := by rw [generate, h]
    exact ⟨hg run s, by rw [commandsGiven, hg]; rfl⟩
  | ok blocks =>
    simp only [generate_of_parse h, commandsGiven_of_parse h]
    have hall := run.map_answers (allCommands blocks) s
    rcases texts_cases (run.answers (allCommands blocks) s) with
      ⟨he, ht, hg⟩ | ⟨before, command, outcome, after, ha, he, hn, ht, hg⟩
    · exact .inl ⟨he, by rw [ht]; rfl, by rw [hg, hall]⟩
    · refine .inr ⟨before, command, outcome, after, ha, he, hn, by rw [ht]; rfl,
        message_surprise command, hg, ?_⟩
      rw [hg, ← hall, ha, List.map_append, List.map_cons]
      exact ⟨after.map (·.1), by simp⟩

/-- Three texts that are ended as lines: an empty one, one that is a line and one that is not. -/
example : (generate prepared "a\nb\n!c\n---\nold\n" [.ok "", .ok "x\n", .error "y"]).1.toOption =
    some "a\nb\n!c\n---\nx\nError: y\n\n" := by
  decide +kernel

end Datum.Script
