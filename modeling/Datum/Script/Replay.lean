import Datum.Script.Block

/-! # Replaying a script

A runner answers commands one by one and may keep a state. Replaying a script runs its commands in
order and writes the script again with the outputs they produce now. It stops at the first command
whose outcome contradicts its mark. A script file passes if replaying it changes nothing but blanks
at the end.
-/

namespace Datum.Script

/-- How a command fails: with a message, or by a crash that no mark can expect. -/
inductive RunFault where
  | failed (message : String)
  | crashed
deriving DecidableEq

/-- Answers a command, given the runner's state. -/
abbrev Runner (σ : Type) := Command → σ → Except RunFault String × σ

inductive ReplayFault where
  | badScript (fault : ScriptFault)
  | commandFailed (command : Command) (message : String)
  | unexpectedSuccess (command : Command) (output : String)
  | outputDiffers (path : String) (line : Nat) (expected actual output : String)
  | crashed
deriving DecidableEq

def ReplayFault.message : ReplayFault → String
  | badScript fault => fault.message
  | commandFailed command message =>
    s!"line {command.line}: '{command.name}' failed: {message}"
  | unexpectedSuccess command output =>
    s!"line {command.line}: '{command.name}' was expected to fail, got: " ++
      Text.trimBlankEnd output
  | outputDiffers path line expected actual output =>
    s!"{path}: output does not match\nfirst difference at line {line}\nexpected: " ++
      Text.quoted expected ++ "\nactual:   " ++ Text.quoted actual ++ "\n\n" ++ output
  | crashed => "crashed"

/-- The text of a command's outcome, if it is what its mark says. -/
def outcomeText (command : Command) : Except RunFault String → Except ReplayFault String
  | .error .crashed => .error .crashed
  | .ok text => if command.fail then .error (.unexpectedSuccess command text) else .ok text
  | .error (.failed message) =>
    if command.fail then .ok ("Error: " ++ message) else .error (.commandFailed command message)

/-- A text with a line feed at its end, unless it is empty. -/
def endLine (text : String) : String :=
  match text.toList.getLast? with
  | none => text
  | some '\n' => text
  | some _ => text ++ "\n"

def runCommands {σ : Type} (run : Runner σ) : List Command → σ → Except ReplayFault String × σ
  | [], s => (.ok "", s)
  | command :: rest, s =>
    let (outcome, s) := run command s
    match outcomeText command outcome with
    | .error fault => (.error fault, s)
    | .ok text =>
      let (output, s) := runCommands run rest s
      (output.map (endLine text ++ ·), s)

def runBlock {σ : Type} (run : Runner σ) (block : Block) (s : σ) : Except ReplayFault String × σ :=
  if block.commands = [] then (.ok block.literal, s)
  else
    let (output, s) := runCommands run block.commands s
    (output.map fun text => block.literal ++ separator ++ "\n" ++ text ++ "\n", s)

def runBlocks {σ : Type} (run : Runner σ) : List Block → σ → Except ReplayFault String × σ
  | [], s => (.ok "", s)
  | block :: rest, s =>
    match runBlock run block s with
    | (.error fault, s) => (.error fault, s)
    | (.ok text, s) =>
      let (output, s) := runBlocks run rest s
      (output.map (text ++ ·), s)

def generate {σ : Type} (run : Runner σ) (script : String) (s : σ) :
    Except ReplayFault String × σ :=
  match parse script with
  | .error fault => (.error (.badScript fault), s)
  | .ok blocks => runBlocks run blocks s

/-- The index of the first line in which two lists of lines differ, or of the end of the shorter
one. -/
def firstDifference : List String → List String → Nat
  | a :: as, b :: bs => if a = b then firstDifference as bs + 1 else 0
  | _, _ => 0

/-- Shows where two texts differ first. A line beyond the end of a text shows as empty. -/
def mismatch (path expected actual : String) : ReplayFault :=
  let expectedLines := Text.lines expected
  let actualLines := Text.lines actual
  let i := firstDifference expectedLines actualLines
  .outputDiffers path (i + 1) (expectedLines.getD i "") (actualLines.getD i "") actual

/-- Checks a script file with the given content. The result is new content for the file, if it has
to be written: when the output differs and the file is to be updated. -/
def checkFile {σ : Type} (run : Runner σ) (path : String) (update : Bool) (content : String)
    (s : σ) : Except ReplayFault (Option String) × σ :=
  match generate run content s with
  | (.error fault, s) => (.error fault, s)
  | (.ok output, s) =>
    let trimmed := Text.trimBlankEnd output
    if trimmed = Text.trimBlankEnd content then (.ok none, s)
    else if update then (.ok (some (trimmed ++ "\n")), s)
    else (.error (mismatch path content output), s)

/-- A runner that also notes the commands it is given, the latest first. -/
def Runner.noting {σ : Type} (run : Runner σ) : Runner (σ × List Command) :=
  fun command (s, seen) =>
    let (outcome, s) := run command s
    (outcome, s, command :: seen)

/-- A runner that hands out prepared outcomes in order and fails when there are none left. -/
def prepared : Runner (List (Except String String))
  | _, [] => (.error (.failed "no response"), [])
  | _, outcome :: rest => (outcome.mapError .failed, rest)

end Datum.Script
