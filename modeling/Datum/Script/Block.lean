import Datum.Script.Grammar
import Datum.Text.Layout

/-! # Blocks of a script

A script is a sequence of blocks. A block is some lines, which are commands, comments and blank
lines, a separator, and the output that the commands are expected to produce, up to the first blank
line. Lines without commands may end the script without a separator.
-/

namespace Datum.Script

def separator : String := "---"

/-- Lines before a separator, each with a line feed, and the commands among them. -/
structure Block where
  literal : String
  commands : List Command
deriving DecidableEq

inductive ScriptFault where
  | separatorWithoutCommands (line : Nat)
  | invalidCommand (line : Nat) (text : String) (fault : LineFault)
  | missingSeparator
deriving DecidableEq

def ScriptFault.message : ScriptFault → String
  | separatorWithoutCommands line => s!"line {line}: separator without commands"
  | invalidCommand line text fault => s!"line {line}: invalid command '{text}': {fault.message}"
  | missingSeparator => s!"missing '{separator}' after the last commands"

/-- Where reading stands: in a block with these lines and commands so far, or in the output of the
last block. -/
inductive Position where
  | block (literal : String) (commands : List Command)
  | output

/-- A line that is no command and no separator: blank, or a comment. -/
def isRemark (line : String) : Bool :=
  match Text.trim Text.isBlank line.toList with
  | [] => true
  | c :: _ => c == '#'

def readBlocks : Nat → Position → List String → Except ScriptFault (List Block)
  | _, .output, [] => .ok []
  | _, .block literal commands, [] =>
    if commands ≠ [] then .error .missingSeparator
    else if literal = "" then .ok []
    else .ok [⟨literal, []⟩]
  | number, .output, line :: rest =>
    if Text.allBlank line.toList then readBlocks (number + 1) (.block "" []) rest
    else readBlocks (number + 1) .output rest
  | number, .block literal commands, line :: rest =>
    if line = separator then
      if commands = [] then .error (.separatorWithoutCommands number)
      else do
        let blocks ← readBlocks (number + 1) .output rest
        return ⟨literal, commands⟩ :: blocks
    else
      let literal := literal ++ line ++ "\n"
      if isRemark line then readBlocks (number + 1) (.block literal commands) rest
      else
        match parseCommand line number with
        | .ok command => readBlocks (number + 1) (.block literal (commands ++ [command])) rest
        | .error fault => .error (.invalidCommand number line fault)

def parse (script : String) : Except ScriptFault (List Block) :=
  readBlocks 1 (.block "" []) (Text.lines script)

end Datum.Script
