import Datum.Comparison
import Datum.Diagnostic
import Datum.Script.Replay
import Datum.Storage
import Datum.Text.Digits

/-! # Commands on values

The commands by which a script exercises values: comparing, choosing, casting, reading and storing
them. A value is written `KIND=TEXT` and read as a literal of its kind; `null=KIND` is a null of that
kind. Every answer is one line.
-/

namespace Datum.Script

/-- The steps of a command: they take arguments and may fail. -/
abbrev Execution := StateT Arguments (Except RunFault)

namespace Execution

def fail {α : Type} (message : String) : Execution α :=
  throw (.failed message)

/-- Goes on with a result or fails with the summary of the failure. -/
def typed {α : Type} : Except TypeError α → Execution α
  | .ok a => pure a
  | .error e => fail e.summary

/-- Takes an argument, or fails with the message that it is missing. -/
def take (next : Arguments → Option Placed × Arguments) (missing : String) : Execution Argument := do
  match next (← get) with
  | (some taken, left) =>
    set left
    return taken.arg
  | (none, _) => fail missing

def rejectRest : Execution PUnit := do
  match (← get).rejectRest with
  | .ok _ => return
  | .error fault => fail fault.message

def kind (name : String) : Execution Kind :=
  match Kind.parse? name with
  | some k => pure k
  | none => fail s!"unknown kind '{name}'"

def value (arg : Argument) : Execution Value := do
  match arg.key with
  | none => fail s!"expected KIND=TEXT, got '{arg.value}'"
  | some "null" => return .null (← kind arg.value)
  | some key => typed (Value.parse (← kind key) arg.value)

def takeValue (missing : String) : Execution Value := do
  value (← take Arguments.nextKey missing)

def takePositional (missing : String) : Execution String := do
  return (← take Arguments.nextPos missing).value

def takeKind (missing : String) : Execution Kind := do
  kind (← takePositional missing)

/-- The bytes that a text in hexadecimal writes. A pair that cuts a character is a crash. -/
def bytes (text : String) : Execution (List UInt8) :=
  match Hex.read text with
  | .ok bytes => pure bytes
  | .error (.oddLength text) => fail s!"odd hex length in '{text}'"
  | .error .notDigit => fail "invalid digit found in string"
  | .error .splitsCharacter => throw .crashed

end Execution

open Execution

def describe (v : Value) : String :=
  s!"{v.kind} {v}"

def orderText : Option Ordering → String
  | some .lt => "Less"
  | some .eq => "Equal"
  | some .gt => "Greater"
  | none => "Unknown"

def truthText : Option Bool → String
  | some true => "true"
  | some false => "false"
  | none => "unknown"

/-- The two values of a command that takes nothing else. -/
def takeOperands : Execution (Value × Value) := do
  let left ← takeValue "left value not given"
  let right ← takeValue "right value not given"
  rejectRest
  return (left, right)

/-- The answer to a command, without the end of its line. -/
def answer (name : String) : Execution String :=
  match name with
  | "compare" => do
    let (left, right) ← takeOperands
    return orderText (← typed (left.compare right))
  | "min" => do
    let (left, right) ← takeOperands
    return describe (← typed (left.min right))
  | "max" => do
    let (left, right) ← takeOperands
    return describe (← typed (left.max right))
  | "eval" => do
    let left ← takeValue "left value not given"
    let symbol ← takePositional "operator not given"
    let right ← takeValue "right value not given"
    rejectRest
    match Comparison.ofSymbol? symbol with
    | none => fail s!"unknown operator '{symbol}'"
    | some op => return truthText (← typed (op.evaluate left right))
  | "cast" => do
    let source ← takeValue "value not given"
    let target ← takeKind "target kind not given"
    rejectRest
    return describe (← typed (source.cast target))
  | "parse" => do
    let target ← takeKind "kind not given"
    let text ← takePositional "text not given"
    rejectRest
    return describe (← typed (Value.parse target text))
  | "cost" => do
    let source ← takeKind "source kind not given"
    let target ← takeKind "target kind not given"
    rejectRest
    return (castCost source target).toText
  | "resolve" => do
    let left ← takeKind "left kind not given"
    let right ← takeKind "right kind not given"
    rejectRest
    return (← typed (resolve left right)).toText
  | "encode" => do
    let source ← takeValue "value not given"
    rejectRest
    return Hex.spaced (← typed (Storage.encode source))
  | "decode" => do
    let target ← takeKind "kind not given"
    let stored ← bytes (← takePositional "bytes not given")
    rejectRest
    return describe (← typed (Storage.decode target stored))
  | name => fail s!"unknown command: {name}"

def interpret (command : Command) : Except RunFault String :=
  ((answer command.name).run command.arguments).map fun (line, _) => line ++ "\n"

/-- The runner of these commands, which keeps no state. -/
def interpreter : Runner Unit :=
  fun command s => (interpret command, s)

end Datum.Script
