import Datum.Integer
import Datum.Kind

/-! # Commands and their arguments

A command of a script has a name and arguments, each of which may have a key. Whoever runs a command
takes its arguments one by one and in the end refuses it if some are left. An argument keeps its
position, so that arguments of the same text stay apart.
-/

namespace Datum.Script

structure Argument where
  key : Option String
  value : String
deriving DecidableEq

/-- A command line. `fail` marks a command that is expected to fail; lines are counted from one. -/
structure Command where
  name : String
  args : List Argument
  fail : Bool
  line : Nat
deriving DecidableEq

inductive ArgumentFault where
  | invalid (arg : Argument)
  | unexpected (arg : Argument)
deriving DecidableEq

class FromArgument (α : Type) where
  read? : String → Option α

instance : FromArgument Int32 := ⟨fun text => (Integer.readSigned text.toList).toOption⟩

/-- An unsigned byte may have a plus sign in front. -/
def readByte? (text : String) : Option UInt8 :=
  let digits := match text.toList with
    | '+' :: digits => digits
    | digits => digits
  ((Integer.readNatural 255 digits).toOption).map (·.toUInt8)

instance : FromArgument UInt8 := ⟨readByte?⟩

instance : FromArgument Bool where
  read?
    | "true" => some true
    | "false" => some false
    | _ => none

instance : FromArgument String := ⟨some⟩

instance : FromArgument Kind := ⟨Kind.parse?⟩

namespace Argument

def text (arg : Argument) : String :=
  match arg.key with
  | some key => key ++ "=" ++ arg.value
  | none => arg.value

def read {α : Type} [FromArgument α] (arg : Argument) : Except ArgumentFault α :=
  match FromArgument.read? arg.value with
  | some a => .ok a
  | none => .error (.invalid arg)

end Argument

def ArgumentFault.message : ArgumentFault → String
  | invalid arg => s!"invalid argument '{arg.text}'"
  | unexpected arg => s!"unexpected argument '{arg.text}'"

/-- An argument with its position in the command. -/
structure Placed where
  position : Nat
  arg : Argument
deriving DecidableEq

/-- The arguments that have not been taken yet, in order. -/
abbrev Arguments := List Placed

def Command.arguments (c : Command) : Arguments :=
  c.args.zipIdx.map fun (arg, i) => ⟨i, arg⟩

namespace Arguments

def takeFirst (p : Argument → Bool) : Arguments → Option Placed × Arguments
  | [] => (none, [])
  | a :: rest =>
    if p a.arg then (some a, rest)
    else
      let (taken, left) := takeFirst p rest
      (taken, a :: left)

def takeLast (p : Argument → Bool) : Arguments → Option Placed × Arguments
  | [] => (none, [])
  | a :: rest =>
    match takeLast p rest with
    | (some taken, left) => (some taken, a :: left)
    | (none, left) => if p a.arg then (some a, rest) else (none, a :: left)

def nextArg : Arguments → Option Placed × Arguments :=
  takeFirst fun _ => true

def nextPos : Arguments → Option Placed × Arguments :=
  takeFirst fun arg => arg.key.isNone

def nextKey : Arguments → Option Placed × Arguments :=
  takeFirst fun arg => arg.key.isSome

def lookup (key : String) : Arguments → Option Placed × Arguments :=
  takeLast fun arg => arg.key = some key

/-- Takes the last argument with this key and reads its value. The argument is taken even if its
value cannot be read. -/
def lookupRead {α : Type} [FromArgument α] (key : String) (args : Arguments) :
    Except ArgumentFault (Option α) × Arguments :=
  match args.lookup key with
  | (none, left) => (.ok none, left)
  | (some taken, left) => (taken.arg.read.map some, left)

def rest (args : Arguments) : List Placed × Arguments :=
  (args, [])

def rejectRest : Arguments → Except ArgumentFault Unit
  | [] => .ok ()
  | a :: _ => .error (.unexpected a.arg)

end Arguments

end Datum.Script
