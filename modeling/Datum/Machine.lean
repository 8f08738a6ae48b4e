import Datum.Comparison
import Datum.Storage

/-! # A register machine over values

A machine has registers that hold values and a page of bytes. An instruction either writes a
register, answers a question about two of them, or stores one in a slot of the page; one that fails
changes nothing.
-/

namespace Datum

structure Machine where
  registers : List Value
  page : List UInt8
deriving DecidableEq

/-- The instructions. Those with a `target` register write it. A slot is `length` bytes of the page
from `start`. -/
inductive Instruction where
  | set (target : Nat) (v : Value)
  | copy (target source : Nat)
  | parse (target : Nat) (kind : Kind) (text : String)
  | cast (target source : Nat) (kind : Kind)
  | min (target left right : Nat)
  | max (target left right : Nat)
  | decode (target : Nat) (kind : Kind) (start length : Nat)
  | compare (left right : Nat)
  | evaluate (left right : Nat) (op : Comparison)
  | encode (source start length : Nat)

inductive Reply where
  | value (v : Value)
  | order (o : Option Ordering)
  | truth (t : Option Bool)
  | written (count : Nat)

namespace Machine

/-- A machine with a number of registers, all holding the untyped null. -/
def start (count : Nat) (page : List UInt8) : Machine :=
  ⟨List.replicate count (.null .null), page⟩

/-- The value of a register; those that do not exist hold the untyped null. -/
def register (m : Machine) (i : Nat) : Value :=
  m.registers.getD i (.null .null)

/-- Writes a register and answers its new value. -/
def write (m : Machine) (target : Nat) (v : Value) : Reply × Machine :=
  (.value v, { m with registers := m.registers.set target v })

def slot (m : Machine) (start length : Nat) : List UInt8 :=
  (m.page.drop start).take length

def overwrite (m : Machine) (start : Nat) (bytes : List UInt8) : Machine :=
  { m with page := m.page.take start ++ bytes ++ m.page.drop (start + bytes.length) }

def execute (m : Machine) : Instruction → Except TypeError (Reply × Machine)
  | .set target v => .ok (m.write target v)
  | .copy target source => .ok (m.write target (m.register source))
  | .parse target kind text => return m.write target (← Value.parse kind text)
  | .cast target source kind => return m.write target (← (m.register source).cast kind)
  | .min target left right => return m.write target (← (m.register left).min (m.register right))
  | .max target left right => return m.write target (← (m.register left).max (m.register right))
  | .decode target kind start length =>
    return m.write target (← Storage.decode kind (m.slot start length))
  | .compare left right => return (.order (← (m.register left).compare (m.register right)), m)
  | .evaluate left right op =>
    return (.truth (← op.evaluate (m.register left) (m.register right)), m)
  | .encode source start length => do
    let (count, bytes) ← Storage.encodeInto (m.register source) (m.slot start length)
    return (.written count, m.overwrite start bytes)

/-- Executes an instruction; after a failure the machine is as before. -/
def step (m : Machine) (i : Instruction) : Except TypeError Reply × Machine :=
  match m.execute i with
  | .ok (reply, after) => (.ok reply, after)
  | .error e => (.error e, m)

end Machine

end Datum
