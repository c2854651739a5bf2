import Chip8.Instruction.Mnemonic
import Chip8.State.Snapshot

/-!
# Traces

A machine that is told to keeps an entry for every cycle it completes: the opcode, what it was
decoded to, and the registers before and after. A trace with a limit keeps the latest entries. Its
text has a line for each entry, and a second one if the cycle changed a register or the index, from
which the registers can be followed without the machine.
-/

set_option autoImplicit false

namespace Chip8

open Text

/-- A word that was stepped over because it is no instruction. -/
structure Skip where
  opcode : Opcode
  reason : InvalidReason
deriving DecidableEq

def Skip.text (s : Skip) : String := "Skipped " ++ s.opcode.text ++ ": " ++ s.reason.text

/-- A completed cycle. -/
structure TraceEntry where
  /-- The number of the cycle, from 0. -/
  cycle : Int
  /-- Where the opcode was fetched. -/
  pc : Int
  opcode : Opcode
  decoded : Decoded
  before : Snapshot
  after : Snapshot
  /-- What was stepped over, if the opcode is no instruction. -/
  skipped : Option Skip
deriving DecidableEq

namespace TraceEntry

/-- The registers that differ, in order: number, value before, value after. -/
def registerChanges (e : TraceEntry) : List (Nat × UInt8 × UInt8) :=
  ((e.before.registers.toList.zip e.after.registers.toList).zipIdx.filter
    fun ((v, w), _) => v ≠ w).map fun ((v, w), i) => (i, v, w)

/-- What changed, in the words of the second line. -/
def changes (e : TraceEntry) : List String :=
  e.registerChanges.map (fun (i, v, w) =>
    registerName i ++ ": " ++ Hex.byte v ++ " -> " ++ Hex.byte w) ++
  if e.before.index = e.after.index then []
  else ["I: " ++ Hex.padded 3 e.before.index ++ " -> " ++ Hex.padded 3 e.after.index]

/-- A text with spaces after it up to a width. -/
def padRight (width : Nat) (s : String) : String :=
  s ++ String.ofList (List.replicate (width - s.length) ' ')

def header (e : TraceEntry) : String :=
  "[Cycle " ++ toString e.cycle ++ "] " ++ Hex.address e.pc ++ " " ++ e.opcode.text ++ " " ++
    padRight 18 e.opcode.mnemonic ++ " " ++
    match e.skipped with
    | none => "OK"
    | some s => "ERROR: " ++ s.text

/-- The lines of an entry. -/
def lines (e : TraceEntry) : List String :=
  match e.changes with
  | [] => [e.header]
  | cs => [e.header, "    Changes: " ++ ", ".intercalate cs]

end TraceEntry

/-- The entries kept, oldest first, and how many of them are kept at most. -/
structure Trace where
  limit : Option Nat
  entries : Array TraceEntry
deriving DecidableEq

namespace Trace

def empty (limit : Option Nat) : Trace := ⟨limit, #[]⟩

/-- Adds an entry, at the cost of the oldest if there is no room. -/
def push (t : Trace) (e : TraceEntry) : Trace :=
  let es := t.entries.push e
  match t.limit with
  | none => { t with entries := es }
  | some n => if es.size ≤ n then { t with entries := es } else
      { t with entries := es.extract (es.size - n) es.size }

def text (t : Trace) : String := "\n".intercalate (t.entries.toList.flatMap TraceEntry.lines)

end Trace

end Chip8
