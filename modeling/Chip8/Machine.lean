import Chip8.Machine.Trace
import Chip8.Operation.Execute

/-!
# The machine

A machine is a state with the settings under which it runs: how many cycles make a tick of the
timers, what happens at a word that is no instruction, and whether a trace is kept. A cycle fetches
the opcode at the program counter, decodes it, carries it out, and then counts itself and lets the
timers count; a cycle that fails does none of the counting. Time is counted in cycles alone.
-/

set_option autoImplicit false

namespace Chip8

/-- What a machine does at a word that is no instruction. -/
inductive InvalidPolicy
  /-- The cycle fails. -/
  | refuse
  /-- The machine takes note of the word and goes on behind it. -/
  | skip
deriving DecidableEq, Repr

structure Machine where
  state : State
  /-- How many cycles make a tick of the timers. -/
  timerResolution : Int
  onInvalid : InvalidPolicy
  /-- Whether cycles are added to the trace. -/
  tracing : Bool
  trace : Trace
  /-- Every word stepped over so far. -/
  skips : Array Skip
deriving DecidableEq

/-- An action on the machine, of the same kind as an action on its state. -/
abbrev Machine.Action (α : Type) : Type := EStateM Error Machine α

namespace State

/-- The opcode at the program counter. -/
def fetch : Action Opcode := do
  let s ← get
  if s.pc > memorySize - 2 then .fault (.pcOutOfRange s.pc)
  else
    let high ← byteAt s.pc
    let low ← byteAt (s.pc + 1)
    return Opcode.ofBytes high.toNat low.toNat

/-- A cycle more since the last tick, and a tick if that makes as many as the resolution says. -/
def tickTimers (resolution : Int) (s : State) : State :=
  if s.sinceTick + 1 < resolution then { s with sinceTick := s.sinceTick + 1 }
  else
    { s with
      delayTimer := if s.delayTimer > 0 then s.delayTimer - 1 else s.delayTimer
      soundTimer := if s.soundTimer > 0 then s.soundTimer - 1 else s.soundTimer
      sinceTick := 0 }

/-- A completed cycle more. -/
def countCycle (s : State) : State := { s with cycleCount := s.cycleCount + 1 }

end State

namespace Machine

/-- An action on the state as an action on the machine. -/
def onState {α : Type} (act : State.Action α) : Machine.Action α := fun m =>
  match act m.state with
  | .ok v s => .ok v { m with state := s }
  | .error e s => .error e { m with state := s }

/-- Steps over a word that is no instruction, or fails, as the policy says. -/
def stepOver (opcode : Opcode) (reason : InvalidReason) : Machine.Action Skip := do
  let m ← get
  match m.onInvalid with
  | .refuse =>
    throw (.fault (.unknownOpcode opcode.word m.state.pc reason.text))
  | .skip =>
    onState (State.advance 2)
    let s : Skip := ⟨opcode, reason⟩
    modify fun m => { m with skips := m.skips.push s }
    return s

/-- Carries out an opcode; the answer is the skip, if it had to be stepped over. -/
def carryOut (opcode : Opcode) : Machine.Action (Option Skip) :=
  match opcode.decode with
  | .ok i => do
    onState (i.operation.execute i.operands)
    return none
  | .error reason => do
    let s ← stepOver opcode reason
    return some s

/-- The timers and counters after a completed cycle. -/
def count (m : Machine) : Machine :=
  { m with state := (m.state.tickTimers m.timerResolution).countCycle }

/-- Adds an entry to the trace. -/
def record (e : TraceEntry) (m : Machine) : Machine := { m with trace := m.trace.push e }

/-- One cycle. The answer is the trace entry, if a trace is kept. -/
def cycle : Machine.Action (Option TraceEntry) := do
  let m ← get
  let before := m.state.snapshot
  let opcode ← onState State.fetch
  let skipped ← carryOut opcode
  modify count
  let m ← get
  if m.tracing then
    let entry : TraceEntry :=
      { cycle := m.state.cycleCount - 1
        pc := before.pc
        opcode := opcode
        decoded := .ofOpcode opcode
        before := before
        after := m.state.snapshot
        skipped := skipped }
    set (record entry m)
    return some entry
  else return none

/-- A number of cycles; it ends early if one fails. -/
def run : Nat → Machine.Action Unit
  | 0 => pure ()
  | n + 1 => do
    let _ ← cycle
    run n

/-- A run as a host asks for it: a number of cycles, none if it is below zero. The answer is the
trace as it is at the end. -/
def runTraced (cycles : Int) : Machine.Action (Array TraceEntry) := do
  run cycles.toNat
  let m ← get
  return m.trace.entries

/-! ## What a host does between cycles -/

def load (program : Array UInt8) : Machine.Action Nat := onState (State.load program)

/-- Presses or releases a key; the keys are those from 0 to 15. -/
def setKey (pin : Int) (held : Bool) : Machine.Action Unit :=
  if 0 ≤ pin ∧ pin < keyCount then onState (State.writeKey pin held)
  else throw (.misuse (.noSuchKey pin))

/-- Releases all keys. -/
def releaseKeys (m : Machine) : Machine :=
  { m with state := { m.state with keys := Array.replicate keyCount false } }

/-- Whether the screen has changed since this was last asked. -/
def takeRedraw : Machine.Action Bool := do
  let m ← get
  set { m with state := { m.state with redraw := false } }
  return m.state.redraw

/-- The buzzer sounds as long as the sound timer runs. -/
def sounding (m : Machine) : Bool := m.state.soundTimer > 0

end Machine

end Chip8
