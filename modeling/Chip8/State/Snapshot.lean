import Chip8.State.Access
import Chip8.Text.Hex

/-!
# Snapshots and the one-line form of a state

A snapshot is the part of the state that a trace keeps: registers, counters and timers, and of the
stack what is in use. Memory, keys and screen are left out.
-/

set_option autoImplicit false

namespace Chip8

open Text

structure Snapshot where
  registers : Array UInt8
  index : Int
  pc : Int
  /-- The return addresses in use. -/
  stack : Array Int
  sp : Int
  delayTimer : Int
  soundTimer : Int
  cycleCount : Int
deriving DecidableEq, Repr

namespace State

def snapshot (s : State) : Snapshot where
  registers := s.registers
  index := s.index
  pc := s.pc
  stack := s.stack.extract 0 (cutAt s.stack.size s.sp)
  sp := s.sp
  delayTimer := s.delayTimer
  soundTimer := s.soundTimer
  cycleCount := s.cycleCount

/-- The registers with their names. -/
def dumpRegisters (s : State) : List (String × UInt8) :=
  s.registers.toList.zipIdx.map fun (v, i) => ("V" ++ Hex.padded 1 i, v)

/-- The registers as text, for instance `V0=1F V1=00`. -/
def registersText (s : State) : String :=
  " ".intercalate (s.dumpRegisters.map fun (name, v) => name ++ "=" ++ Hex.byte v)

/-- The state on one line. -/
def text (s : State) : String :=
  "[Cycle " ++ toString s.cycleCount ++ "] PC=" ++ Hex.padded 3 s.pc ++ " I=" ++
    Hex.padded 3 s.index ++ " SP=" ++ toString s.sp ++ " DT=" ++ toString s.delayTimer ++ " ST=" ++
    toString s.soundTimer ++ " " ++ s.registersText

end State

end Chip8
