import Chip8.Machine

/-!
# Summaries

The figures that a host shows after a run.
-/

set_option autoImplicit false

namespace Chip8

structure Summary where
  cycles : Int
  pc : Int
  index : Int
  sp : Int
  delayTimer : Int
  soundTimer : Int
  registers : List (String × UInt8)
  /-- How many pixels are on. -/
  pixelsOn : Nat
  traceLength : Nat
  /-- A text for every word stepped over. -/
  errors : List String
deriving DecidableEq, Repr

def Machine.summary (m : Machine) : Summary where
  cycles := m.state.cycleCount
  pc := m.state.pc
  index := m.state.index
  sp := m.state.sp
  delayTimer := m.state.delayTimer
  soundTimer := m.state.soundTimer
  registers := m.state.dumpRegisters
  pixelsOn := m.state.pixels.countP id
  traceLength := m.trace.entries.size
  errors := m.skips.toList.map Skip.text

end Chip8
