import Chip8.Layout
import Chip8.Error
import Chip8.Random.Source

/-!
# The state of the machine

All that instructions read and write. A host may put the machine into any state, sensible or not, so
the numbers are unbounded integers and the arrays may have any length; what a sensible state is says
`State.Valid` (`Chip8.State.Valid`), and running programs never leaves it. Memory and registers hold
bytes whatever happens.

The source of random bytes is part of the state, since the one instruction that draws from it
changes it. Keys that are held and pixels that are on are `true`.
-/

set_option autoImplicit false

namespace Chip8

structure State where
  memory : Array UInt8
  /-- `V0` to `VF`. -/
  registers : Array UInt8
  index : Int
  pc : Int
  /-- The return addresses, used or not. -/
  stack : Array Int
  /-- How many return addresses are in use. -/
  sp : Int
  delayTimer : Int
  soundTimer : Int
  keys : Array Bool
  /-- The screen, row by row. -/
  pixels : Array Bool
  /-- Cycles since the timers last counted down. -/
  sinceTick : Int
  /-- The screen has changed since the host last asked. -/
  redraw : Bool
  /-- How many cycles have been completed. -/
  cycleCount : Int
  random : Random.Source
deriving DecidableEq

/-- An action on the state: it finishes with a value or stops with an error, and in both cases there
is a state in which it does so. An action that stops half-way leaves the changes made so far. -/
abbrev State.Action (α : Type) : Type := EStateM Error State α

namespace State

/-- Memory before a program is loaded: zeros, and the font in its place. -/
def initialMemory : Array UInt8 :=
  Array.replicate fontStart 0 ++ font ++ Array.replicate (memorySize - (fontStart + font.size)) 0

/-- A machine that has been switched on. -/
def initial (random : Random.Source) : State where
  memory := initialMemory
  registers := Array.replicate registerCount 0
  index := 0
  pc := programStart
  stack := Array.replicate stackSize 0
  sp := 0
  delayTimer := 0
  soundTimer := 0
  keys := Array.replicate keyCount false
  pixels := Array.replicate pixelCount false
  sinceTick := 0
  redraw := false
  cycleCount := 0
  random := random

end State

end Chip8
