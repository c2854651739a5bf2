import Chip8.Machine.Log

/-!
# Playing a program

What every host does with a machine: load a program, hold some keys down, and run for a number of
cycles. A number below zero is none. `playLogged` does the same and collects the records.
-/

set_option autoImplicit false

namespace Chip8.Machine

/-- Holds keys down, in order. -/
def holdKeys : List Nat → Machine.Action Unit
  | [] => pure ()
  | pin :: rest => do
    setKey pin true
    holdKeys rest

def play (program : Array UInt8) (pins : List Nat) (cycles : Int) : Machine.Action Unit := do
  let _ ← load program
  holdKeys pins
  run cycles.toNat

/-- As `play`, with everything the machine reports on the way. -/
def playLogged (program : Array UInt8) (pins : List Nat) (cycles : Int) (m : Machine) :
    EStateM.Result Error Machine Unit × Array LogRecord :=
  match load program m with
  | .error e m => (.error e m, #[])
  | .ok size m =>
    match holdKeys pins m with
    | .error e m => (.error e m, #[.loaded size])
    | .ok _ m => runLogged #[.loaded size] m cycles.toNat

end Chip8.Machine
