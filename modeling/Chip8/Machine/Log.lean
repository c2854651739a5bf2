import Chip8.Machine

/-!
# The log

What a machine reports while it works: each instruction before it is carried out, each word stepped
over, each wait for a key and each tick of the timers. The records of a cycle are a function of the
state before the cycle and of how the cycle ended, so a machine need not know whether anyone
listens.
-/

set_option autoImplicit false

namespace Chip8

open Text

/-- Something a machine reports. -/
inductive LogRecord
  | loaded (size : Nat)
  /-- An instruction is about to be carried out. -/
  | executing (pc : Int) (opcode : Opcode)
  | waiting (pc : Int)
  | ticked (delay sound : Int)
  | skipped (pc : Int) (skip : Skip)
deriving DecidableEq

namespace LogRecord

/-- Records that matter also to someone who does not look for faults. -/
def isWarning : LogRecord → Bool
  | .skipped .. => true
  | _ => false

def level (r : LogRecord) : String := if r.isWarning then "WARNING" else "DEBUG"

def message : LogRecord → String
  | .loaded size => "Loaded " ++ toString size ++ " byte program at 0x200"
  | .executing pc opcode => Hex.address pc ++ ": " ++ opcode.text ++ " " ++ opcode.mnemonic
  | .waiting pc => Hex.address pc ++ ": waiting for key press"
  | .ticked delay sound => "Timer tick: DT=" ++ toString delay ++ " ST=" ++ toString sound
  | .skipped pc skip => Hex.address pc ++ ": " ++ skip.text

end LogRecord

namespace Machine

/-- The tick at the end of a cycle which took the state from `before` to `after`. -/
def tickRecords (resolution : Int) (before after : State) : List LogRecord :=
  if before.sinceTick + 1 < resolution then []
  else [.ticked after.delayTimer after.soundTimer]

/-- The records of a cycle that found the state `before`, given the state after it if it completed,
on a machine with a resolution of its timers. -/
def cycleRecords (resolution : Int) (before : State) (after : Option State) : List LogRecord :=
  match State.fetch before with
  | .error _ _ => []
  | .ok opcode _ =>
    let pc := before.pc
    match opcode.decode, after with
    | .ok _, none => [.executing pc opcode]
    | .ok i, some s =>
      .executing pc opcode ::
        (if i.operation = .register .waitKey ∧ s.pc = pc then [.waiting pc] else []) ++
          tickRecords resolution before s
    | .error _, none => []
    | .error r, some s => .skipped pc ⟨opcode, r⟩ :: tickRecords resolution before s

/-- The state that an action on a machine ended with, if it completed. -/
def completed? {α : Type} : EStateM.Result Error Machine α → Option State
  | .ok _ m => some m.state
  | .error _ _ => none

/-- A number of cycles with their records, added to `log`. -/
def runLogged (log : Array LogRecord) (m : Machine) :
    Nat → EStateM.Result Error Machine Unit × Array LogRecord
  | 0 => (.ok () m, log)
  | n + 1 =>
    let before := m.state
    let resolution := m.timerResolution
    match cycle m with
    | .ok _ m' => runLogged (log ++ cycleRecords resolution before (some m'.state)) m' n
    | .error e m' => (.error e m', log ++ cycleRecords resolution before none)

end Machine

end Chip8
