import Chip8.State

/-!
# Reading and writing the state

The actions from which everything else is made: bytes and entries by index, memory by address, the
program counter, loading. Three rules hold throughout.

* An index counts from the front, and a negative one from the back.
* An address counts modulo the size of memory, so there is one for every integer.
* Whatever can fail does so before it writes.
-/

set_option autoImplicit false

namespace Chip8

/-- Stops with a fault. -/
def State.Action.fault {α : Type} (f : Fault) : State.Action α := throw (.fault f)

/-- Stops with a misuse. -/
def State.Action.misuse {α : Type} (m : Misuse) : State.Action α := throw (.misuse m)

/-! ## Indices -/

/-- An index that a word of 64 bits can hold. -/
def indexFits : Int → Bool
  | .ofNat n => n < 0x8000000000000000
  | .negSucc n => n < 0x8000000000000000

/-- The place in a row of `size` entries that an index names, if there is one: from 0 on counted
from the front, below 0 from the back. -/
def place? (size : Nat) (i : Int) : Option Nat :=
  let fromFront := if i < 0 then i + size else i
  if 0 ≤ fromFront ∧ fromFront < size then some fromFront.toNat else none

/-- The place that an index names; `absent` says what kind of entry there is none of. -/
def placeOf (size : Nat) (i : Int) (absent : Misuse) : Except Misuse Nat :=
  if indexFits i then
    match place? size i with
    | some p => .ok p
    | none => .error absent
  else .error .indexTooWide

/-- How many entries a cut before index `i` leaves on its left. -/
def cutAt (size : Nat) (i : Int) : Nat :=
  if i < 0 then (i + size).toNat else min i.toNat size

/-- The byte that a number is, in two's complement and without its higher bits. -/
def byteOf (v : Int) : UInt8 := UInt8.ofNat (v % 256).toNat

namespace State

/-! ## Registers -/

/-- The register that an index names. -/
def readRegister (r : Int) : Action UInt8 := fun s =>
  match placeOf s.registers.size r .byteIndex with
  | .ok p => .ok (s.registers.getD p 0) s
  | .error m => .error (.misuse m) s

/-- Stores a number in the register that an index names. That the number is a byte is looked at
before that there is such a register. -/
def writeRegister (r v : Int) : Action Unit := fun s =>
  if !indexFits r then .error (.misuse .indexTooWide) s
  else if v < 0 ∨ 255 < v then .error (.misuse .notAByte) s
  else
    match placeOf s.registers.size r .byteIndex with
    | .ok p => .ok () { s with registers := s.registers.setIfInBounds p (byteOf v) }
    | .error m => .error (.misuse m) s

/-- The value of a register, for a host: the registers are those from 0 to 15. -/
def getRegister (r : Int) : Action UInt8 :=
  if 0 ≤ r ∧ r < registerCount then readRegister r else .misuse (.noSuchRegister r)

/-- Sets a register, for a host; of the number only the low eight bits count. -/
def setRegister (r v : Int) : Action Unit :=
  if 0 ≤ r ∧ r < registerCount then writeRegister r (byteOf v).toNat
  else .misuse (.noSuchRegister r)

/-! ## Memory -/

/-- The place in memory that an address names. -/
def addressPlace (a : Int) : Nat := (a % memorySize).toNat

def readMemory (a : Int) : Action UInt8 := fun s =>
  match s.memory[addressPlace a]? with
  | some b => .ok b s
  | none => .error (.misuse .byteIndex) s

/-- Stores a number in memory; only its low eight bits count. -/
def writeMemory (a v : Int) : Action Unit := fun s =>
  if addressPlace a < s.memory.size then
    .ok () { s with memory := s.memory.setIfInBounds (addressPlace a) (byteOf v) }
  else .error (.misuse .byteIndex) s

/-- The byte of memory that an index, not an address, names. -/
def byteAt (i : Int) : Action UInt8 := fun s =>
  match placeOf s.memory.size i .byteIndex with
  | .ok p => .ok (s.memory.getD p 0) s
  | .error m => .error (.misuse m) s

/-- Copies a program to the start of program memory, whole or not at all. -/
def load (program : Array UInt8) : Action Nat := fun s =>
  if program.size > maxProgramSize then
    .error (.fault (.programTooLarge program.size maxProgramSize)) s
  else
    .ok program.size
      { s with
        memory := s.memory.extract 0 programStart ++ program ++
          s.memory.extract (programStart + program.size) s.memory.size }

/-! ## Stack and keys -/

def readStack (i : Int) : Action Int := fun s =>
  match placeOf s.stack.size i .entryIndex with
  | .ok p => .ok (s.stack.getD p 0) s
  | .error m => .error (.misuse m) s

def writeStack (i v : Int) : Action Unit := fun s =>
  match placeOf s.stack.size i .entryWriteIndex with
  | .ok p => .ok () { s with stack := s.stack.setIfInBounds p v }
  | .error m => .error (.misuse m) s

/-- Whether a key is held. -/
def readKey (pin : Int) : Action Bool := fun s =>
  match placeOf s.keys.size pin .entryIndex with
  | .ok p => .ok (s.keys.getD p false) s
  | .error m => .error (.misuse m) s

/-- Presses or releases the key with an index. -/
def writeKey (pin : Int) (held : Bool) : Action Unit := fun s =>
  match placeOf s.keys.size pin .entryWriteIndex with
  | .ok p => .ok () { s with keys := s.keys.setIfInBounds p held }
  | .error m => .error (.misuse m) s

/-- The key with the lowest number of those that are held. -/
def heldKey? (s : State) : Option Nat := s.keys.findIdx? id

/-! ## The program counter -/

/-- The program counter moved by an amount, if that does not take it past the end of memory. -/
def nextPc (amount : Int) : Action Int := fun s =>
  if s.pc + amount ≥ memorySize then .error (.fault (.pcOutOfRange (s.pc + amount))) s
  else .ok (s.pc + amount) s

/-- Moves the program counter. -/
def advance (amount : Int) : Action Unit := do
  let pc ← nextPc amount
  modify fun s => { s with pc := pc }

/-- Sets the program counter to an address of memory. -/
def setPc (pc : Int) : Action Unit := fun s =>
  if 0 ≤ pc ∧ pc < memorySize then .ok () { s with pc := pc }
  else .error (.fault (.pcOutOfRange pc)) s

end State

end Chip8
