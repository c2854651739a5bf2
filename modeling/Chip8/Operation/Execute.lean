import Chip8.Operation.Arithmetic
import Chip8.Screen.Sprite
import Chip8.State.Access

/-!
# Execution

What each operation does to the state. A host may ask for an operation with operands that no
instruction word holds, or with none, so the operands are looked up one by one at the moment they
are needed; which of two failures is met first follows from that order, and so does what a failed
request leaves behind.

A program's instructions always have their operands. For them the order says that everything which
can fail comes before everything which writes: operations that write and go on look for the room to
go on first, and the others test before they touch the state.
-/

set_option autoImplicit false

namespace Chip8

/-- An operand that the operation needs. -/
def Operands.require (args : Operands) (o : Operand) : State.Action Int :=
  match args.get? o with
  | some v => pure v
  | none => .misuse (.missingOperand o.name)

namespace State

/-- Goes on to the next instruction, or past it if a condition holds. -/
def skipIf (condition : Bool) : Action Unit := advance (if condition then 4 else 2)

/-- A byte from the random source. -/
def drawByte : Action UInt8 := fun s =>
  let (b, source) := s.random.next
  .ok b { s with random := source }

def setFlag (flag : Bool) : Action Unit := writeRegister flagRegister (if flag then 1 else 0)

/-- The screen turned off; it counts as changed only if a pixel was on. -/
def clearScreen (s : State) : State :=
  if s.pixels.any id then
    { s with pixels := Array.replicate s.pixels.size false, redraw := true }
  else s

/-- `count` bytes of memory from an address on. -/
def readRows (a : Int) : Nat → Action (List UInt8)
  | 0 => pure []
  | n + 1 => do
    let row ← readMemory a
    let rows ← readRows (a + 1) n
    pure (row :: rows)

/-- Draws a sprite, and says whether it turned a pixel off. -/
def drawSprite (rows : List UInt8) (x y : Nat) : Action Bool := fun s =>
  let d := (Drawing.start s.pixels).flipAll (Sprite.cells rows x y)
  .ok d.collision { s with pixels := d.pixels, redraw := s.redraw || d.changed }

/-- Stores registers from `r` on in memory at the index, `count` of them. -/
def storeRegisters (r : Nat) : Nat → Action Unit
  | 0 => pure ()
  | n + 1 => do
    let v ← readRegister r
    let s ← get
    writeMemory (s.index + r) v.toNat
    storeRegisters (r + 1) n

/-- Loads registers from `r` on from memory at the index, `count` of them. -/
def loadRegisters (r : Nat) : Nat → Action Unit
  | 0 => pure ()
  | n + 1 => do
    let s ← get
    let v ← readMemory (s.index + r)
    writeRegister r v.toNat
    loadRegisters (r + 1) n

end State

open State

def AddressOp.perform (op : AddressOp) (args : Operands) : State.Action Unit :=
  match op with
  | .jump => do setPc (← args.require .addr)
  | .call => do
    let s ← get
    if s.sp ≥ stackSize then .fault (.stackOverflow s.pc)
    else
      writeStack s.sp (← nextPc 2)
      modify fun s => { s with sp := s.sp + 1 }
      setPc (← args.require .addr)
  | .loadIndex => do
    let addr ← args.require .addr
    modify fun s => { s with index := addr }
    advance 2
  | .jumpOffset => do
    let addr ← args.require .addr
    let offset ← readRegister 0
    setPc ((addr + offset.toNat) % memorySize)

def ImmediateOp.perform (op : ImmediateOp) (args : Operands) : State.Action Unit :=
  match op with
  | .skipEq => do
    let vx ← readRegister (← args.require .x)
    let value ← args.require .value
    skipIf (vx.toNat = value)
  | .skipNe => do
    let vx ← readRegister (← args.require .x)
    let value ← args.require .value
    skipIf (vx.toNat ≠ value)
  | .load => do
    let value ← args.require .value
    writeRegister (← args.require .x) value
    advance 2
  | .add => do
    let x ← args.require .x
    let vx ← readRegister x
    let value ← args.require .value
    writeRegister x (byteOf (vx.toNat + value)).toNat
    advance 2
  | .random => do
    let b ← drawByte
    let value ← args.require .value
    writeRegister (← args.require .x) (b &&& byteOf value).toNat
    advance 2

def PairOp.perform (op : PairOp) (args : Operands) : State.Action Unit :=
  match op with
  | .skipEq => do
    let vx ← readRegister (← args.require .x)
    let vy ← readRegister (← args.require .y)
    skipIf (vx = vy)
  | .skipNe => do
    let vx ← readRegister (← args.require .x)
    let vy ← readRegister (← args.require .y)
    skipIf (vx ≠ vy)
  | .load => do
    let vy ← readRegister (← args.require .y)
    writeRegister (← args.require .x) vy.toNat
    advance 2
  | op => do
    let x ← args.require .x
    let vx ← readRegister x
    let vy ← readRegister (← args.require .y)
    let (result, flag) := op.compute vx vy
    writeRegister x (byteOf result).toNat
    match flag with
    | some f => setFlag f
    | none => pure ()
    advance 2

/-- Draws the sprite at the index with its corner where two registers say. -/
def Operation.performDraw (args : Operands) : State.Action Unit := do
  let x ← readRegister (← args.require .x)
  let y ← readRegister (← args.require .y)
  let n ← args.require .n
  let s ← get
  let rows ← readRows s.index n.toNat
  let collision ← drawSprite rows x.toNat y.toNat
  setFlag collision
  advance 2

def RegisterOp.perform (op : RegisterOp) (args : Operands) : State.Action Unit :=
  match op with
  | .skipPressed => do
    let vx ← readRegister (← args.require .x)
    skipIf (← readKey (vx &&& 0xF).toNat)
  | .skipReleased => do
    let vx ← readRegister (← args.require .x)
    skipIf !(← readKey (vx &&& 0xF).toNat)
  | .readDelay => do
    let s ← get
    writeRegister (← args.require .x) s.delayTimer
    advance 2
  | .waitKey => do
    let s ← get
    match s.heldKey? with
    | none => pure ()
    | some pin =>
      advance 2
      writeRegister (← args.require .x) pin
  | .setDelay => do
    let vx ← readRegister (← args.require .x)
    modify fun s => { s with delayTimer := vx.toNat }
    advance 2
  | .setSound => do
    let vx ← readRegister (← args.require .x)
    modify fun s => { s with soundTimer := vx.toNat }
    advance 2
  | .addIndex => do
    let vx ← readRegister (← args.require .x)
    modify fun s => { s with index := (s.index + vx.toNat) % 0x10000 }
    advance 2
  | .loadGlyph => do
    let vx ← readRegister (← args.require .x)
    if vx > 0xF then .fault (.invalidCharacter vx.toNat)
    else
      modify fun s => { s with index := fontStart + vx.toNat * glyphSize }
      advance 2
  | .storeDecimal => do
    let vx ← readRegister (← args.require .x)
    let s ← get
    writeMemory s.index (vx.toNat / 100 : Nat)
    writeMemory (s.index + 1) (vx.toNat / 10 % 10 : Nat)
    writeMemory (s.index + 2) (vx.toNat % 10 : Nat)
    advance 2
  | .storeRegisters => do
    let x ← args.require .x
    State.storeRegisters 0 (x + 1).toNat
    advance 2
  | .loadRegisters => do
    let x ← args.require .x
    State.loadRegisters 0 (x + 1).toNat
    advance 2

namespace Operation

/-- What an operation does, the test for room to go on apart. -/
def perform (op : Operation) (args : Operands) : State.Action Unit :=
  match op with
  | .clear => do
    modify clearScreen
    advance 2
  | .ret => do
    let s ← get
    if s.sp = 0 then .fault (.stackUnderflow s.pc)
    else
      let target := (← readStack (s.sp - 1)) + 2
      if target ≥ memorySize then .fault (.pcOutOfRange target)
      else
        modify fun s => { s with sp := s.sp - 1 }
        setPc target
  | .address op => op.perform args
  | .immediate op => op.perform args
  | .pair op => op.perform args
  | .draw => performDraw args
  | .register op => op.perform args
  | .invalid => do
    let s ← get
    .fault (.unknownOpcode (args.raw.getD 0) s.pc (args.reason.getD ""))

/-- Carries out an operation. -/
def execute (op : Operation) (args : Operands) : State.Action Unit :=
  if op.fallsThrough then do
    let _ ← nextPc 2
    op.perform args
  else op.perform args

end Operation

end Chip8
