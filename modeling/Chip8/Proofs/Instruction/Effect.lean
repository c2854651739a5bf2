import Chip8.Proofs.State.Action

/-!
# The instruction table as functions of the state

What an instruction does, written down a second time and without actions. There is no order of steps
here and nothing that fails half-way; an instruction has three sides, each a function of the state
before it:

* `Instruction.fault?` — the fault that it ends in, if it does;
* `Instruction.target` — where the machine goes on if it does not;
* `Instruction.write` — everything else that it changes.

`Instruction.effect` is the last two together. That the handlers do just this on a valid state is
`Instruction.execute_eq` (`Chip8.Proofs.Instruction.Execute`); whatever is said about instructions
after that is said about these functions, so that no proof runs through a handler twice.
-/

set_option autoImplicit false

namespace Chip8

/-- The fault of going on at a place that is past the end of memory. -/
def overrun? (pc : Int) : Option Fault :=
  if pc < memorySize then none else some (.pcOutOfRange pc)

/-- The way past one instruction, or past two. -/
def stride (two : Bool) : Int := if two then 4 else 2

namespace State

/-- The key whose number is in a register; only the lowest four bits count. -/
def keyIn (s : State) (x : Nat) : Nat := (s.reg x).toNat % 16

/-- The flag register set or cleared. -/
def flagged (s : State) (flag : Bool) : State := s.setReg flagRegister (if flag then 1 else 0)

/-- The bytes of a sprite of `n` rows at an address. -/
def spriteAt (s : State) (a : Int) (n : Nat) : List UInt8 :=
  (List.range n).map fun (r : Nat) => s.byte (a + r)

/-- The screen after a sprite at the index has been drawn with its corner at two registers. -/
def drawing (s : State) (x y n : Nat) : Drawing :=
  (Drawing.start s.pixels).flipAll
    (Sprite.cells (s.spriteAt s.index n) (s.reg x).toNat (s.reg y).toNat)

/-- `n` registers from `r` on stored in memory, register 0 at the index. -/
def storeBlock (s : State) (r n : Nat) : State :=
  (List.range' r n).foldl (fun s (k : Nat) => s.setByte (s.index + k) (s.reg k)) s

/-- `n` registers from `r` on loaded from memory, register 0 from the index. -/
def loadBlock (s : State) (r n : Nat) : State :=
  (List.range' r n).foldl (fun s (k : Nat) => s.setReg k (s.byte (s.index + k))) s

/-- Storing a block writes memory and nothing else, and does not resize it. -/
theorem storeBlock_frame (n : Nat) : ∀ (s : State) (r : Nat), ∃ memory : Array UInt8,
    memory.size = s.memory.size ∧ s.storeBlock r n = { s with memory := memory } := by
  induction n with
  | zero => intro s r; exact ⟨s.memory, rfl, rfl⟩
  | succ n ih =>
    intro s r
    -- the index is read again for each register, but storing does not move it
    obtain ⟨memory, hsize, heq⟩ := ih (s.setByte (s.index + r) (s.reg r)) (r + 1)
    exact ⟨memory, hsize.trans (setByte_memory_size _ _ _), heq⟩

/-- Loading a block writes registers and nothing else. -/
theorem loadBlock_frame (n : Nat) : ∀ (s : State) (r : Nat), ∃ registers : Array UInt8,
    registers.size = s.registers.size ∧ s.loadBlock r n = { s with registers := registers } := by
  induction n with
  | zero => intro s r; exact ⟨s.registers, rfl, rfl⟩
  | succ n ih =>
    intro s r
    obtain ⟨registers, hsize, heq⟩ := ih (s.setReg r (s.byte (s.index + r))) (r + 1)
    exact ⟨registers, hsize.trans (setReg_registers_size _ _ _), heq⟩

end State

/-! ## What is written -/

def AddressOp.write (op : AddressOp) (addr : Fin 4096) (s : State) : State :=
  match op with
  | .jump | .jumpOffset => s
  | .call => { s with stack := s.stack.setIfInBounds s.sp.toNat (s.pc + 2), sp := s.sp + 1 }
  | .loadIndex => { s with index := addr.val }

def ImmediateOp.write (op : ImmediateOp) (x : Nibble) (value : Fin 256) (s : State) : State :=
  match op with
  | .skipEq | .skipNe => s
  | .load => s.setReg x (byteOf value.val)
  | .add => s.setReg x (byteOf ((s.reg x).toNat + value.val))
  | .random =>
    { s with random := s.random.next.2 }.setReg x (s.random.next.1 &&& byteOf value.val)

/-- The flag, where there is one, is written after the result and so stays if both go to the same
register. -/
def PairOp.write (op : PairOp) (x y : Nibble) (s : State) : State :=
  match op with
  | .skipEq | .skipNe => s
  | op =>
    let result := op.compute (s.reg x) (s.reg y)
    match result.2 with
    | some flag => (s.setReg x (byteOf result.1)).flagged flag
    | none => s.setReg x (byteOf result.1)

def State.writeDrawing (s : State) (d : Drawing) : State :=
  { s with pixels := d.pixels, redraw := s.redraw || d.changed }.flagged d.collision

def RegisterOp.write (op : RegisterOp) (x : Nibble) (s : State) : State :=
  match op with
  | .skipPressed | .skipReleased => s
  | .readDelay => s.setReg x (byteOf s.delayTimer)
  | .waitKey =>
    match s.heldKey? with
    | some pin => s.setReg x (byteOf pin)
    | none => s
  | .setDelay => { s with delayTimer := (s.reg x).toNat }
  | .setSound => { s with soundTimer := (s.reg x).toNat }
  | .addIndex => { s with index := (s.index + (s.reg x).toNat) % 0x10000 }
  | .loadGlyph => { s with index := fontStart + (s.reg x).toNat * glyphSize }
  | .storeDecimal =>
    ((s.setByte s.index (byteOf ((s.reg x).toNat / 100 : Nat))).setByte (s.index + 1)
      (byteOf ((s.reg x).toNat / 10 % 10 : Nat))).setByte (s.index + 2)
        (byteOf ((s.reg x).toNat % 10 : Nat))
  | .storeRegisters => s.storeBlock 0 (x.val + 1)
  | .loadRegisters => s.loadBlock 0 (x.val + 1)

namespace Instruction

/-- Everything but the program counter. -/
def write (i : Instruction) (s : State) : State :=
  match i with
  | .clear => s.clearScreen
  | .ret => { s with sp := s.sp - 1 }
  | .address op addr => op.write addr s
  | .immediate op x value => op.write x value s
  | .pair op x y => op.write x y s
  | .draw x y n => s.writeDrawing (s.drawing x y n)
  | .register op x => op.write x s

/-! ## Where the machine goes on -/

/-- Whether the instruction passes over the one after it. -/
def skips (i : Instruction) (s : State) : Bool :=
  match i with
  | .immediate .skipEq x value => (s.reg x).toNat = value.val
  | .immediate .skipNe x value => (s.reg x).toNat ≠ value.val
  | .pair .skipEq x y => s.reg x = s.reg y
  | .pair .skipNe x y => s.reg x ≠ s.reg y
  | .register .skipPressed x => s.held (s.keyIn x)
  | .register .skipReleased x => !s.held (s.keyIn x)
  | _ => false

/-- The program counter after the instruction. -/
def target (i : Instruction) (s : State) : Int :=
  match i with
  | .ret => s.returnAddress + 2
  | .address .jump addr | .address .call addr => addr.val
  | .address .jumpOffset addr => (addr.val + (s.reg 0).toNat) % memorySize
  | .register .waitKey _ => if s.keys.any id then s.pc + 2 else s.pc
  | i => s.pc + stride (i.skips s)

/-! ## What can go wrong -/

/-- The fault an instruction ends in. Of two that are there at once the one that comes first here
counts: a call too deep is that even at the end of memory, and at the end of memory a glyph is not
looked for. -/
def fault? (i : Instruction) (s : State) : Option Fault :=
  match i with
  | .ret => if s.sp = 0 then some (.stackUnderflow s.pc) else overrun? (s.returnAddress + 2)
  | .address .jump _ | .address .jumpOffset _ => none
  | .address .call _ =>
    if s.sp = stackSize then some (.stackOverflow s.pc) else overrun? (s.pc + 2)
  | .register .waitKey _ => if s.keys.any id then overrun? (s.pc + 2) else none
  | .register .loadGlyph x =>
    match overrun? (s.pc + 2) with
    | some f => some f
    | none => if s.reg x > 0xF then some (.invalidCharacter (s.reg x).toNat) else none
  | i => overrun? (s.pc + stride (i.skips s))

/-- The state after an instruction that does not fail. -/
def effect (i : Instruction) (s : State) : State := { i.write s with pc := i.target s }

end Instruction

end Chip8
