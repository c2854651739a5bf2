import Chip8.Proofs.Host.CallStack

/-!
# States that look the same

What a program cannot see of the state is said by two states that differ there. A `Blur` lists parts
of the state in which they may differ, and `Blur.Same` says that they do not differ anywhere else.

> **Two states that look the same still do after an instruction** (`Blur.Same.effect`),

and the instruction fails on both or on neither, with the same fault. This is shown for all blurs at
once: whatever is read from one state has its equal in the other. Keys are the exception. If they
may differ, then a key that the instruction asks for has to be looked at
(`Instruction.KeysAlike`).
-/

set_option autoImplicit false

namespace Chip8

open State

/-- Parts of the state in which two states may differ. -/
structure Blur where
  /-- The index, as long as it makes the same address. -/
  index : Bool := false
  /-- The entries of the stack that are not in use. -/
  stack : Bool := false
  keys : Bool := false
  redraw : Bool := false
  soundTimer : Bool := false
  cycleCount : Bool := false

/-- The two states differ in what is blurred at most. -/
structure Blur.Same (b : Blur) (s t : State) : Prop where
  memory : t.memory = s.memory
  registers : t.registers = s.registers
  index_mod : t.index % memorySize = s.index % memorySize
  index : b.index = false → t.index = s.index
  pc : t.pc = s.pc
  sp : t.sp = s.sp
  inUse : t.inUse = s.inUse
  stack : b.stack = false → t.stack = s.stack
  delayTimer : t.delayTimer = s.delayTimer
  soundTimer : b.soundTimer = false → t.soundTimer = s.soundTimer
  keys : b.keys = false → t.keys = s.keys
  pixels : t.pixels = s.pixels
  sinceTick : t.sinceTick = s.sinceTick
  redraw : b.redraw = false → t.redraw = s.redraw
  cycleCount : b.cycleCount = false → t.cycleCount = s.cycleCount
  random : t.random = s.random

/-- If the instruction asks for a key, it gets the same answer in both states. -/
def Instruction.KeysAlike (i : Instruction) (s t : State) : Prop :=
  match i with
  | .register .skipPressed x | .register .skipReleased x =>
    t.held (t.keyIn x) = s.held (s.keyIn x)
  | .register .waitKey _ => t.heldKey? = s.heldKey?
  | _ => True

theorem Instruction.KeysAlike.of_eq {s t : State} (hkeys : t.keys = s.keys)
    (hregisters : t.registers = s.registers) (i : Instruction) : i.KeysAlike s t := by
  unfold KeysAlike
  split
  · rw [held, held, keyIn, keyIn, reg, reg, hkeys, hregisters]
  · rw [held, held, keyIn, keyIn, reg, reg, hkeys, hregisters]
  · rw [heldKey?, heldKey?, hkeys]
  · trivial

namespace Blur.Same

variable {b : Blur} {s t : State}

theorem refl (b : Blur) (s : State) : b.Same s s where
  memory := rfl
  registers := rfl
  index_mod := rfl
  index _ := rfl
  pc := rfl
  sp := rfl
  inUse := rfl
  stack _ := rfl
  delayTimer := rfl
  soundTimer _ := rfl
  keys _ := rfl
  pixels := rfl
  sinceTick := rfl
  redraw _ := rfl
  cycleCount _ := rfl
  random := rfl

/-- The one state is the other with another value in each field that a blur can speak of. -/
theorem eq_with (h : b.Same s t) : t =
    { s with
      index := t.index
      stack := t.stack
      soundTimer := t.soundTimer
      keys := t.keys
      redraw := t.redraw
      cycleCount := t.cycleCount } := by
  rw [← h.memory, ← h.registers, ← h.pc, ← h.sp, ← h.delayTimer, ← h.pixels, ← h.sinceTick,
    ← h.random]

/-! ## What is read -/

theorem reg (h : b.Same s t) (x : Nat) : t.reg x = s.reg x := by
  rw [State.reg, State.reg, h.registers]

theorem byte (h : b.Same s t) (a : Int) : t.byte a = s.byte a := by
  rw [State.byte, State.byte, h.memory]

theorem opcode (h : b.Same s t) : t.opcode = s.opcode := by
  rw [State.opcode, State.opcode, State.word, State.word, h.byte, h.byte, h.pc]

theorem addressPlace (h : b.Same s t) (k : Int) :
    addressPlace (t.index + k) = addressPlace (s.index + k) := by
  rw [State.addressPlace, State.addressPlace, Int.add_emod, h.index_mod, ← Int.add_emod]

theorem byte_index (h : b.Same s t) (k : Int) : t.byte (t.index + k) = s.byte (s.index + k) := by
  rw [State.byte, State.byte, h.addressPlace, h.memory]

theorem drawing (h : b.Same s t) (x y n : Nat) : t.drawing x y n = s.drawing x y n := by
  simp only [State.drawing, spriteAt, h.byte_index, h.pixels, h.reg]

theorem returnAddress (h : b.Same s t) (hs : s.Valid) (hsp : s.sp ≠ 0) :
    t.returnAddress = s.returnAddress := by
  have hlt : (s.sp - 1).toNat < s.sp.toNat := by
    have hnonneg := hs.sp_mem.1
    omega
  have hlt' : (s.sp - 1).toNat < t.sp.toNat := by rw [h.sp]; exact hlt
  have hentry := congrArg (·[(s.sp - 1).toNat]?) h.inUse
  simp only [State.inUse, List.getElem?_take_of_lt hlt, List.getElem?_take_of_lt hlt'] at hentry
  simp only [State.returnAddress, h.sp, Array.getD_eq_getD_getElem?, ← Array.getElem?_toList,
    hentry]

/-! ## What is written -/

theorem setReg (h : b.Same s t) (x : Nat) {v w : UInt8} (hv : w = v) :
    b.Same (s.setReg x v) (t.setReg x w) :=
  { h with registers := by rw [State.setReg, State.setReg, h.registers, hv] }

theorem setByte (h : b.Same s t) (k : Int) {v w : UInt8} (hv : w = v) :
    b.Same (s.setByte (s.index + k) v) (t.setByte (t.index + k) w) :=
  { h with memory := by rw [State.setByte, State.setByte, h.addressPlace, h.memory, hv] }

theorem storeBlock (n : Nat) : ∀ {s t : State} (r : Nat), b.Same s t →
    b.Same (s.storeBlock r n) (t.storeBlock r n) := by
  induction n with
  | zero =>
    intro s t r h
    exact h
  | succ n ih =>
    intro s t r h
    exact ih (r + 1) (h.setByte r (h.reg r))

theorem loadBlock (n : Nat) : ∀ {s t : State} (r : Nat), b.Same s t →
    b.Same (s.loadBlock r n) (t.loadBlock r n) := by
  induction n with
  | zero =>
    intro s t r h
    exact h
  | succ n ih =>
    intro s t r h
    exact ih (r + 1) (h.setReg r (h.byte_index r))

theorem clearScreen (h : b.Same s t) : b.Same s.clearScreen t.clearScreen := by
  rw [State.clearScreen, State.clearScreen, h.pixels]
  split
  · exact { h with pixels := rfl, redraw := fun _ => rfl }
  · exact h

theorem writeDrawing (h : b.Same s t) (d : Drawing) :
    b.Same (s.writeDrawing d) (t.writeDrawing d) := by
  have hdrawn : b.Same { s with pixels := d.pixels, redraw := s.redraw || d.changed }
      { t with pixels := d.pixels, redraw := t.redraw || d.changed } :=
    { h with pixels := rfl, redraw := fun hb => by rw [h.redraw hb] }
  exact hdrawn.setReg _ rfl

/-! ## Instructions -/

theorem address_write (h : b.Same s t) (hs : s.Valid) (ht : t.Valid) {op : AddressOp}
    {addr : Fin 4096} (hf : (Instruction.address op addr).fault? s = none) :
    b.Same (op.write addr s) (op.write addr t) := by
  cases op with
  | jump | jumpOffset => exact h
  | loadIndex => exact { h with index_mod := rfl, index := fun _ => rfl }
  | call =>
    obtain ⟨hfull, -⟩ := Instruction.of_fault?_call hf
    have hfull' : t.sp ≠ stackSize := by rw [h.sp]; exact hfull
    refine { h with sp := ?_, inUse := ?_, stack := fun hb => ?_ }
    · exact congrArg (· + 1) h.sp
    · rw [AddressOp.write, AddressOp.write, inUse_push hs hfull, inUse_push ht hfull', h.inUse,
        h.pc]
    · rw [AddressOp.write, AddressOp.write, h.stack hb, h.sp, h.pc]

theorem immediate_write (h : b.Same s t) (op : ImmediateOp) (x : Nibble) (value : Fin 256) :
    b.Same (op.write x value s) (op.write x value t) := by
  cases op with
  | skipEq | skipNe => exact h
  | load => exact h.setReg x rfl
  | add => exact h.setReg x (by rw [h.reg])
  | random =>
    have hdrawn : b.Same { s with random := s.random.next.2 }
        { t with random := t.random.next.2 } :=
      { h with random := by rw [h.random] }
    exact hdrawn.setReg x (by rw [h.random])

theorem pair_write (h : b.Same s t) (op : PairOp) (x y : Nibble) :
    b.Same (op.write x y s) (op.write x y t) := by
  rw [PairOp.write.eq_def, PairOp.write.eq_def, h.reg, h.reg]
  split
  · exact h
  · exact h
  · dsimp only
    split
    · exact (h.setReg x rfl).setReg _ rfl
    · exact h.setReg x rfl

theorem register_write (h : b.Same s t) {op : RegisterOp} {x : Nibble}
    (hk : (Instruction.register op x).KeysAlike s t) : b.Same (op.write x s) (op.write x t) := by
  cases op with
  | skipPressed | skipReleased => exact h
  | readDelay => exact h.setReg x (by rw [h.delayTimer])
  | waitKey =>
    have hk : t.heldKey? = s.heldKey? := hk
    rw [RegisterOp.write, RegisterOp.write, hk]
    cases s.heldKey? with
    | none => exact h
    | some pin => exact h.setReg x rfl
  | setDelay => exact { h with delayTimer := by rw [RegisterOp.write, RegisterOp.write, h.reg] }
  | setSound =>
    exact { h with soundTimer := fun _ => by rw [RegisterOp.write, RegisterOp.write, h.reg] }
  | addIndex =>
    have hreg := h.reg x
    have hmod := h.index_mod
    refine { h with index_mod := ?_, index := fun hb => ?_ }
    · simp only [RegisterOp.write, hreg, memorySize] at hmod ⊢
      omega
    · rw [RegisterOp.write, RegisterOp.write, hreg, h.index hb]
  | loadGlyph =>
    have hindex : (RegisterOp.loadGlyph.write x t).index =
        (RegisterOp.loadGlyph.write x s).index := by
      rw [RegisterOp.write, RegisterOp.write, h.reg]
    exact { h with index_mod := by rw [hindex], index := fun _ => hindex }
  | storeDecimal =>
    rw [RegisterOp.write, RegisterOp.write, h.reg]
    have hfirst := h.setByte 0 (v := byteOf ((s.reg x).toNat / 100 : Nat)) rfl
    rw [Int.add_zero, Int.add_zero] at hfirst
    exact (hfirst.setByte 1 rfl).setByte 2 rfl
  | storeRegisters => exact h.storeBlock _ 0
  | loadRegisters => exact h.loadBlock _ 0

variable {i : Instruction}

theorem skips (h : b.Same s t) (hk : i.KeysAlike s t) : i.skips t = i.skips s := by
  cases i with
  | clear | ret | address | draw => rfl
  | immediate op x value =>
    cases op with
    | skipEq | skipNe => simp only [Instruction.skips, h.reg]
    | load | add | random => rfl
  | pair op x y =>
    cases op with
    | skipEq | skipNe => simp only [Instruction.skips, h.reg]
    | load | or | and | xor | add | sub | shr | subn | shl => rfl
  | register op x =>
    cases op with
    | skipPressed => exact hk
    | skipReleased => exact congrArg (!·) hk
    | readDelay | waitKey | setDelay | setSound | addIndex | loadGlyph | storeDecimal
    | storeRegisters | loadRegisters => rfl

theorem any_keys {x : Nibble} (hk : (Instruction.register .waitKey x).KeysAlike s t) :
    t.keys.any id = s.keys.any id := by
  have hk : t.heldKey? = s.heldKey? := hk
  cases hs : s.heldKey? with
  | none => rw [heldKey?_none hs, heldKey?_none (hk.trans hs)]
  | some pin => rw [(heldKey?_some hs).1, (heldKey?_some (hk.trans hs)).1]

/-- An instruction fails on both states or on neither. -/
theorem fault? (h : b.Same s t) (hs : s.Valid) (hk : i.KeysAlike s t) :
    i.fault? t = i.fault? s := by
  have hgo : overrun? (t.pc + stride (i.skips t)) = overrun? (s.pc + stride (i.skips s)) := by
    rw [h.pc, h.skips hk]
  cases i with
  | clear | immediate | pair | draw => exact hgo
  | ret =>
    rw [Instruction.fault?, Instruction.fault?, h.sp, h.pc]
    by_cases hempty : s.sp = 0
    · rw [if_pos hempty, if_pos hempty]
    · rw [if_neg hempty, if_neg hempty, h.returnAddress hs hempty]
  | address op addr =>
    cases op with
    | jump | jumpOffset => rfl
    | call => rw [Instruction.fault?, Instruction.fault?, h.sp, h.pc]
    | loadIndex => exact hgo
  | register op x =>
    cases op with
    | waitKey => rw [Instruction.fault?, Instruction.fault?, any_keys hk, h.pc]
    | loadGlyph => rw [Instruction.fault?, Instruction.fault?, h.pc, h.reg]
    | skipPressed | skipReleased | readDelay | setDelay | setSound | addIndex | storeDecimal
    | storeRegisters | loadRegisters => exact hgo

theorem target (h : b.Same s t) (hs : s.Valid) (hk : i.KeysAlike s t) (hf : i.fault? s = none) :
    i.target t = i.target s := by
  have hgo : t.pc + stride (i.skips t) = s.pc + stride (i.skips s) := by rw [h.pc, h.skips hk]
  cases i with
  | clear | immediate | pair | draw => exact hgo
  | ret =>
    obtain ⟨hempty, -⟩ := Instruction.of_fault?_ret hf
    rw [Instruction.target, Instruction.target, h.returnAddress hs hempty]
  | address op addr =>
    cases op with
    | jump | call => rfl
    | jumpOffset => rw [Instruction.target, Instruction.target, h.reg]
    | loadIndex => exact hgo
  | register op x =>
    cases op with
    | waitKey => rw [Instruction.target, Instruction.target, any_keys hk, h.pc]
    | loadGlyph | skipPressed | skipReleased | readDelay | setDelay | setSound | addIndex
    | storeDecimal | storeRegisters | loadRegisters => exact hgo

theorem write (h : b.Same s t) (hs : s.Valid) (ht : t.Valid) (hk : i.KeysAlike s t)
    (hf : i.fault? s = none) : b.Same (i.write s) (i.write t) := by
  cases i with
  | clear => exact h.clearScreen
  | ret =>
    have hsp : t.sp - 1 = s.sp - 1 := congrArg (· - 1) h.sp
    refine { h with sp := hsp, inUse := ?_ }
    rw [Instruction.write, Instruction.write, inUse_pop hs, inUse_pop ht, h.inUse]
  | address op addr => exact h.address_write hs ht hf
  | immediate op x value => exact h.immediate_write op x value
  | pair op x y => exact h.pair_write op x y
  | draw x y n =>
    rw [Instruction.write, Instruction.write, h.drawing]
    exact h.writeDrawing _
  | register op x => exact h.register_write hk

/-- **Two states that look the same still do after an instruction.** -/
theorem effect (h : b.Same s t) (hs : s.Valid) (ht : t.Valid) (hk : i.KeysAlike s t)
    (hf : i.fault? s = none) : b.Same (i.effect s) (i.effect t) :=
  { h.write hs ht hk hf with pc := h.target hs hk hf }

/-! ## Time -/

theorem tickTimers (h : b.Same s t) (resolution : Int) :
    b.Same (s.tickTimers resolution) (t.tickTimers resolution) := by
  rw [State.tickTimers, State.tickTimers, h.sinceTick]
  split
  · exact { h with sinceTick := rfl }
  · exact { h with
      sinceTick := rfl
      delayTimer := by rw [h.delayTimer]
      soundTimer := fun hb => by rw [h.soundTimer hb] }

theorem countCycle (h : b.Same s t) : b.Same s.countCycle t.countCycle :=
  { h with cycleCount := fun hb => by rw [State.countCycle, State.countCycle, h.cycleCount hb] }

end Blur.Same

end Chip8
