import Chip8.Proofs.Instruction.Execute

/-!
# What instructions leave alone

`State.Keeps s s'` says that a change from `s` to `s'` stays inside the frame of the machine: no
array is resized, the numbers that were in range still are, and program counter, stack, keys and
counters are the same. Nearly every write of an instruction is of this kind, and the relation is
transitive, so it is proved for the two smallest writes (`setReg_keeps`, `setByte_keeps`) and then
put together as the writes are.

Two instructions are outside it. A call and a return move the stack, and what they do to it is short
enough to be looked at directly.

`Instruction.effect_valid` is what this is for: an instruction that does not fail takes a valid
state to a valid state.
-/

set_option autoImplicit false

namespace Chip8

open State

/-- A change that leaves the frame of the machine as it was. -/
structure State.Keeps (s s' : State) : Prop where
  memory_size : s'.memory.size = s.memory.size
  registers_size : s'.registers.size = s.registers.size
  pixels_size : s'.pixels.size = s.pixels.size
  index_mem : 0 ≤ s.index ∧ s.index ≤ 0xFFFF → 0 ≤ s'.index ∧ s'.index ≤ 0xFFFF
  delayTimer_mem : 0 ≤ s.delayTimer ∧ s.delayTimer ≤ 0xFF →
    0 ≤ s'.delayTimer ∧ s'.delayTimer ≤ 0xFF
  soundTimer_mem : 0 ≤ s.soundTimer ∧ s.soundTimer ≤ 0xFF →
    0 ≤ s'.soundTimer ∧ s'.soundTimer ≤ 0xFF
  pc : s'.pc = s.pc
  stack : s'.stack = s.stack
  sp : s'.sp = s.sp
  keys : s'.keys = s.keys
  sinceTick : s'.sinceTick = s.sinceTick
  cycleCount : s'.cycleCount = s.cycleCount

namespace State

theorem Keeps.refl (s : State) : Keeps s s :=
  ⟨rfl, rfl, rfl, id, id, id, rfl, rfl, rfl, rfl, rfl, rfl⟩

theorem Keeps.trans {s t u : State} (h : Keeps s t) (h' : Keeps t u) : Keeps s u :=
  ⟨h'.memory_size.trans h.memory_size, h'.registers_size.trans h.registers_size,
    h'.pixels_size.trans h.pixels_size, h'.index_mem ∘ h.index_mem,
    h'.delayTimer_mem ∘ h.delayTimer_mem, h'.soundTimer_mem ∘ h.soundTimer_mem,
    h'.pc.trans h.pc, h'.stack.trans h.stack, h'.sp.trans h.sp, h'.keys.trans h.keys,
    h'.sinceTick.trans h.sinceTick, h'.cycleCount.trans h.cycleCount⟩

theorem Keeps.valid {s s' : State} (h : Keeps s s') (hs : s.Valid) : s'.Valid where
  memory_size := h.memory_size.trans hs.memory_size
  registers_size := h.registers_size.trans hs.registers_size
  stack_size := by rw [h.stack]; exact hs.stack_size
  keys_size := by rw [h.keys]; exact hs.keys_size
  pixels_size := h.pixels_size.trans hs.pixels_size
  pc_mem := by rw [h.pc]; exact hs.pc_mem
  sp_mem := by rw [h.sp]; exact hs.sp_mem
  index_mem := h.index_mem hs.index_mem
  delayTimer_mem := h.delayTimer_mem hs.delayTimer_mem
  soundTimer_mem := h.soundTimer_mem hs.soundTimer_mem
  stack_mem := by rw [h.stack]; exact hs.stack_mem
  cycleCount_nonneg := by rw [h.cycleCount]; exact hs.cycleCount_nonneg

/-! ## The writes -/

theorem setReg_keeps (s : State) (x : Nat) (v : UInt8) : Keeps s (s.setReg x v) :=
  { Keeps.refl s with registers_size := setReg_registers_size s x v }

theorem setByte_keeps (s : State) (a : Int) (v : UInt8) : Keeps s (s.setByte a v) :=
  { Keeps.refl s with memory_size := setByte_memory_size s a v }

theorem clearScreen_keeps (s : State) : Keeps s s.clearScreen := by
  rw [clearScreen]
  split
  · exact { Keeps.refl s with pixels_size := Array.size_replicate }
  · exact Keeps.refl s

theorem storeBlock_keeps (s : State) (r n : Nat) : Keeps s (s.storeBlock r n) := by
  obtain ⟨memory, hsize, heq⟩ := storeBlock_frame n s r
  rw [heq]
  exact { Keeps.refl s with memory_size := hsize }

theorem loadBlock_keeps (s : State) (r n : Nat) : Keeps s (s.loadBlock r n) := by
  obtain ⟨registers, hsize, heq⟩ := loadBlock_frame n s r
  rw [heq]
  exact { Keeps.refl s with registers_size := hsize }

end State

theorem Drawing.flipAll_size (ps : List Nat) :
    ∀ d : Drawing, (d.flipAll ps).pixels.size = d.pixels.size := by
  induction ps with
  | nil => intro d; rfl
  | cons p ps ih =>
    intro d
    have hflip : (d.flip p).pixels.size = d.pixels.size := Array.size_modify
    exact (ih (d.flip p)).trans hflip

theorem State.writeDrawing_keeps (s : State) (x y n : Nat) :
    Keeps s (s.writeDrawing (s.drawing x y n)) := by
  have hpixels : (s.drawing x y n).pixels.size = s.pixels.size := Drawing.flipAll_size _ _
  have hdrawn : Keeps s { s with
      pixels := (s.drawing x y n).pixels, redraw := s.redraw || (s.drawing x y n).changed } :=
    { Keeps.refl s with pixels_size := hpixels }
  exact hdrawn.trans (setReg_keeps _ _ _)

theorem ImmediateOp.write_keeps (op : ImmediateOp) (x : Nibble) (value : Fin 256) (s : State) :
    Keeps s (op.write x value s) := by
  cases op with
  | skipEq | skipNe => exact Keeps.refl s
  | load | add => exact setReg_keeps s _ _
  | random =>
    have hdrawn : Keeps s { s with random := s.random.next.2 } := { Keeps.refl s with }
    exact hdrawn.trans (setReg_keeps _ _ _)

theorem PairOp.write_keeps (op : PairOp) (x y : Nibble) (s : State) :
    Keeps s (op.write x y s) := by
  rw [PairOp.write.eq_def]
  split
  · exact Keeps.refl s
  · exact Keeps.refl s
  · dsimp only
    split
    · exact (setReg_keeps s _ _).trans (setReg_keeps _ _ _)
    · exact setReg_keeps s _ _

theorem RegisterOp.write_keeps (op : RegisterOp) (x : Nibble) (s : State) :
    Keeps s (op.write x s) := by
  have hx : (s.reg x).toNat < 256 := (s.reg x).toNat_lt
  have hbyte : 0 ≤ ((s.reg x).toNat : Int) ∧ ((s.reg x).toNat : Int) ≤ 0xFF := by omega
  cases op with
  | skipPressed | skipReleased => exact Keeps.refl s
  | readDelay => exact setReg_keeps s _ _
  | waitKey =>
    rw [RegisterOp.write]
    split
    · exact setReg_keeps s _ _
    · exact Keeps.refl s
  | setDelay => exact { Keeps.refl s with delayTimer_mem := fun _ => hbyte }
  | setSound => exact { Keeps.refl s with soundTimer_mem := fun _ => hbyte }
  | addIndex =>
    have hsum : 0 ≤ (s.index + (s.reg x).toNat) % 0x10000 ∧
        (s.index + (s.reg x).toNat) % 0x10000 ≤ 0xFFFF := by omega
    exact { Keeps.refl s with index_mem := fun _ => hsum }
  | loadGlyph =>
    have hglyph : 0 ≤ (fontStart : Int) + (s.reg x).toNat * glyphSize ∧
        (fontStart : Int) + (s.reg x).toNat * glyphSize ≤ 0xFFFF := by
      simp only [fontStart, glyphSize]; omega
    exact { Keeps.refl s with index_mem := fun _ => hglyph }
  | storeDecimal =>
    exact ((setByte_keeps s _ _).trans (setByte_keeps _ _ _)).trans (setByte_keeps _ _ _)
  | storeRegisters => exact storeBlock_keeps s _ _
  | loadRegisters => exact loadBlock_keeps s _ _

namespace Instruction

/-- The instructions that move the stack. -/
def movesStack : Instruction → Bool
  | .ret | .address .call _ => true
  | _ => false

theorem movesStack_cases (i : Instruction) :
    i = .ret ∨ (∃ addr, i = .address .call addr) ∨ i.movesStack = false := by
  cases i with
  | ret => exact Or.inl rfl
  | address op addr =>
    cases op with
    | call => exact Or.inr (Or.inl ⟨addr, rfl⟩)
    | jump | loadIndex | jumpOffset => exact Or.inr (Or.inr rfl)
  | clear | immediate | pair | draw | register => exact Or.inr (Or.inr rfl)

theorem write_keeps {i : Instruction} (hi : i.movesStack = false) (s : State) :
    Keeps s (i.write s) := by
  cases i with
  | clear => exact clearScreen_keeps s
  | ret => exact absurd hi (by decide)
  | address op addr =>
    cases op with
    | call => exact absurd hi (by simp [movesStack])
    | jump | jumpOffset => exact Keeps.refl s
    | loadIndex =>
      have haddr : 0 ≤ (addr.val : Int) ∧ (addr.val : Int) ≤ 0xFFFF := by omega
      exact { Keeps.refl s with index_mem := fun _ => haddr }
  | immediate op x value => exact op.write_keeps x value s
  | pair op x y => exact op.write_keeps x y s
  | draw x y n => exact writeDrawing_keeps s x y n
  | register op x => exact op.write_keeps x s

/-! ## Validity -/

theorem of_fault?_ret {s : State} (hf : ret.fault? s = none) :
    s.sp ≠ 0 ∧ s.returnAddress + 2 < memorySize := by
  rw [fault?] at hf
  by_cases hempty : s.sp = 0
  · rw [if_pos hempty] at hf
    exact absurd hf (by simp)
  · rw [if_neg hempty] at hf
    exact ⟨hempty, lt_of_overrun? hf⟩

theorem of_fault?_call {s : State} {addr : Fin 4096}
    (hf : (address .call addr).fault? s = none) :
    s.sp ≠ stackSize ∧ s.pc + 2 < memorySize := by
  rw [fault?] at hf
  by_cases hfull : s.sp = stackSize
  · rw [if_pos hfull] at hf
    exact absurd hf (by simp)
  · rw [if_neg hfull] at hf
    exact ⟨hfull, lt_of_overrun? hf⟩

/-- An instruction that does not fail goes on in memory. -/
theorem target_mem {s : State} (hs : s.Valid) {i : Instruction} (hf : i.fault? s = none) :
    0 ≤ i.target s ∧ i.target s < memorySize := by
  have hskip : ∀ two, overrun? (s.pc + stride two) = none →
      0 ≤ s.pc + stride two ∧ s.pc + stride two < memorySize := by
    intro two h
    have hpc := hs.pc_mem.1
    refine ⟨?_, lt_of_overrun? h⟩
    cases two with
    | false => simp only [stride, Bool.false_eq_true, if_false]; omega
    | true => simp only [stride, if_true]; omega
  cases i with
  | ret =>
    -- the room was looked for behind the address on the stack; that it is not negative is validity
    have hpos := (hs.stack_mem _ (returnAddress_mem hs)).1
    have htop : 0 ≤ s.returnAddress + 2 := by omega
    exact ⟨htop, (of_fault?_ret hf).2⟩
  | address op addr =>
    cases op with
    | jump | call => exact ⟨Int.natCast_nonneg _, Int.ofNat_lt.mpr addr.isLt⟩
    | loadIndex => exact hskip false hf
    | jumpOffset => exact ⟨Int.emod_nonneg _ (by decide), Int.emod_lt_of_pos _ (by decide)⟩
  | clear | immediate | pair | draw => exact hskip _ hf
  | register op x =>
    cases op with
    | waitKey =>
      rw [fault?] at hf
      rw [target]
      cases hany : s.keys.any id with
      | false => exact hs.pc_mem
      | true =>
        rw [hany] at hf
        exact hskip false hf
    | loadGlyph =>
      rw [fault?] at hf
      cases ho : overrun? (s.pc + 2) with
      | none => exact hskip false ho
      | some f =>
        rw [ho] at hf
        exact absurd hf (by simp)
    | skipPressed | skipReleased | readDelay | setDelay | setSound | addIndex | storeDecimal
    | storeRegisters | loadRegisters => exact hskip _ hf

/-- **An instruction that does not fail takes a valid state to a valid state.** -/
theorem effect_valid {s : State} (hs : s.Valid) {i : Instruction} (hf : i.fault? s = none) :
    (i.effect s).Valid := by
  have htarget := target_mem hs hf
  rcases movesStack_cases i with rfl | ⟨addr, rfl⟩ | hi
  · -- a return leaves the entry where it is, so only the pointer has to be looked at
    obtain ⟨hempty, -⟩ := of_fault?_ret hf
    obtain ⟨hsp0, hsp⟩ := hs.sp_mem
    have hsp' : 0 ≤ s.sp - 1 ∧ s.sp - 1 ≤ stackSize := by omega
    exact { hs with pc_mem := htarget, sp_mem := hsp' }
  · -- a call stores the place behind itself, which is an address because there is room
    obtain ⟨hfull, hroom⟩ := of_fault?_call hf
    obtain ⟨hsp0, hsp⟩ := hs.sp_mem
    have hsp' : 0 ≤ s.sp + 1 ∧ s.sp + 1 ≤ stackSize := by omega
    have hpc : 0 ≤ s.pc + 2 ∧ s.pc + 2 ≤ 0xFFFF := by
      have hpc0 := hs.pc_mem.1
      simp only [memorySize] at hroom
      omega
    refine { hs with pc_mem := htarget, sp_mem := hsp', stack_size := ?_, stack_mem := ?_ }
    · exact (Array.size_setIfInBounds ..).trans hs.stack_size
    · intro a ha
      rcases Array.mem_or_eq_of_mem_setIfInBounds ha with hold | rfl
      · exact hs.stack_mem a hold
      · exact hpc
  · exact { (write_keeps hi s).valid hs with pc_mem := htarget }

/-- What is on the stack after an instruction was there before, or is the place behind a call. -/
theorem mem_effect_stack {s : State} {i : Instruction} (hf : i.fault? s = none) {a : Int}
    (ha : a ∈ (i.effect s).stack) : a ∈ s.stack ∨ a = s.pc + 2 ∧ s.pc + 2 < memorySize := by
  rcases movesStack_cases i with rfl | ⟨addr, rfl⟩ | hi
  · exact Or.inl ha
  · rcases Array.mem_or_eq_of_mem_setIfInBounds ha with hold | rfl
    · exact Or.inl hold
    · exact Or.inr ⟨rfl, (of_fault?_call hf).2⟩
  · exact Or.inl ((write_keeps hi s).stack ▸ ha)

end Instruction

end Chip8
