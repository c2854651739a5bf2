import Chip8.Proofs.Instruction.Effect

/-!
# Executing an instruction is its table entry

The one place where the handlers are run through. On a valid state, executing an instruction either
fails with `Instruction.fault?` and leaves the state alone, or finishes in `Instruction.effect`.

The operations that write and then go on have been told before that there is room, so each of them
has one lemma with the room as a hypothesis, in which nothing fails. The others (skips, jumps, call,
return, waiting for a key) test before they write, and are taken one by one.
-/

set_option autoImplicit false

namespace Chip8

open State Outcome

/-! ## Room to go on -/

theorem overrun?_of_room {pc : Int} (h : pc < memorySize) : overrun? pc = none := if_pos h

theorem overrun?_of_no_room {pc : Int} (h : memorySize ≤ pc) :
    overrun? pc = some (.pcOutOfRange pc) := if_neg (by omega)

theorem overrun?_eq_some {pc : Int} {f : Fault} :
    overrun? pc = some f ↔ memorySize ≤ pc ∧ f = .pcOutOfRange pc := by
  simp [overrun?, eq_comm]

theorem lt_of_overrun? {pc : Int} (h : overrun? pc = none) : pc < memorySize := by
  rcases Int.lt_or_le pc memorySize with hlt | hle
  · exact hlt
  · rw [overrun?_of_no_room hle] at h
    exact absurd h (by simp)

theorem advance_apply (s : State) (amount : Int) :
    advance amount s =
      settled (overrun? (s.pc + amount)) s () { s with pc := s.pc + amount } := by
  rcases Int.lt_or_le (s.pc + amount) memorySize with h | h
  · rw [overrun?_of_room h, advance_of_room h, settled_none]
  · rw [overrun?_of_no_room h, advance_of_no_room h, settled_some]

/-- An operation that falls through looks for its room first. -/
theorem execute_of_fallsThrough {op : Operation} (hft : op.fallsThrough = true) (args : Operands)
    (s : State) :
    op.execute args s = match overrun? (s.pc + 2) with
      | some f => .error (.fault f) s
      | none => op.perform args s := by
  rw [Operation.execute, if_pos hft]
  rcases Int.lt_or_le (s.pc + 2) memorySize with h | h
  · rw [overrun?_of_room h, bind_of_ok (nextPc_of_room h)]
  · rw [overrun?_of_no_room h, bind_of_error (nextPc_of_no_room h)]

theorem execute_of_not_fallsThrough {op : Operation} (hft : op.fallsThrough = false)
    (args : Operands) : op.execute args = op.perform args := by
  rw [Operation.execute, hft]
  rfl

/-- An operation that falls through and needs nothing but its room. -/
theorem execute_of_room {op : Operation} {args : Operands} {s s' : State}
    (hft : op.fallsThrough = true)
    (h : s.pc + 2 < memorySize → op.perform args s = .ok () s') :
    op.execute args s = settled (overrun? (s.pc + 2)) s () s' := by
  rw [execute_of_fallsThrough hft]
  rcases Int.lt_or_le (s.pc + 2) memorySize with hr | hr
  · rw [overrun?_of_room hr, settled_none]
    exact h hr
  · rw [overrun?_of_no_room hr, settled_some]

/-- The last step of an operation that falls through; what it has written leaves the program
counter alone. -/
theorem advance_after {s s' : State} (hr : s.pc + 2 < memorySize) (hpc : s'.pc = s.pc) :
    advance 2 s' = .ok () { s' with pc := s.pc + 2 } := by
  have hr' : s'.pc + 2 < memorySize := by rw [hpc]; exact hr
  rw [advance_of_room hr', hpc]

/-! ## Operands -/

theorem require_apply {args : Operands} {o : Operand} {v : Int} (h : args.get? o = some v)
    (s : State) : args.require o s = .ok v s := by
  rw [Operands.require, h]
  rfl

/-- An operand that is there is handed on. -/
theorem bind_require {α : Type} {args : Operands} {o : Operand} {v : Int}
    (h : args.get? o = some v) (f : Int → State.Action α) (s : State) :
    (args.require o >>= f) s = f v s := bind_of_ok (require_apply h s)

/-! ## Operations on an address -/

section

variable {s : State}

theorem address_mem (addr : Fin 4096) : 0 ≤ (addr.val : Int) ∧ (addr.val : Int) < memorySize := by
  simp only [memorySize]
  omega

/-- A call looks at the stack before it looks for its room. -/
theorem execute_call (hs : s.Valid) (addr : Fin 4096) :
    (Operation.address .call).execute { addr := some addr.val } s =
      settled ((Instruction.address .call addr).fault? s) s ()
        ((Instruction.address .call addr).effect s) := by
  obtain ⟨hsp0, hsp⟩ := hs.sp_mem
  rw [execute_of_not_fallsThrough rfl, Operation.perform, AddressOp.perform,
    bind_of_ok (get_apply s)]
  by_cases hfull : s.sp = stackSize
  · rw [if_pos (by omega), fault_apply, Instruction.fault?, if_pos hfull, settled_some]
  · rw [if_neg (by omega), Instruction.fault?, if_neg hfull]
    rcases Int.lt_or_le (s.pc + 2) memorySize with hr | hr
    · have hsp' : 0 ≤ s.sp ∧ s.sp < stackSize := by omega
      rw [overrun?_of_room hr, settled_none, bind_of_ok (nextPc_of_room hr),
        bind_of_ok (writeStack_apply hs.stack_size hsp' _), bind_of_ok (modify_apply _ _),
        bind_require rfl, setPc_of_mem (address_mem addr)]
      rfl
    · rw [overrun?_of_no_room hr, settled_some, bind_of_error (nextPc_of_no_room hr)]

theorem AddressOp.execute_apply (hs : s.Valid) (op : AddressOp) (addr : Fin 4096) :
    (Operation.address op).execute { addr := some addr.val } s =
      settled ((Instruction.address op addr).fault? s) s ()
        ((Instruction.address op addr).effect s) := by
  cases op with
  | jump =>
    rw [execute_of_not_fallsThrough rfl, Operation.perform, AddressOp.perform, bind_require rfl,
      setPc_of_mem (address_mem addr)]
    rfl
  | call => exact execute_call hs addr
  | loadIndex =>
    refine execute_of_room rfl fun hr => ?_
    rw [Operation.perform, AddressOp.perform, bind_require rfl, bind_of_ok (modify_apply _ _)]
    exact advance_after hr rfl
  | jumpOffset =>
    have hmod : 0 ≤ ((addr.val : Int) + (s.reg 0).toNat) % memorySize ∧
        ((addr.val : Int) + (s.reg 0).toNat) % memorySize < memorySize := by
      simp only [memorySize]
      omega
    have hv0 : readRegister 0 s = .ok (s.reg 0) s :=
      readRegister_apply hs.registers_size (by decide : 0 < registerCount)
    rw [execute_of_not_fallsThrough rfl, Operation.perform, AddressOp.perform, bind_require rfl,
      bind_of_ok hv0, setPc_of_mem hmod]
    rfl

/-! ## Operations on a register and a byte -/

/-- A skip is settled by the room for as far as it goes. -/
theorem skipIf_apply (s : State) (condition : Bool) :
    skipIf condition s = settled (overrun? (s.pc + stride condition)) s ()
      { s with pc := s.pc + stride condition } :=
  advance_apply s (stride condition)

theorem ImmediateOp.execute_apply (hs : s.Valid) (op : ImmediateOp) (x : Nibble)
    (value : Fin 256) :
    (Operation.immediate op).execute { x := some x.val, value := some value.val } s =
      settled ((Instruction.immediate op x value).fault? s) s ()
        ((Instruction.immediate op x value).effect s) := by
  have hsize := hs.registers_size
  have hvx : readRegister x.val s = .ok (s.reg x) s := readRegister_apply hsize x.isLt
  have hvalue : 0 ≤ (value.val : Int) ∧ (value.val : Int) ≤ 255 := by omega
  cases op with
  | skipEq =>
    rw [execute_of_not_fallsThrough rfl, Operation.perform, ImmediateOp.perform, bind_require rfl,
      bind_of_ok hvx, bind_require rfl, skipIf_apply]
    simp only [Int.natCast_inj]
    rfl
  | skipNe =>
    rw [execute_of_not_fallsThrough rfl, Operation.perform, ImmediateOp.perform, bind_require rfl,
      bind_of_ok hvx, bind_require rfl, skipIf_apply]
    simp only [ne_eq, Int.natCast_inj]
    rfl
  | load =>
    refine execute_of_room rfl fun hr => ?_
    rw [Operation.perform, ImmediateOp.perform, bind_require rfl, bind_require rfl,
      bind_of_ok (writeRegister_apply hsize x.isLt hvalue)]
    exact advance_after hr rfl
  | add =>
    refine execute_of_room rfl fun hr => ?_
    rw [Operation.perform, ImmediateOp.perform, bind_require rfl, bind_of_ok hvx, bind_require rfl,
      bind_of_ok (writeRegister_byte hsize x.isLt _)]
    exact advance_after hr rfl
  | random =>
    refine execute_of_room rfl fun hr => ?_
    have hdraw : drawByte s = .ok s.random.next.1 { s with random := s.random.next.2 } := rfl
    have hsize' : { s with random := s.random.next.2 }.registers.size = registerCount := hsize
    rw [Operation.perform, ImmediateOp.perform, bind_of_ok hdraw, bind_require rfl,
      bind_require rfl, bind_of_ok (writeRegister_byte hsize' x.isLt _)]
    exact advance_after hr rfl

/-! ## Operations on two registers -/

/-- The operations of group 8 but for the plain load: a result, and a flag after it where there is
one. They differ only in what they compute, so no case is made of them. -/
theorem PairOp.perform_compute (hsize : s.registers.size = registerCount) {op : PairOp}
    (hEq : op ≠ .skipEq) (hNe : op ≠ .skipNe) (hLoad : op ≠ .load) (x y : Nibble)
    (hr : s.pc + 2 < memorySize) :
    op.perform { x := some x.val, y := some y.val } s =
      .ok () { op.write x y s with pc := s.pc + 2 } := by
  have hvx : readRegister x.val s = .ok (s.reg x) s := readRegister_apply hsize x.isLt
  have hvy : readRegister y.val s = .ok (s.reg y) s := readRegister_apply hsize y.isLt
  rw [PairOp.perform, bind_require rfl, bind_of_ok hvx, bind_require rfl, bind_of_ok hvy,
    PairOp.write]
  · cases op.compute (s.reg x) (s.reg y) with
    | mk result flag =>
      refine (bind_of_ok (writeRegister_byte hsize x.isLt (byteOf result))).trans ?_
      cases flag with
      | none => exact advance_after hr rfl
      | some f =>
        have hsize' : (s.setReg x (byteOf result)).registers.size = registerCount := by
          rw [setReg_registers_size, hsize]
        refine (bind_of_ok (setFlag_apply hsize' f)).trans ?_
        exact advance_after hr rfl
  · exact hEq
  · exact hNe
  · exact hEq
  · exact hNe
  · exact hLoad

theorem PairOp.execute_apply (hs : s.Valid) (op : PairOp) (x y : Nibble) :
    (Operation.pair op).execute { x := some x.val, y := some y.val } s =
      settled ((Instruction.pair op x y).fault? s) s () ((Instruction.pair op x y).effect s) := by
  have hsize := hs.registers_size
  have hvx : readRegister x.val s = .ok (s.reg x) s := readRegister_apply hsize x.isLt
  have hvy : readRegister y.val s = .ok (s.reg y) s := readRegister_apply hsize y.isLt
  cases op with
  | skipEq | skipNe =>
    rw [execute_of_not_fallsThrough rfl, Operation.perform, PairOp.perform, bind_require rfl,
      bind_of_ok hvx, bind_require rfl, bind_of_ok hvy, skipIf_apply]
    rfl
  | load =>
    refine execute_of_room rfl fun hr => ?_
    have hb : (s.reg y).toNat < 256 := (s.reg y).toNat_lt
    rw [Operation.perform, PairOp.perform, bind_require rfl, bind_of_ok hvy, bind_require rfl,
      bind_of_ok (writeRegister_apply hsize x.isLt (by omega))]
    exact advance_after hr rfl
  | or | and | xor | add | sub | shr | subn | shl =>
    refine execute_of_room rfl fun hr => ?_
    rw [Operation.perform]
    exact PairOp.perform_compute hsize (by decide) (by decide) (by decide) x y hr

/-! ## Drawing -/

theorem readRows_apply (h : s.memory.size = memorySize) (n : Nat) :
    ∀ a, readRows a n s = .ok (s.spriteAt a n) s := by
  induction n with
  | zero => intro a; rfl
  | succ n ih =>
    intro a
    -- the rows after the first are the sprite of the next address
    have hrows : s.spriteAt a (n + 1) = s.byte a :: s.spriteAt (a + 1) n := by
      simp only [spriteAt, List.range_succ_eq_map, List.map_cons, List.map_map, Int.natCast_zero,
        Int.add_zero]
      congr 1
      refine List.map_congr_left fun r _ => ?_
      simp only [Function.comp_apply, Nat.succ_eq_add_one]
      congr 1
      omega
    rw [readRows, bind_of_ok (readMemory_apply h a), bind_of_ok (ih (a + 1)), pure_apply, hrows]

theorem execute_draw (hs : s.Valid) (x y n : Nibble) :
    Operation.draw.execute { x := some x.val, y := some y.val, n := some n.val } s =
      settled ((Instruction.draw x y n).fault? s) s () ((Instruction.draw x y n).effect s) := by
  refine execute_of_room rfl fun hr => ?_
  have hsize := hs.registers_size
  have hvx : readRegister x.val s = .ok (s.reg x) s := readRegister_apply hsize x.isLt
  have hvy : readRegister y.val s = .ok (s.reg y) s := readRegister_apply hsize y.isLt
  rw [Operation.perform, Operation.performDraw, bind_require rfl, bind_of_ok hvx,
    bind_require rfl, bind_of_ok hvy, bind_require rfl, bind_of_ok (get_apply s),
    bind_of_ok (readRows_apply hs.memory_size _ _)]
  -- drawing only turns pixels, so the registers are still there for the flag
  have hdraw : drawSprite (s.spriteAt s.index n.val) (s.reg x).toNat (s.reg y).toNat s =
      .ok (s.drawing x y n).collision { s with
        pixels := (s.drawing x y n).pixels, redraw := s.redraw || (s.drawing x y n).changed } := rfl
  refine (bind_of_ok hdraw).trans ?_
  rw [bind_of_ok (setFlag_apply (by exact hsize) _)]
  exact advance_after hr rfl

/-! ## Operations on one register -/

/-- The key that is waited for exists, if any key is held. -/
theorem heldKey?_some {pin : Nat} (h : s.heldKey? = some pin) :
    s.keys.any id = true ∧ pin < s.keys.size := by
  obtain ⟨hlt, hheld, -⟩ := Array.findIdx?_eq_some_iff_getElem.mp h
  exact ⟨Array.any_eq_true.mpr ⟨pin, hlt, hheld⟩, hlt⟩

theorem heldKey?_none (h : s.heldKey? = none) : s.keys.any id = false := by
  have hall := Array.findIdx?_eq_none_iff.mp h
  rw [Bool.eq_false_iff]
  intro hany
  obtain ⟨i, hi, hheld⟩ := Array.any_eq_true.mp hany
  have hoff : id s.keys[i] = false := hall s.keys[i] (Array.getElem_mem hi)
  rw [hoff] at hheld
  exact absurd hheld (by decide)

/-- The four low bits of a byte name a key. -/
theorem and_0xF_toNat (b : UInt8) : (b &&& 0xF).toNat = b.toNat % 16 := by
  rw [UInt8.toNat_and]
  exact Nat.and_two_pow_sub_one_eq_mod b.toNat 4

theorem storeRegisters_apply (n : Nat) : ∀ {s : State} (r : Nat), s.memory.size = memorySize →
    s.registers.size = registerCount → r + n ≤ registerCount →
    State.storeRegisters r n s = .ok () (s.storeBlock r n) := by
  induction n with
  | zero => intro s r _ _ _; rfl
  | succ n ih =>
    intro s r hmem hreg hle
    rw [State.storeRegisters, bind_of_ok (readRegister_apply hreg (by omega)),
      bind_of_ok (get_apply s), bind_of_ok (writeMemory_apply hmem _ _), byteOf_toNat]
    have hmem' : (s.setByte (s.index + r) (s.reg r)).memory.size = memorySize := by
      rw [setByte_memory_size, hmem]
    exact ih (r + 1) hmem' hreg (by omega)

theorem loadRegisters_apply (n : Nat) : ∀ {s : State} (r : Nat), s.memory.size = memorySize →
    s.registers.size = registerCount → r + n ≤ registerCount →
    State.loadRegisters r n s = .ok () (s.loadBlock r n) := by
  induction n with
  | zero => intro s r _ _ _; rfl
  | succ n ih =>
    intro s r hmem hreg hle
    rw [State.loadRegisters, bind_of_ok (get_apply s), bind_of_ok (readMemory_apply hmem _),
      bind_of_ok (writeRegister_byte hreg (by omega) _)]
    have hreg' : (s.setReg r (s.byte (s.index + r))).registers.size = registerCount := by
      rw [setReg_registers_size, hreg]
    exact ih (r + 1) hmem hreg' (by omega)

/-- Waiting for a key stays where it is, and cannot fail, until a key is held. -/
theorem execute_waitKey (hs : s.Valid) (x : Nibble) :
    (Operation.register .waitKey).execute { x := some x.val } s =
      settled ((Instruction.register .waitKey x).fault? s) s ()
        ((Instruction.register .waitKey x).effect s) := by
  have hsize := hs.registers_size
  rw [execute_of_not_fallsThrough rfl, Operation.perform, RegisterOp.perform,
    bind_of_ok (get_apply s)]
  cases hk : s.heldKey? with
  | none =>
    have hany := heldKey?_none hk
    simp only [Instruction.fault?, Instruction.effect, Instruction.target, Instruction.write,
      RegisterOp.write, hk, hany, Bool.false_eq_true, if_false, settled_none]
    rfl
  | some pin =>
    obtain ⟨hany, hpin⟩ := heldKey?_some hk
    rw [hs.keys_size] at hpin
    simp only [Instruction.fault?, Instruction.effect, Instruction.target, Instruction.write,
      RegisterOp.write, hk, hany, if_true]
    rcases Int.lt_or_le (s.pc + 2) memorySize with hr | hr
    · -- here the program counter moves first, and then nothing is left that can fail
      have hbyte : 0 ≤ (pin : Int) ∧ (pin : Int) ≤ 255 := by
        simp only [keyCount] at hpin; omega
      rw [overrun?_of_room hr, settled_none, bind_of_ok (advance_of_room hr), bind_require rfl]
      have hsize' : { s with pc := s.pc + 2 }.registers.size = registerCount := hsize
      exact writeRegister_apply hsize' x.isLt hbyte
    · rw [overrun?_of_no_room hr, settled_some, bind_of_error (advance_of_no_room hr)]

/-- The glyph is looked for after the room. -/
theorem execute_loadGlyph (hs : s.Valid) (x : Nibble) :
    (Operation.register .loadGlyph).execute { x := some x.val } s =
      settled ((Instruction.register .loadGlyph x).fault? s) s ()
        ((Instruction.register .loadGlyph x).effect s) := by
  have hvx : readRegister x.val s = .ok (s.reg x) s := readRegister_apply hs.registers_size x.isLt
  rw [execute_of_fallsThrough rfl, Instruction.fault?]
  rcases Int.lt_or_le (s.pc + 2) memorySize with hr | hr
  · simp only [overrun?_of_room hr]
    rw [Operation.perform, RegisterOp.perform, bind_require rfl, bind_of_ok hvx]
    by_cases hbig : s.reg x > 0xF
    · rw [if_pos hbig, if_pos hbig, fault_apply, settled_some]
    · rw [if_neg hbig, if_neg hbig, settled_none, bind_of_ok (modify_apply _ _)]
      exact advance_after hr rfl
  · simp only [overrun?_of_no_room hr, settled_some]

theorem RegisterOp.execute_apply (hs : s.Valid) (op : RegisterOp) (x : Nibble) :
    (Operation.register op).execute { x := some x.val } s =
      settled ((Instruction.register op x).fault? s) s ()
        ((Instruction.register op x).effect s) := by
  have hsize := hs.registers_size
  have hmem := hs.memory_size
  have hvx : readRegister x.val s = .ok (s.reg x) s := readRegister_apply hsize x.isLt
  have hkey : readKey (s.reg x &&& 0xF).toNat s = .ok (s.held (s.keyIn x)) s := by
    rw [and_0xF_toNat]
    exact readKey_apply hs.keys_size (Nat.mod_lt _ (by decide))
  cases op with
  | skipPressed | skipReleased =>
    rw [execute_of_not_fallsThrough rfl, Operation.perform, RegisterOp.perform, bind_require rfl,
      bind_of_ok hvx, bind_of_ok hkey, skipIf_apply]
    rfl
  | readDelay =>
    refine execute_of_room rfl fun hr => ?_
    rw [Operation.perform, RegisterOp.perform, bind_of_ok (get_apply s), bind_require rfl,
      bind_of_ok (writeRegister_apply hsize x.isLt hs.delayTimer_mem)]
    exact advance_after hr rfl
  | waitKey => exact execute_waitKey hs x
  | setDelay | setSound | addIndex =>
    refine execute_of_room rfl fun hr => ?_
    rw [Operation.perform, RegisterOp.perform, bind_require rfl, bind_of_ok hvx,
      bind_of_ok (modify_apply _ _)]
    exact advance_after hr rfl
  | loadGlyph => exact execute_loadGlyph hs x
  | storeDecimal =>
    refine execute_of_room rfl fun hr => ?_
    rw [Operation.perform, RegisterOp.perform, bind_require rfl, bind_of_ok hvx,
      bind_of_ok (get_apply s), bind_of_ok (writeMemory_apply hmem _ _),
      bind_of_ok (writeMemory_apply (by rw [setByte_memory_size, hmem]) _ _),
      bind_of_ok (writeMemory_apply (by simp only [setByte_memory_size, hmem]) _ _)]
    exact advance_after hr rfl
  | storeRegisters =>
    refine execute_of_room rfl fun hr => ?_
    rw [Operation.perform, RegisterOp.perform, bind_require rfl]
    have hcount : ((x.val : Int) + 1).toNat = x.val + 1 := by omega
    have hfit : 0 + (x.val + 1) ≤ registerCount := by simp only [registerCount]; omega
    obtain ⟨_, -, hframe⟩ := storeBlock_frame (x.val + 1) s 0
    rw [hcount, bind_of_ok (storeRegisters_apply _ 0 hmem hsize hfit)]
    exact advance_after hr (by rw [hframe])
  | loadRegisters =>
    refine execute_of_room rfl fun hr => ?_
    rw [Operation.perform, RegisterOp.perform, bind_require rfl]
    have hcount : ((x.val : Int) + 1).toNat = x.val + 1 := by omega
    have hfit : 0 + (x.val + 1) ≤ registerCount := by simp only [registerCount]; omega
    obtain ⟨_, -, hframe⟩ := loadBlock_frame (x.val + 1) s 0
    rw [hcount, bind_of_ok (loadRegisters_apply _ 0 hmem hsize hfit)]
    exact advance_after hr (by rw [hframe])

/-! ## All instructions -/

theorem execute_clear (s : State) :
    Operation.clear.execute {} s =
      settled (Instruction.clear.fault? s) s () (Instruction.clear.effect s) := by
  refine execute_of_room rfl fun hr => ?_
  have hpc : s.clearScreen.pc = s.pc := by
    rw [clearScreen]
    split
    · rfl
    · rfl
  rw [Operation.perform, bind_of_ok (modify_apply _ _)]
  exact advance_after hr hpc

theorem returnAddress_mem (hs : s.Valid) : s.returnAddress ∈ s.stack := by
  obtain ⟨hsp0, hsp⟩ := hs.sp_mem
  have htop : (s.sp - 1).toNat < s.stack.size := by
    rw [hs.stack_size]; simp only [stackSize] at *; omega
  rw [returnAddress, Array.getD_eq_getD_getElem?, Array.getElem?_eq_getElem htop, Option.getD_some]
  exact Array.getElem_mem htop

theorem execute_ret (hs : s.Valid) :
    Operation.ret.execute {} s =
      settled (Instruction.ret.fault? s) s () (Instruction.ret.effect s) := by
  obtain ⟨hsp0, hsp⟩ := hs.sp_mem
  rw [execute_of_not_fallsThrough rfl, Operation.perform, bind_of_ok (get_apply s),
    Instruction.fault?]
  by_cases hempty : s.sp = 0
  · rw [if_pos hempty, if_pos hempty, fault_apply, settled_some]
  · have htop : 0 ≤ s.sp - 1 ∧ s.sp - 1 < stackSize := by omega
    have hread : readStack (s.sp - 1) s = .ok s.returnAddress s :=
      readStack_apply hs.stack_size htop
    rw [if_neg hempty, if_neg hempty, bind_of_ok hread]
    rcases Int.lt_or_le (s.returnAddress + 2) memorySize with hr | hr
    · have hpos : 0 ≤ s.returnAddress := (hs.stack_mem _ (returnAddress_mem hs)).1
      have hpc : 0 ≤ s.returnAddress + 2 ∧ s.returnAddress + 2 < memorySize := by omega
      rw [overrun?_of_room hr, settled_none, if_neg (by omega), bind_of_ok (modify_apply _ _),
        setPc_of_mem hpc]
      rfl
    · rw [overrun?_of_no_room hr, settled_some, if_pos hr, fault_apply]

/-- **The table is what the handlers do.** On a valid state an instruction ends in the fault that
the table gives for it, with nothing changed, or has the effect that the table gives. -/
theorem Instruction.execute_eq (hs : s.Valid) (i : Instruction) :
    i.operation.execute i.operands s = settled (i.fault? s) s () (i.effect s) := by
  cases i with
  | clear => exact execute_clear s
  | ret => exact execute_ret hs
  | address op addr => exact AddressOp.execute_apply hs op addr
  | immediate op x value => exact ImmediateOp.execute_apply hs op x value
  | pair op x y => exact PairOp.execute_apply hs op x y
  | draw x y n => exact execute_draw hs x y n
  | register op x => exact RegisterOp.execute_apply hs op x

end

end Chip8
