import Mathlib.Algebra.Group.Nat.Defs
import Chip8.Proofs.Instruction.Block
import Chip8.Proofs.Instruction.Table

/-!
# A number taken apart into digits

The machine has no division, so a program that is to show a number stores its decimal digits and
loads them into the first three registers. For that pair of instructions

> **the three registers hold the digits of the number** (`digits_loaded`),

each below ten and worth the number together, which is a byte and so has no more than three. The
number may itself have been in one of these registers. It is read before anything is stored, and
lost when the digits are loaded.
-/

set_option autoImplicit false

namespace Chip8

open State Outcome

/-- The decimal digits of a number of three digits, the highest first. -/
def decimalDigit (v k : Nat) : Nat := v / 10 ^ (2 - k) % 10

theorem decimalDigit_lt (v k : Nat) : decimalDigit v k < 10 := Nat.mod_lt _ (by decide)

theorem sum_decimalDigit {v : Nat} (hv : v < 1000) :
    100 * decimalDigit v 0 + 10 * decimalDigit v 1 + decimalDigit v 2 = v := by
  simp only [decimalDigit]
  omega

namespace State

variable {s : State}

/-- The digits are stored next to each other, and none over another. -/
theorem storeDecimal_byte (hmem : s.memory.size = memorySize) (x : Nibble) (k : Nat) (hk : k < 3) :
    (RegisterOp.storeDecimal.write x s).byte (s.index + k) =
      byteOf (decimalDigit (s.reg x).toNat k) := by
  have hv : (s.reg x).toNat < 256 := (s.reg x).toNat_lt
  have hplaces : ∀ i j : Nat, i < 3 → j < 3 → i ≠ j →
      addressPlace (s.index + i) ≠ addressPlace (s.index + j) := by
    intro i j hi hj hne
    exact addressPlace_add_ne (by simp only [memorySize]; omega) (by simp only [memorySize]; omega)
      hne
  have hsize : ∀ (t : State) (a : Int) (v : UInt8), t.memory.size = memorySize →
      (t.setByte a v).memory.size = memorySize := by
    intro t a v ht
    rw [setByte_memory_size, ht]
  -- the first address is written without an offset
  have hwrite : RegisterOp.storeDecimal.write x s =
      ((s.setByte (s.index + (0 : Nat)) (byteOf ((s.reg x).toNat / 100 : Nat))).setByte
        (s.index + (1 : Nat)) (byteOf ((s.reg x).toNat / 10 % 10 : Nat))).setByte
          (s.index + (2 : Nat)) (byteOf ((s.reg x).toNat % 10 : Nat)) := by
    rw [Int.natCast_zero, Int.add_zero]
    rfl
  rw [hwrite]
  obtain rfl | rfl | rfl : k = 0 ∨ k = 1 ∨ k = 2 := by omega
  · have hdigit : decimalDigit (s.reg x).toNat 0 = (s.reg x).toNat / 100 := by
      simp only [decimalDigit]
      omega
    rw [byte_setByte_of_ne _ (hplaces 2 0 (by decide) (by decide) (by decide)),
      byte_setByte_of_ne _ (hplaces 1 0 (by decide) (by decide) (by decide)),
      byte_setByte_self hmem, hdigit]
  · rw [byte_setByte_of_ne _ (hplaces 2 1 (by decide) (by decide) (by decide)),
      byte_setByte_self (hsize _ _ _ hmem)]
    rfl
  · rw [byte_setByte_self (hsize _ _ _ (hsize _ _ _ hmem)), decimalDigit, Nat.sub_self,
      Nat.pow_zero, Nat.div_one]

theorem storeDecimal_memory (x : Nibble) {a : Nat}
    (ha : ∀ k < (3 : Nat), a ≠ ((s.index + k) % 4096).toNat) :
    (RegisterOp.storeDecimal.write x s).memory[a]? = s.memory[a]? := by
  refine ((Instruction.register .storeDecimal x).write_covers s).memory a fun hmem => ?_
  obtain ⟨k, hk, heq⟩ := List.mem_map.mp hmem
  exact ha k (List.mem_range.mp hk) heq.symm

/-! ## The two instructions -/

/-- The state after the digits of a register have been stored. -/
def decimalStored (s : State) (x : Nibble) : State :=
  { RegisterOp.storeDecimal.write x s with pc := s.pc + 2 }

theorem decimalStored_valid (hs : s.Valid) (hroom : s.pc + 2 < memorySize) (x : Nibble) :
    (s.decimalStored x).Valid :=
  Instruction.effect_valid hs (i := .register .storeDecimal x) (overrun?_of_room hroom)

theorem execute_storeDecimal (hs : s.Valid) (hroom : s.pc + 2 < memorySize) (t : OperationTable)
    (x : Nibble) : t.execute "OP_LD_B_VX" { x := some x.val } s = .ok () (s.decimalStored x) := by
  have hfault : (Instruction.register .storeDecimal x).fault? s = none := overrun?_of_room hroom
  have hexecute := t.execute_instruction hs (.register .storeDecimal x)
  rw [hfault, settled_none] at hexecute
  exact hexecute

theorem execute_loadRegisters (hs : s.Valid) (hroom : s.pc + 2 < memorySize) (t : OperationTable)
    (x : Nibble) : t.execute "OP_LD_VX_MEM" { x := some x.val } s =
      .ok () { s with registers := (s.loadBlock 0 (x.val + 1)).registers, pc := s.pc + 2 } := by
  have hfault : (Instruction.register .loadRegisters x).fault? s = none := overrun?_of_room hroom
  have hexecute := t.execute_instruction hs (.register .loadRegisters x)
  rw [hfault, settled_none, Instruction.effect, Instruction.write, RegisterOp.write,
    loadBlock_eq] at hexecute
  exact hexecute

/-- The state after the digits have been loaded as well. -/
def decimalLoaded (s : State) (x : Nibble) : State :=
  { s with
    memory := (s.decimalStored x).memory
    registers := ((s.decimalStored x).loadBlock 0 3).registers
    pc := s.pc + 4 }

theorem execute_decimalLoaded (hs : s.Valid) (hroom : s.pc + 4 < memorySize) (t : OperationTable)
    (x : Nibble) :
    t.execute "OP_LD_VX_MEM" { x := some 2 } (s.decimalStored x) = .ok () (s.decimalLoaded x) := by
  have hpc : (s.decimalStored x).pc + 2 = s.pc + 4 := by
    simp only [decimalStored]
    omega
  have hroom₁ : (s.decimalStored x).pc + 2 < memorySize := by omega
  refine (execute_loadRegisters (decimalStored_valid hs (by omega) x) hroom₁ t 2).trans ?_
  rw [hpc]
  rfl

/-- The digits come back from where they have been stored. -/
theorem decimalLoaded_reg (hs : s.Valid) (x : Nibble) (k : Nat) (hk : k < 3) :
    ((s.decimalLoaded x).reg k).toNat = decimalDigit (s.reg x).toNat k := by
  have hbyte : (s.decimalStored x).byte ((s.decimalStored x).index + k) =
      byteOf (decimalDigit (s.reg x).toNat k) := storeDecimal_byte hs.memory_size x k hk
  have hreg : (s.decimalStored x).registers.size = registerCount := hs.registers_size
  have hlt := decimalDigit_lt (s.reg x).toNat k
  have hnumber := toNat_byteOf (decimalDigit (s.reg x).toNat k)
  have hloaded : (s.decimalLoaded x).reg k = _ := loadBlock_reg hreg (by decide) k hk
  rw [hloaded, hbyte]
  omega

/-- Registers that hold the digits of a number are worth it. -/
theorem digits_worth {t : State} {v : Nat} (hv : v < 1000)
    (h : ∀ k < 3, (t.reg k).toNat = decimalDigit v k) :
    (t.reg 0).toNat ≤ 9 ∧ (t.reg 1).toNat ≤ 9 ∧ (t.reg 2).toNat ≤ 9 ∧
      100 * (t.reg 0).toNat + 10 * (t.reg 1).toNat + (t.reg 2).toNat = v := by
  have hlt := decimalDigit_lt v
  rw [h 0 (by decide), h 1 (by decide), h 2 (by decide)]
  exact ⟨Nat.le_of_lt_succ (hlt 0), Nat.le_of_lt_succ (hlt 1), Nat.le_of_lt_succ (hlt 2),
    sum_decimalDigit hv⟩

/-- **Three registers get the digits of a number.** Each digit is below ten, and together they are
worth what the register held before, which may be one of the three. Memory changes at three places
only, and apart from the registers and the program counter nothing else changes. -/
theorem digits_loaded (hs : s.Valid) (hroom : s.pc + 4 < memorySize) (t : OperationTable)
    (x : Nibble) :
    ∃ s₁ s₂, t.execute "OP_LD_B_VX" { x := some x.val } s = .ok () s₁ ∧
      t.execute "OP_LD_VX_MEM" { x := some 2 } s₁ = .ok () s₂ ∧
      (s₂.reg 0).toNat ≤ 9 ∧ (s₂.reg 1).toNat ≤ 9 ∧ (s₂.reg 2).toNat ≤ 9 ∧
      100 * (s₂.reg 0).toNat + 10 * (s₂.reg 1).toNat + (s₂.reg 2).toNat = (s.reg x).toNat ∧
      (∀ a, (∀ k < (3 : Nat), a ≠ ((s.index + k) % 4096).toNat) →
        s₂.memory[a]? = s.memory[a]?) ∧
      (∀ r, 3 ≤ r → s₂.registers[r]? = s.registers[r]?) ∧
      s₂ = { s with memory := s₂.memory, registers := s₂.registers, pc := s.pc + 4 } := by
  have hbyte : (s.reg x).toNat < 256 := (s.reg x).toNat_lt
  have hs₁ := decimalStored_valid hs (by omega) x
  obtain ⟨hfirst, hsecond, hthird, hsum⟩ := digits_worth (by omega) (decimalLoaded_reg hs x)
  refine ⟨s.decimalStored x, s.decimalLoaded x, execute_storeDecimal hs (by omega) t x,
    execute_decimalLoaded hs hroom t x, hfirst, hsecond, hthird, hsum, ?_, ?_, rfl⟩
  · intro a ha
    exact storeDecimal_memory x ha
  · intro r hr
    exact (loadBlock_loaded hs₁ 2).kept r hr

/-- A state with 207 in a register that the digits are loaded into, and the index at the last
address. -/
def counting : State := { (initial (.ofBytes #[])).setReg 2 207 with index := 0xFFFF }

theorem counting_valid : counting.Valid :=
  { initial_valid (.ofBytes #[]) with
    registers_size := (setReg_registers_size _ _ _).trans (initial_valid _).registers_size
    index_mem := (by decide : (0 : Int) ≤ 0xFFFF ∧ (0xFFFF : Int) ≤ 0xFFFF) }

/-- The number is taken apart although its last digit is loaded over it. -/
theorem digits_loaded_counting : ∃ s₁ s₂,
    OperationTable.execute {} "OP_LD_B_VX" { x := some 2 } counting = .ok () s₁ ∧
    OperationTable.execute {} "OP_LD_VX_MEM" { x := some 2 } s₁ = .ok () s₂ ∧
    (s₂.reg 0).toNat = 2 ∧ (s₂.reg 1).toNat = 0 ∧ (s₂.reg 2).toNat = 7 ∧ s₂.pc = 0x204 := by
  obtain ⟨s₁, s₂, hstore, hload, hfirst, hsecond, hthird, hsum, -, -, hframe⟩ :=
    digits_loaded counting_valid (by decide) {} 2
  have hnumber : (counting.reg (2 : Nibble)).toNat = 207 :=
    congrArg UInt8.toNat
      (reg_setReg_self (initial_valid (.ofBytes #[])).registers_size (by decide) 207)
  rw [hnumber] at hsum
  refine ⟨s₁, s₂, hstore, hload, by omega, by omega, by omega, ?_⟩
  rw [hframe]
  rfl

end State

end Chip8
