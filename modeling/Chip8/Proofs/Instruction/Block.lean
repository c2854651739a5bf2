import Chip8.Proofs.Instruction.Arithmetic
import Chip8.Proofs.Instruction.Footprint

/-!
# Blocks of registers in memory

Storing the first registers in memory and loading them from there are loops over the same addresses,
one after another from the index on and round the end of memory. Both bring it about that registers
and memory hold the same, address by address (`State.Mirrored`), and both change nothing if they do
already. All that is said here of one after the other is put together from these two facts:

> **what has been stored is what is loaded, and what has been loaded is what is stored**
> (`block_round_trip`),

and doing either twice is doing it once.

A block is shorter than memory, so that no two of its addresses are the same place. Without that a
later register could be stored over an earlier one.
-/

set_option autoImplicit false

namespace Chip8

open State

namespace State

variable {s : State}

/-! ## Places -/

/-- Addresses that are not as far apart as memory is long are different places. -/
theorem addressPlace_add_ne {a : Int} {i j : Nat} (hi : i < memorySize) (hj : j < memorySize)
    (hne : i ≠ j) : addressPlace (a + i) ≠ addressPlace (a + j) := by
  simp only [addressPlace, memorySize] at *
  omega

theorem memory_getElem? (h : s.memory.size = memorySize) (a : Int) :
    s.memory[addressPlace a]? = some (s.byte a) :=
  getElem?_eq_some_getD (Nat.lt_of_lt_of_eq (addressPlace_lt a) h.symm) 0

theorem registers_getElem? (h : s.registers.size = registerCount) {r : Nat}
    (hr : r < registerCount) : s.registers[r]? = some (s.reg r) :=
  getElem?_eq_some_getD (Nat.lt_of_lt_of_eq hr h.symm) 0

/-! ## Registers and memory that hold the same -/

/-- The first `n` registers hold what memory holds from the index on. -/
def Mirrored (s : State) (n : Nat) : Prop := ∀ k < n, s.byte (s.index + k) = s.reg k

theorem setByte_of_eq {a : Int} {v : UInt8} (h : s.byte a = v) : s.setByte a v = s := by
  rw [setByte, setIfInBounds_of_getD_eq h]

theorem setReg_of_eq {x : Nat} {v : UInt8} (h : s.reg x = v) : s.setReg x v = s := by
  rw [setReg, setIfInBounds_of_getD_eq h]

/-! ## The loops, register by register -/

theorem storeBlock_eq (s : State) (n : Nat) :
    s.storeBlock 0 n = { s with memory := (s.storeBlock 0 n).memory } := by
  obtain ⟨memory, -, hframe⟩ := storeBlock_frame n s 0
  rw [hframe]

theorem loadBlock_eq (s : State) (n : Nat) :
    s.loadBlock 0 n = { s with registers := (s.loadBlock 0 n).registers } := by
  obtain ⟨registers, -, hframe⟩ := loadBlock_frame n s 0
  rw [hframe]

theorem storeBlock_memory_size (s : State) (n : Nat) :
    (s.storeBlock 0 n).memory.size = s.memory.size := (storeBlock_keeps s 0 n).memory_size

theorem loadBlock_registers_size (s : State) (n : Nat) :
    (s.loadBlock 0 n).registers.size = s.registers.size := (loadBlock_keeps s 0 n).registers_size

/-- The last register is stored after the others. Index and register are read when its turn comes,
and are still what they were. -/
theorem storeBlock_succ (s : State) (n : Nat) :
    s.storeBlock 0 (n + 1) = (s.storeBlock 0 n).setByte (s.index + n) (s.reg n) := by
  have hlast : s.storeBlock 0 (n + 1) =
      (s.storeBlock 0 n).setByte ((s.storeBlock 0 n).index + (0 + n : Nat))
        ((s.storeBlock 0 n).reg (0 + n)) := by
    rw [storeBlock, List.range'_1_concat, List.foldl_append]
    rfl
  rw [hlast, storeBlock_eq, Nat.zero_add]
  rfl

theorem loadBlock_succ (s : State) (n : Nat) :
    s.loadBlock 0 (n + 1) = (s.loadBlock 0 n).setReg n (s.byte (s.index + n)) := by
  have hlast : s.loadBlock 0 (n + 1) =
      (s.loadBlock 0 n).setReg (0 + n)
        ((s.loadBlock 0 n).byte ((s.loadBlock 0 n).index + (0 + n : Nat))) := by
    rw [loadBlock, List.range'_1_concat, List.foldl_append]
    rfl
  rw [hlast, loadBlock_eq, Nat.zero_add]
  rfl

/-- A register that has been stored is not stored over by those after it. -/
theorem storeBlock_byte (hmem : s.memory.size = memorySize) {n : Nat} (hn : n ≤ memorySize) :
    ∀ k < n, (s.storeBlock 0 n).byte (s.index + k) = s.reg k := by
  induction n with
  | zero =>
    intro k hk
    exact absurd hk (Nat.not_lt_zero k)
  | succ n ih =>
    intro k hk
    rw [storeBlock_succ]
    rcases Nat.lt_or_eq_of_le (Nat.le_of_lt_succ hk) with hlt | rfl
    · rw [byte_setByte_of_ne _ (addressPlace_add_ne (by omega) (by omega) (by omega)),
        ih (by omega) k hlt]
    · exact byte_setByte_self ((storeBlock_memory_size s k).trans hmem) _ _

theorem loadBlock_reg (hreg : s.registers.size = registerCount) {n : Nat}
    (hn : n ≤ registerCount) : ∀ k < n, (s.loadBlock 0 n).reg k = s.byte (s.index + k) := by
  induction n with
  | zero =>
    intro k hk
    exact absurd hk (Nat.not_lt_zero k)
  | succ n ih =>
    intro k hk
    rw [loadBlock_succ]
    rcases Nat.lt_or_eq_of_le (Nat.le_of_lt_succ hk) with hlt | rfl
    · rw [reg_setReg_of_ne _ (by omega), ih (by omega) k hlt]
    · exact reg_setReg_self ((loadBlock_registers_size s k).trans hreg) hn _

/-- Where a block has been stored, registers and memory hold the same. -/
theorem mirrored_of_stored (hmem : s.memory.size = memorySize) {n : Nat} (hn : n ≤ memorySize)
    {t : State} (hindex : t.index = s.index) (hmemory : t.memory = (s.storeBlock 0 n).memory)
    (hregisters : t.registers = s.registers) : t.Mirrored n := by
  intro k hk
  have hstored := storeBlock_byte hmem hn k hk
  rw [byte, reg] at hstored ⊢
  rw [hindex, hmemory, hregisters]
  exact hstored

theorem mirrored_of_loaded (hreg : s.registers.size = registerCount) {n : Nat}
    (hn : n ≤ registerCount) {t : State} (hindex : t.index = s.index)
    (hmemory : t.memory = s.memory) (hregisters : t.registers = (s.loadBlock 0 n).registers) :
    t.Mirrored n := by
  intro k hk
  have hloaded := loadBlock_reg hreg hn k hk
  rw [byte, reg] at hloaded ⊢
  rw [hindex, hmemory, hregisters]
  exact hloaded.symm

/-- Storing what is there already changes nothing. -/
theorem storeBlock_of_mirrored {n : Nat} (h : s.Mirrored n) : s.storeBlock 0 n = s := by
  induction n with
  | zero => rfl
  | succ n ih =>
    rw [storeBlock_succ, ih fun k hk => h k (Nat.lt_succ_of_lt hk)]
    exact setByte_of_eq (h n (Nat.lt_succ_self n))

theorem loadBlock_of_mirrored {n : Nat} (h : s.Mirrored n) : s.loadBlock 0 n = s := by
  induction n with
  | zero => rfl
  | succ n ih =>
    rw [loadBlock_succ, ih fun k hk => h k (Nat.lt_succ_of_lt hk)]
    exact setReg_of_eq (h n (Nat.lt_succ_self n)).symm

/-! ## What is to come of a block -/

/-- Memory with the registers up to `x` at the index and nothing else new. -/
structure BlockStored (s : State) (x : Nibble) (memory : Array UInt8) : Prop where
  size : memory.size = s.memory.size
  stored : ∀ r ≤ x.val, memory[((s.index + r) % 4096).toNat]? = s.registers[r]?
  kept : ∀ a, (∀ r ≤ x.val, a ≠ ((s.index + r) % 4096).toNat) → memory[a]? = s.memory[a]?

/-- Registers with the memory at the index in those up to `x` and nothing else new. -/
structure BlockLoaded (s : State) (x : Nibble) (registers : Array UInt8) : Prop where
  size : registers.size = s.registers.size
  loaded : ∀ r ≤ x.val, registers[r]? = s.memory[((s.index + r) % 4096).toNat]?
  kept : ∀ r, x.val < r → registers[r]? = s.registers[r]?

theorem block_le (x : Nibble) : x.val + 1 ≤ registerCount ∧ x.val + 1 ≤ memorySize := by
  simp only [registerCount, memorySize]
  omega

theorem storeBlock_stored (hs : s.Valid) (x : Nibble) :
    s.BlockStored x (s.storeBlock 0 (x.val + 1)).memory := by
  obtain ⟨hregisters, hmemory⟩ := block_le x
  have hsize := storeBlock_memory_size s (x.val + 1)
  refine ⟨hsize, ?_, ?_⟩
  · intro r hr
    have hbyte := storeBlock_byte hs.memory_size hmemory r (by omega)
    have hplace := memory_getElem? (hsize.trans hs.memory_size) (s.index + r)
    rw [hbyte, ← registers_getElem? hs.registers_size (by omega)] at hplace
    exact hplace
  · intro a ha
    refine ((Instruction.register .storeRegisters x).write_covers s).memory a fun hmem => ?_
    obtain ⟨r, hr, heq⟩ := List.mem_map.mp hmem
    exact ha r (Nat.le_of_lt_succ (List.mem_range.mp hr)) heq.symm

theorem loadBlock_loaded (hs : s.Valid) (x : Nibble) :
    s.BlockLoaded x (s.loadBlock 0 (x.val + 1)).registers := by
  obtain ⟨hregisters, -⟩ := block_le x
  have hsize := loadBlock_registers_size s (x.val + 1)
  refine ⟨hsize, ?_, ?_⟩
  · intro r hr
    have hloaded := loadBlock_reg hs.registers_size hregisters r (by omega)
    have hregister := registers_getElem? (hsize.trans hs.registers_size) (r := r) (by omega)
    rw [hloaded, ← memory_getElem? hs.memory_size] at hregister
    exact hregister
  · intro r hr
    refine ((Instruction.register .loadRegisters x).write_covers s).registers r fun hmem => ?_
    have hlt := List.mem_range.mp hmem
    omega

end State

/-! ## The instructions -/

namespace Machine

/-- The machine behind an instruction that has written memory and nothing else. -/
def stored (m : Machine) (memory : Array UInt8) : Machine :=
  { m with state := { m.state with memory := memory, pc := m.state.pc + 2 } }

/-- The machine behind an instruction that has changed nothing. -/
def passed (m : Machine) : Machine := { m with state := { m.state with pc := m.state.pc + 2 } }

variable {m : Machine}

theorem carryOut_store (hv : m.state.Valid) (hroom : m.state.pc + 2 < memorySize) (x : Nibble) :
    carryOut ⟨0xF, x, 0x5, 0x5⟩ m =
      .ok none (m.stored (m.state.storeBlock 0 (x.val + 1)).memory) := by
  refine (carryOut_encode (i := .register .storeRegisters x) hv (overrun?_of_room hroom)).trans ?_
  rw [Instruction.effect, Instruction.write, RegisterOp.write, storeBlock_eq]
  rfl

theorem carryOut_load (hv : m.state.Valid) (hroom : m.state.pc + 2 < memorySize) (x : Nibble) :
    carryOut ⟨0xF, x, 0x6, 0x5⟩ m =
      .ok none (m.computed (m.state.loadBlock 0 (x.val + 1)).registers) := by
  refine (carryOut_encode (i := .register .loadRegisters x) hv (overrun?_of_room hroom)).trans ?_
  rw [Instruction.effect, Instruction.write, RegisterOp.write, loadBlock_eq]
  rfl

/-- Neither instruction changes anything where registers and memory hold the same. -/
theorem carryOut_of_mirrored (hv : m.state.Valid) (hroom : m.state.pc + 2 < memorySize)
    {x : Nibble} (h : m.state.Mirrored (x.val + 1)) :
    carryOut ⟨0xF, x, 0x5, 0x5⟩ m = .ok none m.passed ∧
      carryOut ⟨0xF, x, 0x6, 0x5⟩ m = .ok none m.passed := by
  rw [carryOut_store hv hroom, carryOut_load hv hroom, storeBlock_of_mirrored h,
    loadBlock_of_mirrored h]
  exact ⟨rfl, rfl⟩

/-- What an instruction with room leaves behind is valid, and so can be gone on from. -/
theorem valid_of_carryOut {m' : Machine} {i : Instruction} (hv : m.state.Valid)
    (hf : i.fault? m.state = none) (h : carryOut i.encode m = .ok none m') : m'.state.Valid := by
  rw [carryOut_encode hv hf] at h
  cases h
  exact Instruction.effect_valid hv hf

/-- **Storing and loading undo one another.** Storing puts the registers up to `x` in memory, from
the index on and round its end, and loading in any machine with that memory and that index gets them
back, whatever was in its registers. Loading puts that memory in the registers, and storing them in
any machine with these registers, that memory and that index changes nothing. Neither changes
anything else but the program counter, and neither changes anything when it is done once more. -/
theorem block_round_trip (hv : m.state.Valid) (hroom : m.state.pc + 2 < memorySize) (x : Nibble) :
    (∃ memory, m.state.BlockStored x memory ∧
      carryOut ⟨0xF, x, 0x5, 0x5⟩ m = .ok none (m.stored memory) ∧
      (∀ m' : Machine, m'.state.Valid → m'.state.pc + 2 < memorySize →
        m'.state.index = m.state.index → m'.state.memory = memory →
        ∃ registers : Array UInt8, registers.size = m'.state.registers.size ∧
          (∀ r ≤ x.val, registers[r]? = m.state.registers[r]?) ∧
          (∀ r, x.val < r → registers[r]? = m'.state.registers[r]?) ∧
          carryOut ⟨0xF, x, 0x6, 0x5⟩ m' = .ok none (m'.computed registers)) ∧
      (m.state.pc + 4 < memorySize →
        carryOut ⟨0xF, x, 0x5, 0x5⟩ (m.stored memory) = .ok none (m.stored memory).passed)) ∧
    ∃ registers, m.state.BlockLoaded x registers ∧
      carryOut ⟨0xF, x, 0x6, 0x5⟩ m = .ok none (m.computed registers) ∧
      (∀ m' : Machine, m'.state.Valid → m'.state.pc + 2 < memorySize →
        m'.state.index = m.state.index → m'.state.memory = m.state.memory →
        m'.state.registers = registers →
        carryOut ⟨0xF, x, 0x5, 0x5⟩ m' = .ok none m'.passed) ∧
      (m.state.pc + 4 < memorySize →
        carryOut ⟨0xF, x, 0x5, 0x5⟩ (m.computed registers) = .ok none (m.computed registers).passed ∧
        carryOut ⟨0xF, x, 0x6, 0x5⟩ (m.computed registers) =
          .ok none (m.computed registers).passed) := by
  obtain ⟨hregisters, hmemory⟩ := block_le x
  constructor
  · have hstored := storeBlock_stored hv x
    have hcarry := carryOut_store hv hroom x
    refine ⟨_, hstored, hcarry, ?_, ?_⟩
    · intro m' hv' hroom' hindex hmem
      have hloaded := loadBlock_loaded hv' x
      refine ⟨_, hloaded.size, ?_, hloaded.kept, carryOut_load hv' hroom' x⟩
      intro r hr
      rw [hloaded.loaded r hr, hindex, hmem, hstored.stored r hr]
    · intro hroom2
      have hv₁ := valid_of_carryOut (i := .register .storeRegisters x) hv
        (overrun?_of_room hroom) hcarry
      have hroom₁ : m.state.pc + 2 + 2 < memorySize := by omega
      exact (carryOut_of_mirrored hv₁ hroom₁
        (mirrored_of_stored hv.memory_size hmemory rfl rfl rfl)).1
  · have hcarry := carryOut_load hv hroom x
    refine ⟨_, loadBlock_loaded hv x, hcarry, ?_, ?_⟩
    · intro m' hv' hroom' hindex hmem hreg
      exact (carryOut_of_mirrored hv' hroom'
        (mirrored_of_loaded hv.registers_size hregisters hindex hmem hreg)).1
    · intro hroom2
      have hv₁ := valid_of_carryOut (i := .register .loadRegisters x) hv
        (overrun?_of_room hroom) hcarry
      have hroom₁ : m.state.pc + 2 + 2 < memorySize := by omega
      exact carryOut_of_mirrored hv₁ hroom₁
        (mirrored_of_loaded hv.registers_size hregisters rfl rfl rfl)

/-- A machine with something in its first registers and the index near the end of sixteen bits, and
of memory. -/
def laden : Machine :=
  { standard with state := { standard.state with
      index := 0xFFFE
      registers := #[1, 2, 3, 4, 5, 6, 7, 8, 9, 10, 11, 12, 13, 14, 15, 16] } }

theorem laden_valid : laden.state.Valid :=
  { standard_valid with
    registers_size := rfl
    index_mem := (by decide : (0 : Int) ≤ 0xFFFE ∧ (0xFFFE : Int) ≤ 0xFFFF) }

/-- A machine with nothing in its registers and the same index. -/
def unladen (memory : Array UInt8) : Machine :=
  { standard with state := { standard.state with index := 0xFFFE, memory := memory } }

/-- Four registers stored round the end of memory, and loaded again in a machine that had none of
them. -/
theorem block_round_trip_laden : ∃ memory, ∃ registers : Array UInt8,
    carryOut ⟨0xF, 0x3, 0x5, 0x5⟩ laden = .ok none (laden.stored memory) ∧
    memory[0xFFE]? = some 1 ∧ memory[0xFFF]? = some 2 ∧ memory[0]? = some 3 ∧
    memory[1]? = some 4 ∧
    carryOut ⟨0xF, 0x3, 0x6, 0x5⟩ (unladen memory) =
      .ok none ((unladen memory).computed registers) ∧
    registers[3]? = some 4 ∧ registers[4]? = some 0 := by
  obtain ⟨⟨memory, hstored, hstore, hback, -⟩, -⟩ :=
    block_round_trip laden_valid (by decide) 0x3
  have hvalid : (unladen memory).state.Valid :=
    { laden_valid with
      memory_size := hstored.size.trans laden_valid.memory_size
      registers_size := standard_valid.registers_size }
  have hroom : (0x200 : Int) + 2 < memorySize := by decide
  obtain ⟨registers, -, hloaded, hkept, hload⟩ :=
    hback (unladen memory) hvalid hroom rfl rfl
  exact ⟨memory, registers, hstore, hstored.stored 0 (by decide), hstored.stored 1 (by decide),
    hstored.stored 2 (by decide), hstored.stored 3 (by decide), hload,
    hloaded 3 (by decide), hkept 4 (by decide)⟩

end Machine

end Chip8
