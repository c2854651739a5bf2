import Chip8.State

/-!
# Sensible states

A state is valid if its arrays have the sizes of the machine and its numbers are where they can be:
the program counter in memory, the stack pointer on the stack, index and return addresses in sixteen
bits, timers in a byte. The count of cycles since the last tick is left out: what bounds it is the
resolution of the timers, which belongs to the machine and not to its state.
-/

set_option autoImplicit false

namespace Chip8

structure State.Valid (s : State) : Prop where
  memory_size : s.memory.size = memorySize
  registers_size : s.registers.size = registerCount
  stack_size : s.stack.size = stackSize
  keys_size : s.keys.size = keyCount
  pixels_size : s.pixels.size = pixelCount
  pc_mem : 0 ≤ s.pc ∧ s.pc < memorySize
  sp_mem : 0 ≤ s.sp ∧ s.sp ≤ stackSize
  index_mem : 0 ≤ s.index ∧ s.index ≤ 0xFFFF
  delayTimer_mem : 0 ≤ s.delayTimer ∧ s.delayTimer ≤ 0xFF
  soundTimer_mem : 0 ≤ s.soundTimer ∧ s.soundTimer ≤ 0xFF
  stack_mem : ∀ a ∈ s.stack, 0 ≤ a ∧ a ≤ 0xFFFF
  cycleCount_nonneg : 0 ≤ s.cycleCount

namespace State

/-- The test of validity. -/
def validate (s : State) : Bool :=
  s.memory.size == memorySize && s.registers.size == registerCount &&
  s.stack.size == stackSize && s.keys.size == keyCount && s.pixels.size == pixelCount &&
  decide (0 ≤ s.pc ∧ s.pc < memorySize) && decide (0 ≤ s.sp ∧ s.sp ≤ stackSize) &&
  decide (0 ≤ s.index ∧ s.index ≤ 0xFFFF) &&
  decide (0 ≤ s.delayTimer ∧ s.delayTimer ≤ 0xFF) &&
  decide (0 ≤ s.soundTimer ∧ s.soundTimer ≤ 0xFF) &&
  s.stack.all (fun a => decide (0 ≤ a ∧ a ≤ 0xFFFF)) && decide (0 ≤ s.cycleCount)

theorem validate_iff {s : State} : s.validate = true ↔ s.Valid := by
  simp only [validate, Bool.and_eq_true, beq_iff_eq, decide_eq_true_eq, Array.all_eq_true']
  constructor
  · rintro ⟨⟨⟨⟨⟨⟨⟨⟨⟨⟨⟨a, b⟩, c⟩, d⟩, e⟩, f⟩, g⟩, h⟩, i⟩, j⟩, k⟩, l⟩
    exact ⟨a, b, c, d, e, f, g, h, i, j, k, l⟩
  · rintro ⟨a, b, c, d, e, f, g, h, i, j, k, l⟩
    exact ⟨⟨⟨⟨⟨⟨⟨⟨⟨⟨⟨a, b⟩, c⟩, d⟩, e⟩, f⟩, g⟩, h⟩, i⟩, j⟩, k⟩, l⟩

instance (s : State) : Decidable s.Valid := decidable_of_iff _ validate_iff

end State

end Chip8
