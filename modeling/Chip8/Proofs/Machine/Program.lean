import Chip8.Proofs.Machine.Cycle
import Chip8.Proofs.Machine.Fresh
import Chip8.Proofs.State.Load

/-!
# Programs in memory, word by word

What is needed to follow a given program: the word at which the machine stands is the one that was
loaded there, and the cycle is settled by that word. Memory may have been loaded in an earlier
state; all that counts is that it is still the same.
-/

set_option autoImplicit false

namespace Chip8

open Outcome

namespace State

theorem loaded_valid {s : State} (hs : s.Valid) {program : Array UInt8}
    (h : program.size ≤ maxProgramSize) : (s.loaded program).Valid :=
  { hs with memory_size := loaded_memory_size hs.memory_size h }

theorem word_loaded {s t : State} (program : Array UInt8) (k : Nat)
    (hs : s.memory.size = memorySize) (h : program.size ≤ maxProgramSize)
    (hk : k + 1 < program.size) (hmem : t.memory = (s.loaded program).memory)
    (hpc : t.pc = (programStart + k : Nat)) :
    t.word = 256 * program[k].toNat + program[k + 1].toNat := by
  have hbyte : ∀ a, t.byte a = (s.loaded program).byte a := by
    intro a
    rw [byte, byte, hmem]
  have hlow : t.pc + 1 = (programStart + (k + 1) : Nat) := by
    rw [hpc]
    omega
  rw [word, hlow, hpc, hbyte, hbyte, loaded_byte hs h hk, loaded_byte hs h (by omega)]

end State

namespace Machine

variable {m : Machine} {i : Instruction}

theorem fault?_of_word (hpc : m.state.pc ≤ memorySize - 2) (hw : m.state.word = i.encode.word)
    (hi : i.fault? m.state = none) : m.fault? = none := by
  rw [fault?_of_instruction hpc (instruction?_iff_word.mpr hw), hi]

theorem cycle_of_word (hv : m.state.Valid) (hpc : m.state.pc ≤ memorySize - 2)
    (hw : m.state.word = i.encode.word) (hi : i.fault? m.state = none) :
    cycle m = .ok m.entry? m.next := by
  rw [cycle_eq hv, fault?_of_word hpc hw hi, settled_none]

/-- What the instruction leaves behind, time apart. -/
theorem next_frame_of_word (hw : m.state.word = i.encode.word) :
    ∃ delay sound since count : Int,
      m.next.state =
        { i.effect m.state with
          delayTimer := delay, soundTimer := sound, sinceTick := since, cycleCount := count } := by
  have hcarried := carried_of_instruction (instruction?_iff_word.mpr hw)
  obtain ⟨delay, sound, since, count, heq⟩ := next_frame m
  rw [hcarried] at heq
  exact ⟨delay, sound, since, count, heq⟩

end Machine

end Chip8
