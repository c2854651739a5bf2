import Chip8.Proofs.State.Action

/-!
# Memory with a program in it

A program that fits is copied to the start of program memory, byte by byte, and memory keeps its
size. One that does not fit is not copied at all.
-/

set_option autoImplicit false

namespace Chip8

open State

namespace State

/-- The state with a program copied to the start of program memory. -/
def loaded (s : State) (program : Array UInt8) : State :=
  { s with
    memory := s.memory.extract 0 programStart ++ program ++
      s.memory.extract (programStart + program.size) s.memory.size }

theorem load_of_room (s : State) {program : Array UInt8} (h : program.size ≤ maxProgramSize) :
    load program s = .ok program.size (s.loaded program) := by
  rw [load, if_neg (by omega)]
  rfl

theorem load_of_no_room (s : State) {program : Array UInt8} (h : maxProgramSize < program.size) :
    load program s = .error (.fault (.programTooLarge program.size maxProgramSize)) s := by
  rw [load, if_pos h]

theorem loaded_memory_size {s : State} (hs : s.memory.size = memorySize) {program : Array UInt8}
    (h : program.size ≤ maxProgramSize) : (s.loaded program).memory.size = memorySize := by
  simp only [loaded, Array.size_append, Array.size_extract, hs]
  simp only [maxProgramSize, memorySize, programStart] at *
  omega

/-- Memory before the program and behind it is as it was. -/
theorem loaded_memory_outside {s : State} (hs : s.memory.size = memorySize)
    (program : Array UInt8) {p : Nat} (hp : p < programStart ∨ programStart + program.size ≤ p) :
    (s.loaded program).memory[p]? = s.memory[p]? := by
  have hroom : programStart ≤ s.memory.size := by rw [hs]; decide
  have hleft : (s.memory.extract 0 programStart).size = programStart := by
    rw [Array.size_extract, Nat.min_eq_left hroom, Nat.sub_zero]
  rw [loaded]
  rcases hp with hbefore | hbehind
  · rw [Array.append_assoc, Array.getElem?_append_left (by omega), Array.getElem?_extract,
      if_pos (by omega), Nat.zero_add]
  · have hboth : (s.memory.extract 0 programStart ++ program).size =
        programStart + program.size := by
      rw [Array.size_append, hleft]
    rw [Array.getElem?_append_right (by omega), hboth, Array.getElem?_extract,
      Nat.add_sub_cancel' hbehind]
    by_cases hmem : p < s.memory.size
    · rw [if_pos (by omega)]
    · rw [if_neg (by omega), Array.getElem?_eq_none (by omega)]

/-- The bytes of the program, each at its address. -/
theorem loaded_byte {s : State} (hs : s.memory.size = memorySize) {program : Array UInt8}
    (h : program.size ≤ maxProgramSize) {k : Nat} (hk : k < program.size) :
    (s.loaded program).byte (programStart + k : Nat) = program[k] := by
  have hleft : (s.memory.extract 0 programStart).size = programStart := by
    rw [Array.size_extract, hs]
    decide
  have hplace : addressPlace (programStart + k : Nat) = programStart + k := by
    rw [addressPlace_of_mem, Int.toNat_natCast]
    simp only [maxProgramSize, memorySize, programStart] at *
    omega
  have hmem : programStart + k < (s.memory.extract 0 programStart ++ program).size := by
    rw [Array.size_append, hleft]
    omega
  rw [byte, hplace, loaded, Array.getD_eq_getD_getElem?, Array.getElem?_append_left hmem,
    Array.getElem?_append_right (by omega), hleft, Nat.add_sub_cancel_left,
    Array.getElem?_eq_getElem hk, Option.getD_some]

end State

end Chip8
