import Chip8.Proofs.Machine.Program

/-!
# Where a cycle goes on

The program counter after a cycle is a function of the state before it, and in particular of the
word at the program counter. `State.onward` is this function, read off the word itself with no
decoding: the highest digit of the word says how the machine goes on, and the others are taken as
the address, the registers or the byte that they hold there. A word that is no instruction is passed
over like most that are one.

The proof meets the word twice. Where it is the code of an instruction its digits are known, and
`onward` is the target of that instruction; where it is not, none of the cases that are told apart
here can apply.
-/

set_option autoImplicit false

namespace Chip8

open State

namespace State

/-- Where the machine goes on from the word at the program counter. -/
def onward (s : State) : Int :=
  let nnn := s.word % 0x1000
  let nn := s.word % 0x100
  let n := s.word % 0x10
  let x := s.word / 0x100 % 0x10
  let y := s.word / 0x10 % 0x10
  let skipping (condition : Bool) : Int := if condition then s.pc + 4 else s.pc + 2
  match s.word / 0x1000 with
  | 0x0 => if nnn = 0x0EE then s.stack.getD (s.sp - 1).toNat 0 + 2 else s.pc + 2
  | 0x1 | 0x2 => nnn
  | 0x3 => skipping ((s.reg x).toNat = nn)
  | 0x4 => skipping ((s.reg x).toNat ≠ nn)
  | 0x5 => skipping (n = 0 ∧ s.reg x = s.reg y)
  | 0x9 => skipping (n = 0 ∧ s.reg x ≠ s.reg y)
  | 0xB => (nnn + (s.reg 0).toNat) % 0x1000
  | 0xE =>
    if nn = 0x9E then skipping (s.held ((s.reg x).toNat % 16))
    else if nn = 0xA1 then skipping (!s.held ((s.reg x).toNat % 16))
    else s.pc + 2
  | 0xF => if nn = 0x0A ∧ s.keys.any id = false then s.pc else s.pc + 2
  | _ => s.pc + 2

variable {s : State}

/-! ## Instructions -/

theorem skipping_eq (pc : Int) (two : Bool) :
    (if two then pc + 4 else pc + 2) = pc + stride two := by
  cases two <;> rfl

theorem onward_address {op : AddressOp} {addr : Fin 4096}
    (h : s.word = (Instruction.address op addr).encode.word) :
    s.onward = (Instruction.address op addr).target s := by
  obtain ⟨hg, haddr⟩ := digits_of_address h
  cases op with
  | jump | call | loadIndex | jumpOffset =>
    simp only [onward, hg, haddr]
    rfl

theorem onward_immediate {op : ImmediateOp} {x : Nibble} {value : Fin 256}
    (h : s.word = (Instruction.immediate op x value).encode.word) :
    s.onward = (Instruction.immediate op x value).target s := by
  obtain ⟨hg, hx, hvalue⟩ := digits_of_immediate h
  cases op with
  | skipEq | skipNe =>
    simp only [onward, hg, hx, hvalue]
    exact skipping_eq _ _
  | load | add | random =>
    simp only [onward, hg]
    rfl

theorem onward_pair {op : PairOp} {x y : Nibble}
    (h : s.word = (Instruction.pair op x y).encode.word) :
    s.onward = (Instruction.pair op x y).target s := by
  obtain ⟨hg, hx, hy, hn⟩ := digits_of_nibbles h
  cases op with
  | skipEq | skipNe =>
    have hzero : s.word % 0x10 = 0 := hn
    simp only [onward, hg, hx, hy, hzero, true_and]
    exact skipping_eq _ _
  | load | or | and | xor | add | sub | shr | subn | shl =>
    simp only [onward, hg]
    rfl

theorem onward_draw {x y n : Nibble} (h : s.word = (Instruction.draw x y n).encode.word) :
    s.onward = (Instruction.draw x y n).target s := by
  obtain ⟨hg, -⟩ := digits_of_nibbles h
  simp only [onward, hg]
  rfl

theorem onward_register {op : RegisterOp} {x : Nibble}
    (h : s.word = (Instruction.register op x).encode.word) :
    s.onward = (Instruction.register op x).target s := by
  obtain ⟨hg, hx, hselector⟩ := digits_of_immediate h
  cases op with
  | skipPressed | skipReleased =>
    simp only [onward, hg, hx, hselector]
    exact skipping_eq _ _
  | waitKey =>
    have hbyte : s.word % 0x100 = 0x0A := hselector
    simp only [onward, hg, hbyte, true_and, Instruction.target]
    cases s.keys.any id with
    | false | true => rfl
  | readDelay | setDelay | setSound | addIndex | loadGlyph | storeDecimal | storeRegisters
  | loadRegisters =>
    simp only [onward, hg, hselector]
    rfl

theorem onward_clear (h : s.word = Instruction.clear.encode.word) :
    s.onward = Instruction.clear.target s := by
  obtain ⟨hg, haddr⟩ := digits_of_address h
  simp only [onward, hg, haddr]
  rfl

theorem onward_ret (h : s.word = Instruction.ret.encode.word) :
    s.onward = Instruction.ret.target s := by
  obtain ⟨hg, haddr⟩ := digits_of_address h
  simp only [onward, hg, haddr]
  rfl

theorem onward_of_instruction {i : Instruction} (h : s.word = i.encode.word) :
    s.onward = i.target s := by
  cases i with
  | clear => exact onward_clear h
  | ret => exact onward_ret h
  | address op addr => exact onward_address h
  | immediate op x value => exact onward_immediate h
  | pair op x y => exact onward_pair h
  | draw x y n => exact onward_draw h
  | register op x => exact onward_register h

/-! ## Words that are no instructions

Whatever has the digits that `onward` looks for is the code of an instruction. -/

theorem code_of_address (op : AddressOp) (hg : s.word / 0x1000 = op.group) :
    ∃ i : Instruction, s.word = i.encode.word := by
  refine ⟨.address op ⟨s.word % 0x1000, by omega⟩, ?_⟩
  rw [Instruction.encode, Opcode.word_ofAddress]
  dsimp only
  omega

theorem code_of_immediate (op : ImmediateOp) (hg : s.word / 0x1000 = op.group) :
    ∃ i : Instruction, s.word = i.encode.word := by
  refine ⟨.immediate op ⟨s.word / 0x100 % 0x10, by omega⟩ ⟨s.word % 0x100, by omega⟩, ?_⟩
  rw [Instruction.encode, Opcode.word_ofImmediate]
  dsimp only
  omega

theorem code_of_comparison (op : PairOp) (hg : s.word / 0x1000 = op.group)
    (hn : s.word % 0x10 = op.selector) : ∃ i : Instruction, s.word = i.encode.word := by
  refine ⟨.pair op ⟨s.word / 0x100 % 0x10, by omega⟩ ⟨s.word / 0x10 % 0x10, by omega⟩, ?_⟩
  simp only [Instruction.encode, Opcode.word]
  omega

theorem code_of_register (op : RegisterOp) (hg : s.word / 0x1000 = op.group)
    (hnn : s.word % 0x100 = op.selector) : ∃ i : Instruction, s.word = i.encode.word := by
  refine ⟨.register op ⟨s.word / 0x100 % 0x10, by omega⟩, ?_⟩
  rw [Instruction.encode, Opcode.word_ofImmediate]
  dsimp only
  omega

theorem onward_of_no_instruction (h : ∀ i : Instruction, s.word ≠ i.encode.word) :
    s.onward = s.pc + 2 := by
  have hnone : ¬ ∃ i : Instruction, s.word = i.encode.word := by
    rintro ⟨i, hi⟩
    exact h i hi
  unfold onward
  split
  case h_1 hg =>
    have hret : s.word % 0x1000 ≠ 0x0EE := by
      intro hret
      have hword : s.word = 0x00EE := by omega
      exact hnone ⟨.ret, hword⟩
    rw [if_neg hret]
  case h_2 hg => exact absurd (code_of_address .jump hg) hnone
  case h_3 hg => exact absurd (code_of_address .call hg) hnone
  case h_4 hg => exact absurd (code_of_immediate .skipEq hg) hnone
  case h_5 hg => exact absurd (code_of_immediate .skipNe hg) hnone
  case h_6 hg =>
    have hn : s.word % 0x10 ≠ 0 := fun hn => hnone (code_of_comparison .skipEq hg hn)
    simp [hn]
  case h_7 hg =>
    have hn : s.word % 0x10 ≠ 0 := fun hn => hnone (code_of_comparison .skipNe hg hn)
    simp [hn]
  case h_8 hg => exact absurd (code_of_address .jumpOffset hg) hnone
  case h_9 hg =>
    have hpressed : s.word % 0x100 ≠ 0x9E :=
      fun hnn => hnone (code_of_register .skipPressed hg hnn)
    have hreleased : s.word % 0x100 ≠ 0xA1 :=
      fun hnn => hnone (code_of_register .skipReleased hg hnn)
    rw [if_neg hpressed, if_neg hreleased]
  case h_10 hg =>
    have hwait : s.word % 0x100 ≠ 0x0A :=
      fun hnn => hnone (code_of_register .waitKey hg hnn)
    simp [hwait]
  case h_11 => rfl

end State

namespace Machine

/-- **Where a cycle goes on.** A cycle that completes moves the program counter to where the word
that it found and the state before it say, and that is in memory. -/
theorem cycle_goes_onward {m m' : Machine} {entry : Option TraceEntry} (hv : m.state.Valid)
    (h : cycle m = .ok entry m') :
    m'.state.pc = m.state.onward ∧ 0 ≤ m'.state.pc ∧ m'.state.pc < 4096 := by
  obtain ⟨hf, -, rfl⟩ := of_cycle_ok hv h
  refine ⟨?_, (next_valid hv hf).pc_mem⟩
  rw [next_pc]
  rcases carried_cases hf with ⟨i, hi, -, heq⟩ | ⟨hi, -, reason, heq⟩
  · rw [heq, onward_of_instruction (instruction?_iff_word.mp hi)]
    rfl
  · rw [heq, onward_of_no_instruction (instruction?_eq_none_iff.mp hi)]
    rfl

/-- A jump to the last address, and five further. -/
def overshooting : Machine :=
  { standard with state := (standard.state.setReg 0 5).loaded #[0xBF, 0xFF] }

theorem overshooting_valid : overshooting.state.Valid :=
  loaded_valid ((setReg_keeps standard.state 0 5).valid standard_valid) (by decide)

theorem overshooting_word :
    overshooting.state.word = (Instruction.address .jumpOffset 0xFFF).encode.word := by
  have hword : overshooting.state.word = 256 * 0xBF + 0xFF :=
    word_loaded (s := standard.state.setReg 0 5) #[0xBF, 0xFF] 0 standard_valid.memory_size
      (by decide) (by decide) rfl rfl
  rw [hword]
  decide

theorem cycle_goes_onward_overshooting :
    cycle overshooting = .ok none overshooting.next ∧ overshooting.next.state.pc = 0x004 := by
  have hcycle : cycle overshooting = .ok none overshooting.next :=
    cycle_of_word overshooting_valid (by decide) overshooting_word rfl
  refine ⟨hcycle, ?_⟩
  rw [(cycle_goes_onward overshooting_valid hcycle).1, onward_of_instruction overshooting_word]
  rfl

end Machine

end Chip8
