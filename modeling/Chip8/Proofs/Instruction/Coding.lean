import Chip8.Instruction.Encode

/-!
# Words and instructions

`Opcode.decode` and `Instruction.encode` are two tables of the same instruction set, written in two
directions. They agree:

> **an opcode decodes to an instruction exactly if it is the code of that instruction**
> (`Opcode.decode_eq_ok_iff`),

and an opcode is settled by its word. So whatever is said of instructions can be said of words, by
way of `encode` alone and with no look at how words are read.
-/

set_option autoImplicit false

namespace Chip8

/-! ## Selectors -/

theorem PairOp.ofSelector?_eq_some_iff (op : PairOp) (n : Nibble) :
    ofSelector? n = some op ↔ op.group = 0x8 ∧ op.selector = n := by
  revert n
  cases op <;> decide

theorem RegisterOp.ofSelector?_eq_some_iff (op : RegisterOp) (n : Fin 256) :
    ofSelector? n = some op ↔ op.group = 0xF ∧ op.selector = n := by
  revert n
  cases op <;> decide +kernel

namespace Opcode

/-! ## The parts of a word -/

theorem word_ofAddress (g : Nibble) (a : Fin 4096) :
    (ofAddress g a).word = 0x1000 * g.val + a.val := by
  simp only [ofAddress, word]
  omega

theorem word_ofImmediate (g x : Nibble) (v : Fin 256) :
    (ofImmediate g x v).word = 0x1000 * g.val + 0x100 * x.val + v.val := by
  simp only [ofImmediate, word]
  omega

/-- Nothing of an opcode is lost in its word. -/
theorem word_inj {o o' : Opcode} : o.word = o'.word ↔ o = o' := by
  constructor
  · obtain ⟨g, a, b, c⟩ := o
    obtain ⟨g', a', b', c'⟩ := o'
    intro h
    simp only [word] at h
    simp only [Opcode.mk.injEq, Fin.ext_iff]
    omega
  · rintro rfl
    rfl

end Opcode

/-! ## The digits of a code -/

section Digits

variable {u : Nat}

theorem digits_of_address {g : Nibble} {a : Fin 4096} (h : u = (Opcode.ofAddress g a).word) :
    u / 0x1000 = g ∧ u % 0x1000 = a := by
  rw [Opcode.word_ofAddress] at h
  omega

theorem digits_of_immediate {g x : Nibble} {v : Fin 256}
    (h : u = (Opcode.ofImmediate g x v).word) :
    u / 0x1000 = g ∧ u / 0x100 % 0x10 = x ∧ u % 0x100 = v := by
  rw [Opcode.word_ofImmediate] at h
  omega

theorem digits_of_nibbles {g x y n : Nibble} (h : u = (Opcode.mk g x y n).word) :
    u / 0x1000 = g ∧ u / 0x100 % 0x10 = x ∧ u / 0x10 % 0x10 = y ∧ u % 0x10 = n := by
  simp only [Opcode.word] at h
  omega

end Digits

namespace Opcode

/-! ## Decoding and encoding -/

theorem decode_encode (i : Instruction) : i.encode.decode = .ok i := by
  cases i with
  | clear | ret | draw => rfl
  | address op addr =>
    have haddr : (ofAddress op.group addr).address = addr := address_ofAddress _ _
    cases op <;> exact congrArg (fun a => Except.ok (Instruction.address _ a)) haddr
  | immediate op x value =>
    have hvalue : (ofImmediate op.group x value).immediate = value := immediate_ofImmediate _ _ _
    cases op <;> exact congrArg (fun v => Except.ok (Instruction.immediate _ x v)) hvalue
  | pair op x y => cases op <;> rfl
  | register op x => cases op <;> rfl

/-! An opcode whose group and selector are those of an operation is the code of the operation with
the operands that stand in the opcode. -/

theorem encode_address {o : Opcode} {op : AddressOp} (hg : o.group = op.group) :
    (Instruction.address op o.address).encode = o := by
  rw [Instruction.encode, ← hg]
  exact ofAddress_address o

theorem encode_immediate {o : Opcode} {op : ImmediateOp} (hg : o.group = op.group) :
    (Instruction.immediate op o.first o.immediate).encode = o := by
  rw [Instruction.encode, ← hg]
  exact ofImmediate_immediate o

theorem encode_pair {o : Opcode} {op : PairOp} (hg : o.group = op.group)
    (hs : o.third = op.selector) : (Instruction.pair op o.first o.second).encode = o := by
  rw [Instruction.encode, ← hg, ← hs]

theorem encode_register {o : Opcode} {op : RegisterOp} (hg : o.group = op.group)
    (hs : o.immediate = op.selector) : (Instruction.register op o.first).encode = o := by
  rw [Instruction.encode, ← hg, ← hs]
  exact ofImmediate_immediate o

theorem encode_of_decodeSystem {o : Opcode} {i : Instruction} (hg : o.group = 0x0)
    (h : o.decodeSystem = .ok i) : i.encode = o := by
  rw [← ofAddress_address o, hg]
  unfold decodeSystem at h
  by_cases hclear : o.address.val = 0x0E0
  · rw [if_pos hclear] at h
    cases h
    exact congrArg (ofAddress 0x0) (Fin.ext hclear.symm)
  · rw [if_neg hclear] at h
    by_cases hret : o.address.val = 0x0EE
    · rw [if_pos hret] at h
      cases h
      exact congrArg (ofAddress 0x0) (Fin.ext hret.symm)
    · rw [if_neg hret] at h
      cases h

theorem encode_of_decodeComparison {o : Opcode} {i : Instruction} (op : PairOp)
    (hg : o.group = op.group) (hs : op.selector = 0x0) (h : o.decodeComparison op = .ok i) :
    i.encode = o := by
  unfold decodeComparison at h
  by_cases hzero : o.third.val = 0
  · rw [if_pos hzero] at h
    cases h
    exact encode_pair hg ((Fin.ext hzero).trans hs.symm)
  · rw [if_neg hzero] at h
    cases h

theorem encode_of_decodeArithmetic {o : Opcode} {i : Instruction} (hg : o.group = 0x8)
    (h : o.decodeArithmetic = .ok i) : i.encode = o := by
  unfold decodeArithmetic at h
  cases hop : PairOp.ofSelector? o.third with
  | none =>
    rw [hop] at h
    cases h
  | some op =>
    rw [hop] at h
    cases h
    obtain ⟨hgroup, hselector⟩ := (PairOp.ofSelector?_eq_some_iff op _).mp hop
    exact encode_pair (hg.trans hgroup.symm) hselector.symm

theorem encode_of_decodeKeys {o : Opcode} {i : Instruction} (hg : o.group = 0xE)
    (h : o.decodeKeys = .ok i) : i.encode = o := by
  unfold decodeKeys at h
  by_cases hpressed : o.immediate.val = 0x9E
  · rw [if_pos hpressed] at h
    cases h
    exact encode_register hg (Fin.ext hpressed)
  · rw [if_neg hpressed] at h
    by_cases hreleased : o.immediate.val = 0xA1
    · rw [if_pos hreleased] at h
      cases h
      exact encode_register hg (Fin.ext hreleased)
    · rw [if_neg hreleased] at h
      cases h

theorem encode_of_decodeMisc {o : Opcode} {i : Instruction} (hg : o.group = 0xF)
    (h : o.decodeMisc = .ok i) : i.encode = o := by
  unfold decodeMisc at h
  cases hop : RegisterOp.ofSelector? o.immediate with
  | none =>
    rw [hop] at h
    cases h
  | some op =>
    rw [hop] at h
    cases h
    obtain ⟨hgroup, hselector⟩ := (RegisterOp.ofSelector?_eq_some_iff op _).mp hop
    exact encode_register (hg.trans hgroup.symm) hselector.symm

theorem encode_of_decode {o : Opcode} {i : Instruction} (h : o.decode = .ok i) :
    i.encode = o := by
  obtain ⟨g, hg⟩ : ∃ g, o.group = g := ⟨_, rfl⟩
  unfold decode at h
  rw [hg] at h
  -- one case for each group
  match g with
  | ⟨0x0, _⟩ => exact encode_of_decodeSystem hg h
  | ⟨0x1, _⟩ | ⟨0x2, _⟩ | ⟨0xA, _⟩ | ⟨0xB, _⟩ =>
    cases h
    exact encode_address hg
  | ⟨0x3, _⟩ | ⟨0x4, _⟩ | ⟨0x6, _⟩ | ⟨0x7, _⟩ | ⟨0xC, _⟩ =>
    cases h
    exact encode_immediate hg
  | ⟨0x5, _⟩ => exact encode_of_decodeComparison .skipEq hg rfl h
  | ⟨0x8, _⟩ => exact encode_of_decodeArithmetic hg h
  | ⟨0x9, _⟩ => exact encode_of_decodeComparison .skipNe hg rfl h
  | ⟨0xD, _⟩ =>
    cases h
    obtain ⟨_, x, y, n⟩ := o
    exact congrArg (Opcode.mk · x y n) hg.symm
  | ⟨0xE, _⟩ => exact encode_of_decodeKeys hg h
  | ⟨0xF, _⟩ => exact encode_of_decodeMisc hg h
  | ⟨n + 0x10, hn⟩ => exact absurd hn (by omega)

/-- **The two tables agree.** -/
theorem decode_eq_ok_iff {o : Opcode} {i : Instruction} : o.decode = .ok i ↔ o = i.encode := by
  constructor
  · intro h
    exact (encode_of_decode h).symm
  · rintro rfl
    exact decode_encode i

end Opcode

end Chip8
