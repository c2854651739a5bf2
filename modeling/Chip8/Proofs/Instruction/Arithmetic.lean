import Chip8.Proofs.Machine.Cycle
import Chip8.Proofs.Machine.Fresh

/-!
# Arithmetic as equations between numbers

`PairOp.compute` works out a result that need not fit a byte and a flag by a comparison, and the
result is cut to a byte afterwards. Whether that is the arithmetic that was meant cannot be seen
from the way it is computed, least of all for the subtractions, whose flag says that there was *no*
borrow. So it is said here once more, for each operation as one equation between the operands, the
byte that comes out and the flag (`Equation`). The equation has one solution in bytes and flags, and

> **that solution is what the instruction leaves in the registers** (`arithmetic_exact`),

the result first and the flag after it. The order matters where they go to one register: there the
flag stays. That the operands are taken before either is written matters where the flag register is
one of them.
-/

set_option autoImplicit false

namespace Chip8

open State

/-! ## The equations -/

/-- How the operands `a` and `b`, the result `r` and the flag `f` belong together, for an
instruction of group 8 with the given last nibble, if it has a flag. An addition and a shift to the
left have the flag as a ninth bit of the result, a shift to the right has it as the bit below the
lowest. In a subtraction 256 is borrowed if the flag is 0. -/
def Equation (selector : Nibble) (a b r f : Int) : Prop :=
  match selector with
  | 0x4 => r + 256 * f = a + b
  | 0x5 => r = a - b + 256 * (1 - f)
  | 0x6 => 2 * r + f = a
  | 0x7 => r = b - a + 256 * (1 - f)
  | 0xE => r + 256 * f = 2 * a
  | _ => False

/-- The byte and the flag that an instruction with a flag makes of two bytes. -/
structure Solves (selector : Nibble) (a b r f : UInt8) : Prop where
  flag : f = 0 ∨ f = 1
  equation : Equation selector a.toNat b.toNat r.toNat f.toNat

/-- A result and a flag that fit the equation are the only ones. -/
theorem Solves.unique {selector : Nibble} {a b r f r' f' : UInt8} (h : Solves selector a b r f)
    (h' : Solves selector a b r' f') : r = r' ∧ f = f' := by
  have hr : r.toNat < 256 := r.toNat_lt
  have hr' : r'.toNat < 256 := r'.toNat_lt
  have hnumbers : r.toNat = r'.toNat ∧ f.toNat = f'.toNat := by
    have hf : f.toNat = 0 ∨ f.toNat = 1 := h.flag.imp (congrArg _) (congrArg _)
    have hf' : f'.toNat = 0 ∨ f'.toNat = 1 := h'.flag.imp (congrArg _) (congrArg _)
    have heq := h.equation
    unfold Equation at heq
    split at heq
    case h_6 => exact heq.elim
    all_goals
      have heq' := h'.equation
      simp only [Equation] at heq'
      omega
  exact ⟨UInt8.toNat_inj.mp hnumbers.1, UInt8.toNat_inj.mp hnumbers.2⟩

/-! ## What is computed solves them -/

/-- The flag as it is kept in a register. -/
def flagByte (flag : Bool) : UInt8 := if flag then 1 else 0

theorem flagByte_toNat (flag : Bool) : (flagByte flag).toNat = if flag = true then 1 else 0 := by
  cases flag with
  | false => rfl
  | true => rfl

/-- Which equation holds is seen from the uncut result: what the cut takes away is 256 or nothing,
and the comparison behind the flag says which. -/
theorem PairOp.compute_solves {op : PairOp} {a b : UInt8} {v : Int} {flag : Bool}
    (h : op.compute a b = (v, some flag)) : Solves op.selector a b (byteOf v) (flagByte flag) := by
  have ha : a.toNat < 256 := a.toNat_lt
  have hb : b.toNat < 256 := b.toNat_lt
  refine ⟨?_, ?_⟩
  · cases flag with
    | false => exact .inl rfl
    | true => exact .inr rfl
  · rw [toNat_byteOf, flagByte_toNat]
    cases op with
    | skipEq | skipNe | load | or | and | xor => cases h
    | add | sub | shr | subn | shl =>
      cases h
      simp only [selector, Equation, decide_eq_true_eq]
      split
      all_goals omega

/-- The instructions with a flag, by their last nibble. -/
theorem exists_flagged {selector : Nibble} (h : selector ∈ [0x4, 0x5, 0x6, 0x7, 0xE])
    (a b : UInt8) :
    ∃ op v flag, PairOp.selector op = selector ∧ op.compute a b = (v, some flag) := by
  simp only [List.mem_cons, List.not_mem_nil, or_false] at h
  rcases h with rfl | rfl | rfl | rfl | rfl
  · exact ⟨.add, _, _, rfl, rfl⟩
  · exact ⟨.sub, _, _, rfl, rfl⟩
  · exact ⟨.shr, _, _, rfl, rfl⟩
  · exact ⟨.subn, _, _, rfl, rfl⟩
  · exact ⟨.shl, _, _, rfl, rfl⟩

/-! ## What is left in the registers -/

/-- The machine behind an instruction that has written registers and nothing else. -/
def Machine.computed (m : Machine) (registers : Array UInt8) : Machine :=
  { m with state := { m.state with registers := registers, pc := m.state.pc + 2 } }

namespace Machine

variable {m : Machine}

theorem carryOut_pair (hv : m.state.Valid) (hroom : m.state.pc + 2 < memorySize) {op : PairOp}
    (hgroup : op.group = 0x8) (x y : Nibble) :
    carryOut ⟨0x8, x, y, op.selector⟩ m =
      .ok none { m with state := { op.write x y m.state with pc := m.state.pc + 2 } } := by
  have hencode : (Instruction.pair op x y).encode = ⟨0x8, x, y, op.selector⟩ := by
    rw [Instruction.encode, hgroup]
  -- the two comparisons of registers have other groups
  have hskips : (Instruction.pair op x y).skips m.state = false := by
    cases op with
    | skipEq | skipNe => cases hgroup
    | load | or | and | xor | add | sub | shr | subn | shl => rfl
  have hpc : (Instruction.pair op x y).target m.state = m.state.pc + 2 :=
    congrArg (m.state.pc + stride ·) hskips
  have hfault : (Instruction.pair op x y).fault? m.state = none :=
    (congrArg (overrun? <| m.state.pc + stride ·) hskips).trans (overrun?_of_room hroom)
  rw [← hencode, carryOut_encode hv hfault, Instruction.effect, hpc]
  rfl

/-- The flag is written last, and to a register of its own unless `x` is that register. -/
theorem carryOut_flagged (hv : m.state.Valid) (hroom : m.state.pc + 2 < memorySize) {op : PairOp}
    {x y : Nibble} {v : Int} {flag : Bool}
    (h : op.compute (m.state.reg x) (m.state.reg y) = (v, some flag)) :
    carryOut ⟨0x8, x, y, op.selector⟩ m =
      .ok none (m.computed ((m.state.registers.setIfInBounds x (byteOf v)).setIfInBounds 0xF
        (flagByte flag))) := by
  cases op with
  | skipEq | skipNe | load | or | and | xor => cases h
  | add | sub | shr | subn | shl =>
    cases h
    exact carryOut_pair hv hroom rfl x y

theorem carryOut_unflagged (op : PairOp) (hv : m.state.Valid)
    (hroom : m.state.pc + 2 < memorySize) (hgroup : op.group = 0x8) {x y : Nibble} {b : UInt8}
    (h : op.compute (m.state.reg x) (m.state.reg y) = ((b.toNat : Int), none)) :
    carryOut ⟨0x8, x, y, op.selector⟩ m =
      .ok none (m.computed (m.state.registers.setIfInBounds x b)) := by
  have hresult : byteOf (op.compute (m.state.reg x) (m.state.reg y)).1 = b := by
    rw [h, byteOf_toNat]
  have hwrite : op.write x y m.state = m.state.setReg x b := by
    cases op with
    | skipEq | skipNe => cases hgroup
    | add | sub | shr | subn | shl => cases congrArg Prod.snd h
    | load | or | and | xor => exact congrArg (m.state.setReg x) hresult
  rw [carryOut_pair hv hroom hgroup, hwrite]
  rfl

theorem carryOut_add_immediate (hv : m.state.Valid) (hroom : m.state.pc + 2 < memorySize)
    (x : Nibble) (value : Fin 256) :
    carryOut (.ofImmediate 0x7 x value) m =
      .ok none (m.computed (m.state.registers.setIfInBounds x
        (UInt8.ofNat (((m.state.reg x).toNat + value.val) % 256)))) := by
  have hfault : (Instruction.immediate .add x value).fault? m.state = none := overrun?_of_room hroom
  exact carryOut_encode hv hfault

/-- **Arithmetic on registers is what the equations say.** With a flag there is one byte and one
flag that solve the equation for the values of the two registers before the instruction, and the
register file afterwards is the old one with the byte in the first register and then the flag in the
flag register. Without a flag only the first register is set. Nothing else changes but the program
counter. -/
theorem arithmetic_exact (hv : m.state.Valid) (hroom : m.state.pc + 2 < memorySize)
    (x y : Nibble) :
    (∀ selector : Nibble, selector ∈ [0x4, 0x5, 0x6, 0x7, 0xE] → ∃ r f : UInt8,
      Solves selector (m.state.reg x) (m.state.reg y) r f ∧
      (∀ r' f', Solves selector (m.state.reg x) (m.state.reg y) r' f' → r' = r ∧ f' = f) ∧
      carryOut ⟨0x8, x, y, selector⟩ m =
        .ok none (m.computed ((m.state.registers.setIfInBounds x r).setIfInBounds 0xF f))) ∧
    carryOut ⟨0x8, x, y, 0x0⟩ m =
      .ok none (m.computed (m.state.registers.setIfInBounds x (m.state.reg y))) ∧
    carryOut ⟨0x8, x, y, 0x1⟩ m =
      .ok none (m.computed (m.state.registers.setIfInBounds x (m.state.reg x ||| m.state.reg y))) ∧
    carryOut ⟨0x8, x, y, 0x2⟩ m =
      .ok none (m.computed (m.state.registers.setIfInBounds x (m.state.reg x &&& m.state.reg y))) ∧
    carryOut ⟨0x8, x, y, 0x3⟩ m =
      .ok none (m.computed (m.state.registers.setIfInBounds x (m.state.reg x ^^^ m.state.reg y))) ∧
    ∀ value : Fin 256, carryOut (.ofImmediate 0x7 x value) m =
      .ok none (m.computed (m.state.registers.setIfInBounds x
        (UInt8.ofNat (((m.state.reg x).toNat + value.val) % 256)))) := by
  refine ⟨?_, ?_, ?_, ?_, ?_, carryOut_add_immediate hv hroom x⟩
  · intro selector hselector
    obtain ⟨op, v, flag, rfl, hcompute⟩ :=
      exists_flagged hselector (m.state.reg x) (m.state.reg y)
    have hsolves := PairOp.compute_solves hcompute
    exact ⟨byteOf v, flagByte flag, hsolves, fun r' f' h' => h'.unique hsolves,
      carryOut_flagged hv hroom hcompute⟩
  · exact carryOut_unflagged .load hv hroom rfl rfl
  · exact carryOut_unflagged .or hv hroom rfl rfl
  · exact carryOut_unflagged .and hv hroom rfl rfl
  · exact carryOut_unflagged .xor hv hroom rfl rfl

/-- A machine with 200 in the flag register. -/
def brimful : Machine := { standard with state := standard.state.setReg 0xF 200 }

theorem brimful_valid : brimful.state.Valid :=
  { standard_valid with
    registers_size := (setReg_registers_size _ _ _).trans standard_valid.registers_size }

/-- The flag register added to itself: the sum, which is 144 with a carry, is lost to the carry. -/
theorem arithmetic_exact_aliased : carryOut ⟨0x8, 0xF, 0xF, 0x4⟩ brimful =
    .ok none (brimful.computed
      ((brimful.state.registers.setIfInBounds 0xF 144).setIfInBounds 0xF 1)) := by
  obtain ⟨r, f, -, hunique, hcarry⟩ :=
    (arithmetic_exact brimful_valid (by decide) 0xF 0xF).1 0x4 (by decide)
  have hsolves : Solves 0x4 (brimful.state.reg 0xF) (brimful.state.reg 0xF) 144 1 :=
    ⟨.inr rfl, (by decide : (144 : Int) + 256 * 1 = 200 + 200)⟩
  obtain ⟨rfl, rfl⟩ := hunique 144 1 hsolves
  exact hcarry

end Machine

end Chip8
