import Chip8.Machine
import Chip8.State.Valid

/-!
# Actions on a state of the right sizes

Everything the machine does is an `Action`: a function from a state to a value or an error, and a
state. The first part below opens the ways in which actions are put together; it is stated for any
state, since actions on the machine are put together in the same ways.

The second part says what the primitives come to when the arrays have the sizes of the machine and
the operands are those of an instruction word:

> **no primitive fails then, but for the program counter**, and what it reads or writes is a plain
> function of the state (`State.reg`, `State.setReg` and their like).

Only the sizes are asked for, and not `State.Valid`. An instruction writes several times, and in
between the sizes are all that has to be carried from one primitive to the next.
-/

set_option autoImplicit false

namespace Chip8

/-! ## How actions are put together -/

namespace Outcome

variable {σ α β : Type}

theorem bind_apply (act : EStateM Error σ α) (f : α → EStateM Error σ β) (s : σ) :
    (act >>= f) s = match act s with
      | .ok v s' => f v s'
      | .error e s' => .error e s' := by
  cases h : act s <;> simp only [bind, EStateM.bind, h]

theorem pure_apply (v : α) (s : σ) : (pure v : EStateM Error σ α) s = .ok v s := rfl

theorem get_apply (s : σ) : (get : EStateM Error σ σ) s = .ok s s := rfl

theorem modify_apply (f : σ → σ) (s : σ) :
    (modify f : EStateM Error σ PUnit) s = .ok () (f s) := rfl

/-- An action that has finished hands its value and its state on. -/
theorem bind_of_ok {act : EStateM Error σ α} {f : α → EStateM Error σ β} {s s' : σ} {v : α}
    (h : act s = .ok v s') : (act >>= f) s = f v s' := by
  rw [bind_apply, h]

/-- An action that has failed ends whatever it is part of. -/
theorem bind_of_error {act : EStateM Error σ α} {f : α → EStateM Error σ β} {s s' : σ} {e : Error}
    (h : act s = .error e s') : (act >>= f) s = .error e s' := by
  rw [bind_apply, h]

theorem fault_apply (f : Fault) (s : State) :
    (State.Action.fault f : State.Action α) s = .error (.fault f) s := rfl

/-- How an action ends of which it is known beforehand whether it fails: with a fault and the state
as it was, or with a value and a new state. -/
def settled (fault : Option Fault) (s : σ) (v : α) (s' : σ) : EStateM.Result Error σ α :=
  match fault with
  | some f => .error (.fault f) s
  | none => .ok v s'

@[simp] theorem settled_some (f : Fault) (s : σ) (v : α) (s' : σ) :
    settled (some f) s v s' = .error (.fault f) s := rfl

@[simp] theorem settled_none (s : σ) (v : α) (s' : σ) : settled none s v s' = .ok v s' := rfl

end Outcome

/-! ## Indices and bytes -/

theorem placeOf_ofNat {size p : Nat} (hp : p < size) (hsize : size ≤ memorySize)
    (absent : Misuse) : placeOf size p absent = .ok p := by
  have hfit : indexFits (p : Int) = true := by
    have hlt : p < 0x8000000000000000 := by simp only [memorySize] at hsize; omega
    exact decide_eq_true hlt
  have hneg : ¬ (p : Int) < 0 := by omega
  have hin : 0 ≤ (p : Int) ∧ (p : Int) < size := by omega
  have hplace : place? size (p : Int) = some p := by
    simp only [place?, if_neg hneg, if_pos hin, Int.toNat_natCast]
  rw [placeOf, if_pos hfit, hplace]

/-- The same for an index that is not written as a natural number. -/
theorem placeOf_of_mem {size : Nat} {i : Int} (hi : 0 ≤ i ∧ i < size) (hsize : size ≤ memorySize)
    (absent : Misuse) : placeOf size i absent = .ok i.toNat := by
  obtain ⟨p, rfl⟩ := Int.eq_ofNat_of_zero_le hi.1
  exact placeOf_ofNat (by omega) hsize absent

theorem byteOf_natCast (n : Nat) : byteOf n = UInt8.ofNat n := by
  have hmod : ((n : Int) % 256).toNat = n % 2 ^ 8 := by omega
  rw [byteOf, hmod, UInt8.ofNat_mod_size]

theorem byteOf_toNat (b : UInt8) : byteOf b.toNat = b := by
  rw [byteOf_natCast, UInt8.ofNat_toNat]

theorem toNat_byteOf (v : Int) : ((byteOf v).toNat : Int) = v % 256 := by
  rw [byteOf, UInt8.toNat_ofNat']
  omega

/-- What has been put in its place in an array is read there again. -/
theorem getD_setIfInBounds_self {α : Type} {entries : Array α} {p : Nat} (hp : p < entries.size)
    (v absent : α) : (entries.setIfInBounds p v).getD p absent = v := by
  rw [Array.getD_eq_getD_getElem?, Array.getElem?_setIfInBounds_self_of_lt hp, Option.getD_some]

/-- Inside an array nothing is absent. -/
theorem getElem?_eq_some_getD {α : Type} {entries : Array α} {p : Nat} (hp : p < entries.size)
    (absent : α) : entries[p]? = some (entries.getD p absent) := by
  rw [Array.getD_eq_getD_getElem?, Array.getElem?_eq_getElem hp, Option.getD_some]

/-- Putting into an array what is there already changes nothing. -/
theorem setIfInBounds_of_getD_eq {α : Type} {entries : Array α} {p : Nat} {v absent : α}
    (h : entries.getD p absent = v) : entries.setIfInBounds p v = entries := by
  refine Array.ext Array.size_setIfInBounds fun q hq hq' => ?_
  rw [Array.getElem_setIfInBounds]
  split
  · next heq =>
    subst heq
    rw [← h, Array.getD_eq_getD_getElem?, Array.getElem?_eq_getElem hq', Option.getD_some]
  · rfl

namespace State

theorem addressPlace_lt (a : Int) : addressPlace a < memorySize := by
  simp only [addressPlace, memorySize]
  omega

/-- An address of memory is its own place. -/
theorem addressPlace_of_mem {a : Int} (ha : 0 ≤ a ∧ a < memorySize) :
    addressPlace a = a.toNat := by
  rw [addressPlace, Int.emod_eq_of_lt ha.1 ha.2]

/-! ## What the primitives read and write -/

/-- The value of a register. -/
def reg (s : State) (x : Nat) : UInt8 := s.registers.getD x 0

def setReg (s : State) (x : Nat) (v : UInt8) : State :=
  { s with registers := s.registers.setIfInBounds x v }

/-- The byte at an address. -/
def byte (s : State) (a : Int) : UInt8 := s.memory.getD (addressPlace a) 0

def setByte (s : State) (a : Int) (v : UInt8) : State :=
  { s with memory := s.memory.setIfInBounds (addressPlace a) v }

/-- Whether a key is held. -/
def held (s : State) (k : Nat) : Bool := s.keys.getD k false

/-- The return address that was stored last. -/
def returnAddress (s : State) : Int := s.stack.getD (s.sp - 1).toNat 0

@[simp] theorem setReg_registers_size (s : State) (x : Nat) (v : UInt8) :
    (s.setReg x v).registers.size = s.registers.size := by
  rw [setReg, Array.size_setIfInBounds]

@[simp] theorem setByte_memory_size (s : State) (a : Int) (v : UInt8) :
    (s.setByte a v).memory.size = s.memory.size := by
  rw [setByte, Array.size_setIfInBounds]

/-- What has been stored at an address is read there again. -/
theorem byte_setByte_self {s : State} (h : s.memory.size = memorySize) (a : Int) (v : UInt8) :
    (s.setByte a v).byte a = v := by
  have ha : addressPlace a < s.memory.size := by rw [h]; exact addressPlace_lt a
  exact getD_setIfInBounds_self ha v 0

theorem reg_setReg_self {s : State} (h : s.registers.size = registerCount) {x : Nat}
    (hx : x < registerCount) (v : UInt8) : (s.setReg x v).reg x = v :=
  getD_setIfInBounds_self (Nat.lt_of_lt_of_eq hx h.symm) v 0

theorem reg_setReg_of_ne (s : State) {x y : Nat} (hne : x ≠ y) (v : UInt8) :
    (s.setReg x v).reg y = s.reg y := by
  rw [reg, reg, setReg, Array.getD_eq_getD_getElem?, Array.getElem?_setIfInBounds_ne hne,
    Array.getD_eq_getD_getElem?]

theorem byte_setByte_of_ne (s : State) {a b : Int} (hne : addressPlace a ≠ addressPlace b)
    (v : UInt8) : (s.setByte a v).byte b = s.byte b := by
  rw [byte, byte, setByte, Array.getD_eq_getD_getElem?, Array.getElem?_setIfInBounds_ne hne,
    Array.getD_eq_getD_getElem?]

/-! ## The primitives -/

section

variable {s : State}

theorem readRegister_apply (h : s.registers.size = registerCount) {x : Nat}
    (hx : x < registerCount) : readRegister x s = .ok (s.reg x) s := by
  simp only [readRegister, placeOf_ofNat (h ▸ hx) (by rw [h]; decide), reg]

/-- A register takes any number that is a byte. -/
theorem writeRegister_apply (h : s.registers.size = registerCount) {x : Nat}
    (hx : x < registerCount) {v : Int} (hv : 0 ≤ v ∧ v ≤ 255) :
    writeRegister x v s = .ok () (s.setReg x (byteOf v)) := by
  have hfit : (!indexFits (x : Int)) = false := by
    have hlt : x < 0x8000000000000000 := by simp only [registerCount] at hx; omega
    simpa [indexFits] using hlt
  have hbyte : ¬ (v < 0 ∨ 255 < v) := by omega
  simp only [writeRegister, hfit, Bool.false_eq_true, if_false, if_neg hbyte,
    placeOf_ofNat (h ▸ hx) (by rw [h]; decide), setReg]

theorem writeRegister_byte (h : s.registers.size = registerCount) {x : Nat}
    (hx : x < registerCount) (b : UInt8) :
    writeRegister x b.toNat s = .ok () (s.setReg x b) := by
  have hb : b.toNat < 256 := b.toNat_lt
  rw [writeRegister_apply h hx (by omega), byteOf_toNat]

/-- What a host puts into a register that there is. -/
theorem setRegister_apply (h : s.registers.size = registerCount) {x : Nat}
    (hx : x < registerCount) (b : UInt8) :
    setRegister x b.toNat s = .ok () (s.setReg x b) := by
  have hmem : 0 ≤ (x : Int) ∧ (x : Int) < registerCount := by omega
  rw [setRegister, if_pos hmem, byteOf_toNat, writeRegister_byte h hx]

theorem setFlag_apply (h : s.registers.size = registerCount) (flag : Bool) :
    setFlag flag s = .ok () (s.setReg flagRegister (if flag then 1 else 0)) := by
  cases flag with
  | false => exact writeRegister_byte h (by decide) 0
  | true => exact writeRegister_byte h (by decide) 1

theorem readMemory_apply (h : s.memory.size = memorySize) (a : Int) :
    readMemory a s = .ok (s.byte a) s := by
  have ha : addressPlace a < s.memory.size := by rw [h]; exact addressPlace_lt a
  simp only [readMemory, byte, Array.getElem?_eq_getElem ha, Array.getD_eq_getD_getElem?,
    Option.getD_some]

theorem writeMemory_apply (h : s.memory.size = memorySize) (a v : Int) :
    writeMemory a v s = .ok () (s.setByte a (byteOf v)) := by
  have ha : addressPlace a < s.memory.size := by rw [h]; exact addressPlace_lt a
  simp only [writeMemory, if_pos ha, setByte]

theorem byteAt_apply (h : s.memory.size = memorySize) {a : Int} (ha : 0 ≤ a ∧ a < memorySize) :
    byteAt a s = .ok (s.byte a) s := by
  have hplace : placeOf s.memory.size a .byteIndex = .ok a.toNat :=
    placeOf_of_mem (by rw [h]; exact ha) (by omega) _
  simp only [byteAt, hplace, byte, addressPlace_of_mem ha]

theorem readStack_apply (h : s.stack.size = stackSize) {i : Int} (hi : 0 ≤ i ∧ i < stackSize) :
    readStack i s = .ok (s.stack.getD i.toNat 0) s := by
  have hplace : placeOf s.stack.size i .entryIndex = .ok i.toNat :=
    placeOf_of_mem (by rw [h]; exact hi) (by rw [h]; decide) _
  simp only [readStack, hplace]

theorem writeStack_apply (h : s.stack.size = stackSize) {i : Int} (hi : 0 ≤ i ∧ i < stackSize)
    (v : Int) :
    writeStack i v s = .ok () { s with stack := s.stack.setIfInBounds i.toNat v } := by
  have hplace : placeOf s.stack.size i .entryWriteIndex = .ok i.toNat :=
    placeOf_of_mem (by rw [h]; exact hi) (by rw [h]; decide) _
  simp only [writeStack, hplace]

theorem readKey_apply (h : s.keys.size = keyCount) {k : Nat} (hk : k < keyCount) :
    readKey k s = .ok (s.held k) s := by
  simp only [readKey, placeOf_ofNat (h ▸ hk) (by rw [h]; decide), held]

theorem nextPc_of_room {amount : Int} (h : s.pc + amount < memorySize) :
    nextPc amount s = .ok (s.pc + amount) s := by
  rw [nextPc, if_neg (by omega)]

theorem nextPc_of_no_room {amount : Int} (h : memorySize ≤ s.pc + amount) :
    nextPc amount s = .error (.fault (.pcOutOfRange (s.pc + amount))) s := by
  rw [nextPc, if_pos h]

theorem advance_of_room {amount : Int} (h : s.pc + amount < memorySize) :
    advance amount s = .ok () { s with pc := s.pc + amount } := by
  rw [advance, Outcome.bind_of_ok (nextPc_of_room h), Outcome.modify_apply]

theorem advance_of_no_room {amount : Int} (h : memorySize ≤ s.pc + amount) :
    advance amount s = .error (.fault (.pcOutOfRange (s.pc + amount))) s := by
  rw [advance, Outcome.bind_of_error (nextPc_of_no_room h)]

theorem setPc_of_mem {pc : Int} (h : 0 ≤ pc ∧ pc < memorySize) :
    setPc pc s = .ok () { s with pc := pc } := by
  rw [setPc, if_pos h]

theorem setPc_of_not_mem {pc : Int} (h : ¬ (0 ≤ pc ∧ pc < memorySize)) :
    setPc pc s = .error (.fault (.pcOutOfRange pc)) s := by
  rw [setPc, if_neg h]

end

end State

end Chip8
