import Chip8.Proofs.Instruction.Frame

/-!
# The footprint of an instruction

Which parts of the state an instruction may change, as a table: for memory, registers and stack the
places, for everything else whether it may change at all. `Instruction.write_covers` says that an
instruction stays inside its footprint. Unlike `State.Keeps` the table tells the instructions apart.

Time is not in it. The timers also run by themselves, so what an instruction puts into one of them
is said by value (`Instruction.puts?`) and not only by place.
-/

set_option autoImplicit false

namespace Chip8

open State

/-! ## The timers -/

inductive Timer
  | delay
  | sound
deriving DecidableEq

namespace Timer

/-- The field of the state that holds the timer. -/
def value (t : Timer) (s : State) : Int :=
  match t with
  | .delay => s.delayTimer
  | .sound => s.soundTimer

/-- The operation that sets the timer. -/
def setter : Timer → RegisterOp
  | .delay => .setDelay
  | .sound => .setSound

theorem value_mem {s : State} (hs : s.Valid) (t : Timer) : 0 ≤ t.value s ∧ t.value s ≤ 0xFF := by
  cases t with
  | delay => exact hs.delayTimer_mem
  | sound => exact hs.soundTimer_mem

end Timer

/-- What an instruction puts into a timer, if it sets that timer. -/
def Instruction.puts? (i : Instruction) (t : Timer) (s : State) : Option Int :=
  match i with
  | .register op x => if op = t.setter then some (s.reg x).toNat else none
  | _ => none

/-! ## Footprints -/

/-- The parts of the state that may change; what is not named stays as it is. -/
structure Footprint where
  /-- Places in memory. -/
  memory : List Nat := []
  registers : List Nat := []
  /-- Entries of the stack. -/
  stack : List Nat := []
  /-- By how much the stack grows. -/
  growth : Int := 0
  index : Bool := false
  /-- The pixels, and with them the mark that they have changed. -/
  screen : Bool := false
  timers : List Timer := []
  random : Bool := false

/-- The places of `n` bytes from an address on. -/
def placesFrom (a : Int) (n : Nat) : List Nat :=
  (List.range n).map fun (k : Nat) => addressPlace (a + k)

def AddressOp.footprint (op : AddressOp) (s : State) : Footprint :=
  match op with
  | .jump | .jumpOffset => {}
  | .call => { stack := [s.sp.toNat], growth := 1 }
  | .loadIndex => { index := true }

def ImmediateOp.footprint (op : ImmediateOp) (x : Nibble) : Footprint :=
  match op with
  | .skipEq | .skipNe => {}
  | .load | .add => { registers := [x] }
  | .random => { registers := [x], random := true }

def PairOp.footprint (op : PairOp) (x : Nibble) : Footprint :=
  match op with
  | .skipEq | .skipNe => {}
  | .load | .or | .and | .xor => { registers := [x] }
  | .add | .sub | .shr | .subn | .shl => { registers := [x, flagRegister] }

def RegisterOp.footprint (op : RegisterOp) (x : Nibble) (s : State) : Footprint :=
  match op with
  | .skipPressed | .skipReleased => {}
  | .readDelay => { registers := [x] }
  | .waitKey => if s.keys.any id then { registers := [x] } else {}
  | .setDelay => { timers := [.delay] }
  | .setSound => { timers := [.sound] }
  | .addIndex | .loadGlyph => { index := true }
  | .storeDecimal => { memory := placesFrom s.index 3 }
  | .storeRegisters => { memory := placesFrom s.index (x + 1) }
  | .loadRegisters => { registers := List.range (x + 1) }

def Instruction.footprint (i : Instruction) (s : State) : Footprint :=
  match i with
  | .clear => { screen := true }
  | .ret => { growth := -1 }
  | .address op _ => op.footprint s
  | .immediate op x _ => op.footprint x
  | .pair op x _ => op.footprint x
  | .draw _ _ _ => { registers := [flagRegister], screen := true }
  | .register op x => op.footprint x s

/-- A change from `s` to `s'` inside a footprint. Of program counter, timers and counters nothing is
said. -/
structure Footprint.Covers (f : Footprint) (s s' : State) : Prop where
  memory : ∀ a, a ∉ f.memory → s'.memory[a]? = s.memory[a]?
  registers : ∀ r, r ∉ f.registers → s'.registers[r]? = s.registers[r]?
  stack : ∀ k, k ∉ f.stack → s'.stack[k]? = s.stack[k]?
  sp : s'.sp = s.sp + f.growth
  index : f.index = false → s'.index = s.index
  pixels : f.screen = false → s'.pixels = s.pixels
  redraw : s'.redraw = s.redraw ∨ f.screen = true ∧ s'.redraw = true
  random : f.random = false → s'.random = s.random
  keys : s'.keys = s.keys

namespace Footprint.Covers

theorem refl {f : Footprint} (hf : f.growth = 0) (s : State) : f.Covers s s where
  memory := fun _ _ => rfl
  registers := fun _ _ => rfl
  stack := fun _ _ => rfl
  sp := by rw [hf, Int.add_zero]
  index := fun _ => rfl
  pixels := fun _ => rfl
  redraw := Or.inl rfl
  random := fun _ => rfl
  keys := rfl

/-- A write into a register of the footprint. -/
theorem setReg {f : Footprint} {s s' : State} (h : f.Covers s s') {x : Nat} (hx : x ∈ f.registers)
    (v : UInt8) : f.Covers s (s'.setReg x v) :=
  { h with
    registers := by
      intro r hr
      have hne : x ≠ r := by
        rintro rfl
        exact hr hx
      exact (Array.getElem?_setIfInBounds_ne hne).trans (h.registers r hr) }

/-- A write into a byte of the footprint. -/
theorem setByte {f : Footprint} {s s' : State} (h : f.Covers s s') {a : Int}
    (ha : addressPlace a ∈ f.memory) (v : UInt8) : f.Covers s (s'.setByte a v) :=
  { h with
    memory := by
      intro p hp
      have hne : addressPlace a ≠ p := by
        rintro rfl
        exact hp ha
      exact (Array.getElem?_setIfInBounds_ne hne).trans (h.memory p hp) }

theorem storeBlock {f : Footprint} {s : State} (n : Nat) :
    ∀ {s' : State} {r : Nat}, f.Covers s s' →
      (∀ k, r ≤ k → k < r + n → addressPlace (s'.index + k) ∈ f.memory) →
      f.Covers s (s'.storeBlock r n) := by
  induction n with
  | zero => intro s' r h _; exact h
  | succ n ih =>
    intro s' r h hmem
    refine ih (h.setByte (hmem r (Nat.le_refl r) (by omega)) _) ?_
    intro k hle hlt
    exact hmem k (by omega) (by omega)

theorem loadBlock {f : Footprint} {s : State} (n : Nat) :
    ∀ {s' : State} {r : Nat}, f.Covers s s' → (∀ k, r ≤ k → k < r + n → k ∈ f.registers) →
      f.Covers s (s'.loadBlock r n) := by
  induction n with
  | zero => intro s' r h _; exact h
  | succ n ih =>
    intro s' r h hmem
    refine ih (h.setReg (hmem r (Nat.le_refl r) (by omega)) _) ?_
    intro k hle hlt
    exact hmem k (by omega) (by omega)

theorem clearScreen {f : Footprint} {s s' : State} (h : f.Covers s s') (hf : f.screen = true) :
    f.Covers s s'.clearScreen := by
  unfold State.clearScreen
  split
  · exact { h with
      pixels := fun hoff => absurd (hf.symm.trans hoff) (by simp), redraw := Or.inr ⟨hf, rfl⟩ }
  · exact h

theorem writeDrawing {f : Footprint} {s s' : State} (h : f.Covers s s') (hf : f.screen = true)
    (hflag : flagRegister ∈ f.registers) (d : Drawing) : f.Covers s (s'.writeDrawing d) := by
  have hredraw : (s'.redraw || d.changed) = s.redraw ∨
      f.screen = true ∧ (s'.redraw || d.changed) = true := by
    cases hd : d.changed with
    | true => exact Or.inr ⟨hf, by simp⟩
    | false =>
      rw [Bool.or_false]
      exact h.redraw
  have hdrawn : f.Covers s { s' with pixels := d.pixels, redraw := s'.redraw || d.changed } :=
    { h with pixels := fun hoff => absurd (hf.symm.trans hoff) (by simp), redraw := hredraw }
  exact hdrawn.setReg hflag _

end Footprint.Covers

/-! ## Instructions stay inside their footprints -/

theorem mem_placesFrom {a : Int} {k n : Nat} (hk : k < n) : addressPlace (a + k) ∈ placesFrom a n :=
  List.mem_map_of_mem (List.mem_range.mpr hk)

theorem AddressOp.write_covers (op : AddressOp) (addr : Fin 4096) (s : State) :
    (op.footprint s).Covers s (op.write addr s) := by
  cases op with
  | jump | jumpOffset => exact .refl rfl s
  | call =>
    have hstack : ∀ k, k ∉ [s.sp.toNat] →
        (s.stack.setIfInBounds s.sp.toNat (s.pc + 2))[k]? = s.stack[k]? := by
      intro k hk
      exact Array.getElem?_setIfInBounds_ne fun heq => hk (by simp [heq])
    exact { Footprint.Covers.refl (f := {}) rfl s with stack := hstack, sp := rfl }
  | loadIndex =>
    exact { Footprint.Covers.refl (f := { index := true }) rfl s with
      index := fun (h : true = false) => absurd h (by simp) }

theorem ImmediateOp.write_covers (op : ImmediateOp) (x : Nibble) (value : Fin 256) (s : State) :
    (op.footprint x).Covers s (op.write x value s) := by
  cases op with
  | skipEq | skipNe => exact .refl rfl s
  | load | add => exact (Footprint.Covers.refl rfl s).setReg (List.mem_singleton_self _) _
  | random =>
    have hdrawn : Footprint.Covers { registers := [x.val], random := true } s
        { s with random := s.random.next.2 } :=
      { Footprint.Covers.refl (f := { registers := [x.val], random := true }) rfl s with
        random := fun (h : true = false) => absurd h (by simp) }
    exact hdrawn.setReg (List.mem_singleton_self _) _

theorem PairOp.write_covers (op : PairOp) (x y : Nibble) (s : State) :
    (op.footprint x).Covers s (op.write x y s) := by
  cases op with
  | skipEq | skipNe => exact .refl rfl s
  | load | or | and | xor =>
    exact (Footprint.Covers.refl rfl s).setReg (List.mem_singleton_self _) _
  | add | sub | shr | subn | shl =>
    refine Footprint.Covers.setReg (.setReg (.refl rfl s) ?_ _) ?_ _
    · exact List.mem_cons_self
    · exact List.mem_cons_of_mem _ (List.mem_singleton_self _)

theorem RegisterOp.write_covers (op : RegisterOp) (x : Nibble) (s : State) :
    (op.footprint x s).Covers s (op.write x s) := by
  cases op with
  | skipPressed | skipReleased => exact .refl rfl s
  | readDelay => exact (Footprint.Covers.refl rfl s).setReg (List.mem_singleton_self _) _
  | waitKey =>
    rw [footprint, write]
    cases hk : s.heldKey? with
    | none =>
      rw [heldKey?_none hk]
      exact .refl rfl s
    | some pin =>
      rw [(heldKey?_some hk).1]
      exact (Footprint.Covers.refl rfl s).setReg (List.mem_singleton_self _) _
  | setDelay | setSound => exact { Footprint.Covers.refl rfl s with }
  | addIndex | loadGlyph =>
    exact { Footprint.Covers.refl (f := { index := true }) rfl s with
      index := fun (h : true = false) => absurd h (by simp) }
  | storeDecimal =>
    have hfirst : addressPlace s.index ∈ placesFrom s.index 3 := by
      have h := mem_placesFrom (a := s.index) (k := 0) (n := 3) (by decide)
      rwa [Int.natCast_zero, Int.add_zero] at h
    refine Footprint.Covers.setByte (.setByte (.setByte (.refl rfl s) hfirst _) ?_ _) ?_ _
    · exact mem_placesFrom (k := 1) (by decide)
    · exact mem_placesFrom (k := 2) (by decide)
  | storeRegisters =>
    refine Footprint.Covers.storeBlock _ (.refl rfl s) ?_
    intro k _ hk
    exact mem_placesFrom (by omega)
  | loadRegisters =>
    refine Footprint.Covers.loadBlock _ (.refl rfl s) ?_
    intro k _ hk
    exact List.mem_range.mpr (by omega)

/-- **An instruction stays inside its footprint.** -/
theorem Instruction.write_covers (i : Instruction) (s : State) :
    (i.footprint s).Covers s (i.write s) := by
  cases i with
  | clear => exact (Footprint.Covers.refl rfl s).clearScreen rfl
  | ret => exact { Footprint.Covers.refl (f := {}) rfl s with sp := rfl }
  | address op addr => exact op.write_covers addr s
  | immediate op x value => exact op.write_covers x value s
  | pair op x y => exact op.write_covers x y s
  | draw x y n =>
    exact (Footprint.Covers.refl rfl s).writeDrawing rfl (List.mem_singleton_self _) _
  | register op x => exact op.write_covers x s

/-! ## What instructions put into the timers -/

theorem Timer.value_congr {s s' : State} (hdelay : s'.delayTimer = s.delayTimer)
    (hsound : s'.soundTimer = s.soundTimer) (t : Timer) : t.value s' = t.value s := by
  cases t with
  | delay => exact hdelay
  | sound => exact hsound

theorem PairOp.value_write (op : PairOp) (x y : Nibble) (s : State) (t : Timer) :
    t.value (op.write x y s) = t.value s := by
  cases op <;> exact Timer.value_congr rfl rfl t

theorem RegisterOp.value_write (op : RegisterOp) (x : Nibble) (s : State) (t : Timer) :
    t.value (op.write x s) = if op = t.setter then ((s.reg x).toNat : Int) else t.value s := by
  cases op with
  | setDelay | setSound => cases t <;> rfl
  | waitKey =>
    rw [if_neg (by cases t <;> decide), write]
    split <;> exact Timer.value_congr rfl rfl t
  | storeRegisters =>
    obtain ⟨memory, -, heq⟩ := storeBlock_frame (x.val + 1) s 0
    rw [if_neg (by cases t <;> decide), write, heq]
    exact Timer.value_congr rfl rfl t
  | loadRegisters =>
    obtain ⟨registers, -, heq⟩ := loadBlock_frame (x.val + 1) s 0
    rw [if_neg (by cases t <;> decide), write, heq]
    exact Timer.value_congr rfl rfl t
  | skipPressed | skipReleased | readDelay | addIndex | loadGlyph | storeDecimal =>
    rw [if_neg (by cases t <;> decide)]
    exact Timer.value_congr rfl rfl t

/-- A timer holds what it held before, unless the instruction sets it. -/
theorem Instruction.value_write (i : Instruction) (s : State) (t : Timer) :
    t.value (i.write s) = (i.puts? t s).getD (t.value s) := by
  cases i with
  | clear =>
    rw [write, clearScreen]
    split <;> exact Timer.value_congr rfl rfl t
  | ret | draw => exact Timer.value_congr rfl rfl t
  | address op addr => cases op <;> exact Timer.value_congr rfl rfl t
  | immediate op x value => cases op <;> exact Timer.value_congr rfl rfl t
  | pair op x y => exact op.value_write x y s t
  | register op x =>
    rw [write, op.value_write, puts?]
    split <;> rfl

/-- The same with the program counter moved. -/
theorem Instruction.value_effect (i : Instruction) (s : State) (t : Timer) :
    t.value (i.effect s) = (i.puts? t s).getD (t.value s) :=
  (Timer.value_congr rfl rfl t).trans (i.value_write s t)

/-- What the footprint says of the timers is where something is put into them. -/
theorem Instruction.puts?_eq_none {i : Instruction} {t : Timer} {s : State}
    (h : t ∉ (i.footprint s).timers) : i.puts? t s = none := by
  cases i with
  | register op x =>
    rw [puts?, if_neg]
    rintro rfl
    cases t with
    | delay | sound => exact h (List.mem_singleton_self _)
  | clear | ret | address | immediate | pair | draw => rfl

end Chip8
