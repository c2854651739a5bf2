import Chip8.Proofs.Instruction.Table
import Chip8.Proofs.Machine.Fresh

/-!
# Requests with any operands

A host asks for operations by key, with operands that no instruction word need hold, or without
them. Much can go wrong then. A fault is what it goes wrong with in the machine, all else is a
misuse, and for faults there is one rule with one exception:

> **a request that ends in a fault has changed nothing, unless it is a call to an address outside
> memory**, which has pushed its return address by the time the address is looked at (`Stray`).

An operation is a chain of small actions, and the rule for the whole comes from what can be said of
each link, whatever its operands are:

* one that `Looks` changes nothing and ends in no fault;
* one that is `Calm` may write, but neither moves the program counter nor ends in a fault;
* one that is `Prompt` ends in no fault as long as there is room to go on;
* one that is `Atomic` in a state changes nothing there if it ends in a fault.

A chain that looks first is as atomic as what comes after it. A chain that writes has to be prompt,
and so it is if the last link goes on and all others are calm. The room to go on is what an
operation that falls through looks for before anything else.
-/

set_option autoImplicit false

namespace Chip8

open State Outcome

namespace State

variable {α β : Type}

/-! ## What a link of a chain does -/

def Looks (act : Action α) : Prop :=
  ∀ s, (∃ v, act s = .ok v s) ∨ ∃ m, act s = .error (.misuse m) s

def Calm (act : Action α) : Prop :=
  ∀ s, (∃ v s', act s = .ok v s' ∧ s'.pc = s.pc) ∨ ∃ m s', act s = .error (.misuse m) s'

def Prompt (act : Action α) : Prop :=
  ∀ s : State, s.pc + 2 < memorySize → ∀ f s', act s ≠ .error (.fault f) s'

def Atomic (act : Action α) (s : State) : Prop :=
  ∀ f s', act s = .error (.fault f) s' → s' = s

/-- A misuse is no fault. -/
theorem misuse_ne_fault {m : Misuse} {f : Fault} {s s' : State} :
    (.error (.misuse m) s : EStateM.Result Error State α) ≠ .error (.fault f) s' := by
  intro h
  injection h with h
  injection h

/-! ## Chains -/

section

variable {act : Action α} {next : α → Action β}

theorem Looks.calm (h : Looks act) : Calm act := by
  intro s
  rcases h s with ⟨v, hv⟩ | ⟨m, hm⟩
  · exact .inl ⟨v, s, hv, rfl⟩
  · exact .inr ⟨m, s, hm⟩

theorem Looks.bind (h : Looks act) (hnext : ∀ v, Looks (next v)) : Looks (act >>= next) := by
  intro s
  rcases h s with ⟨v, hv⟩ | ⟨m, hm⟩
  · rw [bind_of_ok hv]
    exact hnext v s
  · exact .inr ⟨m, bind_of_error hm⟩

theorem Calm.bind (h : Calm act) (hnext : ∀ v, Calm (next v)) : Calm (act >>= next) := by
  intro s
  rcases h s with ⟨v, t, hv, hpc⟩ | ⟨m, t, hm⟩
  · rw [bind_of_ok hv, ← hpc]
    exact hnext v t
  · exact .inr ⟨m, t, bind_of_error hm⟩

theorem Calm.prompt_bind (h : Calm act) (hnext : ∀ v, Prompt (next v)) :
    Prompt (act >>= next) := by
  intro s hroom f s' hf
  rcases h s with ⟨v, t, hv, hpc⟩ | ⟨m, t, hm⟩
  · rw [bind_of_ok hv] at hf
    exact hnext v t (hpc ▸ hroom) f s' hf
  · rw [bind_of_error hm] at hf
    exact misuse_ne_fault hf

/-- What finishes, and what fails where it began, is atomic. -/
theorem Atomic.of_ok {s t : State} {v : α} (h : act s = .ok v t) : Atomic act s := by
  intro f s' hf
  rw [h] at hf
  injection hf

theorem Atomic.of_error {s : State} {e : Error} (h : act s = .error e s) : Atomic act s := by
  intro f s' hf
  rw [h] at hf
  injection hf with _ hs
  exact hs.symm

theorem Looks.atomic_bind {s : State} (h : Looks act) (hnext : ∀ v, Atomic (next v) s) :
    Atomic (act >>= next) s := by
  intro f s' hf
  rcases h s with ⟨v, hv⟩ | ⟨m, hm⟩
  · rw [bind_of_ok hv] at hf
    exact hnext v f s' hf
  · rw [bind_of_error hm] at hf
    exact absurd hf misuse_ne_fault

theorem Calm.ne_fault (h : Calm act) (s : State) (f : Fault) (s' : State) :
    act s ≠ .error (.fault f) s' := by
  rcases h s with ⟨v, t, hv, -⟩ | ⟨m, t, hm⟩
  · rw [hv]
    exact nofun
  · rw [hm]
    exact misuse_ne_fault

theorem Calm.atomic (h : Calm act) (s : State) : Atomic act s := by
  intro f s' hf
  exact absurd hf (h.ne_fault s f s')

/-- Behind the one link that can end in a fault there may be any number that cannot. -/
theorem Atomic.bind_calm {s : State} (h : Atomic act s) (hnext : ∀ v, Calm (next v)) :
    Atomic (act >>= next) s := by
  intro f s' hf
  cases hact : act s with
  | ok v t =>
    rw [bind_of_ok hact] at hf
    exact absurd hf ((hnext v).ne_fault t f s')
  | error e t =>
    rw [bind_of_error hact] at hf
    injection hf with he ht
    exact h f s' (by rw [hact, he, ht])

theorem Prompt.atomic (h : Prompt act) {s : State} (hroom : s.pc + 2 < memorySize) :
    Atomic act s := by
  intro f s' hf
  exact absurd hf (h s hroom f s')

/-! ## The links -/

theorem looks_pure (v : α) : Looks (pure v : Action α) := fun _ => .inl ⟨v, rfl⟩

theorem looks_get : Looks (get : Action State) := fun s => .inl ⟨s, rfl⟩

theorem looks_require (args : Operands) (o : Operand) : Looks (args.require o) := by
  rw [Operands.require]
  cases args.get? o with
  | some v => exact looks_pure v
  | none => exact fun _ => .inr ⟨_, rfl⟩

theorem looks_readRegister (r : Int) : Looks (readRegister r) := by
  intro s
  rw [readRegister]
  split
  · exact .inl ⟨_, rfl⟩
  · exact .inr ⟨_, rfl⟩

theorem looks_readKey (pin : Int) : Looks (readKey pin) := by
  intro s
  rw [readKey]
  split
  · exact .inl ⟨_, rfl⟩
  · exact .inr ⟨_, rfl⟩

theorem looks_readMemory (a : Int) : Looks (readMemory a) := by
  intro s
  rw [readMemory]
  split
  · exact .inl ⟨_, rfl⟩
  · exact .inr ⟨_, rfl⟩

theorem looks_readRows (n : Nat) : ∀ a, Looks (readRows a n) := by
  induction n with
  | zero => intro a; exact looks_pure []
  | succ n ih =>
    intro a
    rw [readRows]
    apply (looks_readMemory a).bind
    intro row
    apply (ih (a + 1)).bind
    intro rows
    exact looks_pure _

theorem calm_modify {g : State → State} (h : ∀ s, (g s).pc = s.pc) : Calm (modify g) :=
  fun s => .inl ⟨(), g s, rfl, h s⟩

theorem calm_drawByte : Calm drawByte := fun _ => .inl ⟨_, _, rfl, rfl⟩

theorem calm_drawSprite (rows : List UInt8) (x y : Nat) : Calm (drawSprite rows x y) :=
  fun _ => .inl ⟨_, _, rfl, rfl⟩

theorem calm_writeRegister (r v : Int) : Calm (writeRegister r v) := by
  intro s
  rw [writeRegister]
  split
  · exact .inr ⟨_, s, rfl⟩
  · split
    · exact .inr ⟨_, s, rfl⟩
    · split
      · exact .inl ⟨(), _, rfl, rfl⟩
      · exact .inr ⟨_, s, rfl⟩

theorem calm_writeMemory (a v : Int) : Calm (writeMemory a v) := by
  intro s
  rw [writeMemory]
  split
  · exact .inl ⟨(), _, rfl, rfl⟩
  · exact .inr ⟨_, s, rfl⟩

theorem calm_storeRegisters (n : Nat) : ∀ r, Calm (State.storeRegisters r n) := by
  induction n with
  | zero => intro r; exact (looks_pure ()).calm
  | succ n ih =>
    intro r
    rw [State.storeRegisters]
    apply (looks_readRegister r).calm.bind
    intro v
    apply looks_get.calm.bind
    intro s
    apply (calm_writeMemory _ _).bind
    intro _
    exact ih (r + 1)

theorem calm_loadRegisters (n : Nat) : ∀ r, Calm (State.loadRegisters r n) := by
  induction n with
  | zero => intro r; exact (looks_pure ()).calm
  | succ n ih =>
    intro r
    rw [State.loadRegisters]
    apply looks_get.calm.bind
    intro s
    apply (looks_readMemory _).calm.bind
    intro v
    apply (calm_writeRegister _ _).bind
    intro _
    exact ih (r + 1)

theorem prompt_advance : Prompt (advance 2) := by
  intro s hroom f s' hf
  rw [advance_of_room hroom] at hf
  injection hf

theorem atomic_fault (f : Fault) (s : State) : Atomic (Action.fault f : Action α) s :=
  .of_error (fault_apply f s)

theorem atomic_advance (amount : Int) (s : State) : Atomic (advance amount) s := by
  rcases Int.lt_or_le (s.pc + amount) memorySize with hroom | hnone
  · exact .of_ok (advance_of_room hroom)
  · exact .of_error (advance_of_no_room hnone)

theorem atomic_setPc (pc : Int) (s : State) : Atomic (setPc pc) s := by
  by_cases hmem : 0 ≤ pc ∧ pc < memorySize
  · exact .of_ok (setPc_of_mem hmem)
  · exact .of_error (setPc_of_not_mem hmem)

end

end State

section

variable (args : Operands)

/-! ## Operations that write and go on -/

/-- The register that an operand names is looked up in two links. -/
theorem prompt_operand (o : Operand) {next : Int → UInt8 → State.Action Unit}
    (h : ∀ r v, Prompt (next r v)) :
    Prompt (do let r ← args.require o; let v ← readRegister r; next r v) := by
  apply (looks_require args o).calm.prompt_bind
  intro r
  apply (looks_readRegister r).calm.prompt_bind
  intro v
  exact h r v

/-- The result goes to the register that an operand names. -/
theorem prompt_result (o : Operand) (v : Int) :
    Prompt (do writeRegister (← args.require o) v; advance 2) := by
  apply (looks_require args o).calm.prompt_bind
  intro r
  apply (calm_writeRegister r v).prompt_bind
  intro _
  exact prompt_advance

theorem prompt_modify {g : State → State} (h : ∀ s, (g s).pc = s.pc) :
    Prompt (do modify g; advance 2) := by
  apply (calm_modify h).prompt_bind
  intro _
  exact prompt_advance

theorem ImmediateOp.prompt_perform {op : ImmediateOp}
    (hft : (Operation.immediate op).fallsThrough = true) : Prompt (op.perform args) := by
  cases op with
  | skipEq | skipNe => exact absurd hft (by decide)
  | load =>
    apply (looks_require args .value).calm.prompt_bind
    intro value
    exact prompt_result args .x value
  | add =>
    apply prompt_operand args .x
    intro x vx
    apply (looks_require args .value).calm.prompt_bind
    intro value
    apply (calm_writeRegister x _).prompt_bind
    intro _
    exact prompt_advance
  | random =>
    apply calm_drawByte.prompt_bind
    intro b
    apply (looks_require args .value).calm.prompt_bind
    intro value
    exact prompt_result args .x _

/-- What is computed does not matter, nor whether there is a flag. -/
theorem PairOp.prompt_compute {op : PairOp} (hEq : op ≠ .skipEq) (hNe : op ≠ .skipNe)
    (hLoad : op ≠ .load) : Prompt (op.perform args) := by
  rw [PairOp.perform]
  · apply prompt_operand args .x
    intro x vx
    apply prompt_operand args .y
    intro _ vy
    rcases op.compute vx vy with ⟨result, flag⟩
    apply (calm_writeRegister x _).prompt_bind
    intro _
    cases flag with
    | none => exact (looks_pure ()).calm.prompt_bind fun _ => prompt_advance
    | some f => exact (calm_writeRegister flagRegister _).prompt_bind fun _ => prompt_advance
  · exact hEq
  · exact hNe
  · exact hLoad

theorem PairOp.prompt_perform {op : PairOp} (hft : (Operation.pair op).fallsThrough = true) :
    Prompt (op.perform args) := by
  cases op with
  | skipEq | skipNe => exact absurd hft (by decide)
  | load =>
    apply prompt_operand args .y
    intro _ vy
    exact prompt_result args .x _
  | or | and | xor | add | sub | shr | subn | shl =>
    exact PairOp.prompt_compute args (by decide) (by decide) (by decide)

theorem Operation.prompt_performDraw : Prompt (performDraw args) := by
  apply prompt_operand args .x
  intro _ vx
  apply prompt_operand args .y
  intro _ vy
  apply (looks_require args .n).calm.prompt_bind
  intro n
  apply looks_get.calm.prompt_bind
  intro s
  apply (looks_readRows n.toNat s.index).calm.prompt_bind
  intro rows
  apply (calm_drawSprite rows vx.toNat vy.toNat).prompt_bind
  intro collision
  apply (calm_writeRegister flagRegister _).prompt_bind
  intro _
  exact prompt_advance

theorem RegisterOp.prompt_perform {op : RegisterOp}
    (hft : (Operation.register op).fallsThrough = true) (hGlyph : op ≠ .loadGlyph) :
    Prompt (op.perform args) := by
  cases op with
  | skipPressed | skipReleased | waitKey => exact absurd hft (by decide)
  | loadGlyph => exact absurd rfl hGlyph
  | readDelay =>
    apply looks_get.calm.prompt_bind
    intro s
    exact prompt_result args .x _
  | setDelay | setSound | addIndex =>
    apply prompt_operand args .x
    intro _ vx
    exact prompt_modify fun _ => rfl
  | storeDecimal =>
    apply prompt_operand args .x
    intro _ vx
    apply looks_get.calm.prompt_bind
    intro s
    apply (calm_writeMemory _ _).prompt_bind
    intro _
    apply (calm_writeMemory _ _).prompt_bind
    intro _
    apply (calm_writeMemory _ _).prompt_bind
    intro _
    exact prompt_advance
  | storeRegisters =>
    apply (looks_require args .x).calm.prompt_bind
    intro x
    apply (calm_storeRegisters _ 0).prompt_bind
    intro _
    exact prompt_advance
  | loadRegisters =>
    apply (looks_require args .x).calm.prompt_bind
    intro x
    apply (calm_loadRegisters _ 0).prompt_bind
    intro _
    exact prompt_advance

/-- Only the operation that looks up a glyph has a fault of its own beside the lack of room. -/
theorem Operation.prompt_perform {op : Operation} (hft : op.fallsThrough = true)
    (hGlyph : op ≠ .register .loadGlyph) : Prompt (op.perform args) := by
  cases op with
  | ret | invalid => exact absurd hft (by decide)
  | clear => exact prompt_modify fun s => (clearScreen_keeps s).pc
  | draw => exact prompt_performDraw args
  | address op =>
    cases op with
    | jump | call | jumpOffset => exact absurd hft (by decide)
    | loadIndex =>
      apply (looks_require args .addr).calm.prompt_bind
      intro addr
      exact prompt_modify fun _ => rfl
  | immediate op => exact ImmediateOp.prompt_perform args hft
  | pair op => exact PairOp.prompt_perform args hft
  | register op => exact RegisterOp.prompt_perform args hft (fun h => hGlyph (h ▸ rfl))

/-! ## Operations that look, and then do one thing -/

theorem atomic_operand (o : Operand) {next : Int → UInt8 → State.Action Unit} {s : State}
    (h : ∀ r v, Atomic (next r v) s) :
    Atomic (do let r ← args.require o; let v ← readRegister r; next r v) s := by
  apply (looks_require args o).atomic_bind
  intro r
  apply (looks_readRegister r).atomic_bind
  intro v
  exact h r v

/-- An operation that falls through looks for its room, and then there is room. -/
theorem atomic_of_fallsThrough {op : Operation} (hft : op.fallsThrough = true) {s : State}
    (h : s.pc + 2 < memorySize → Atomic (op.perform args) s) : Atomic (op.execute args) s := by
  rcases Int.lt_or_le (s.pc + 2) memorySize with hroom | hnone
  · intro f s' hf
    rw [execute_of_fallsThrough hft, overrun?_of_room hroom] at hf
    exact h hroom f s' hf
  · apply Atomic.of_error
    rw [execute_of_fallsThrough hft, overrun?_of_no_room hnone]

/-- The number of a glyph is looked at before the index is written. -/
theorem atomic_loadGlyph {s : State} (hroom : s.pc + 2 < memorySize) :
    Atomic (RegisterOp.loadGlyph.perform args) s := by
  apply atomic_operand args .x
  intro _ vx
  split
  · exact atomic_fault _ s
  · apply Prompt.atomic _ hroom
    exact prompt_modify fun _ => rfl

/-- The number of the key is written last, and that ends in no fault. -/
theorem atomic_waitKey (s : State) : Atomic (RegisterOp.waitKey.perform args) s := by
  apply looks_get.atomic_bind
  intro t
  split
  · exact (looks_pure ()).calm.atomic s
  · apply (atomic_advance 2 s).bind_calm
    intro _
    apply (looks_require args .x).calm.bind
    intro x
    exact calm_writeRegister x _

theorem atomic_ret {s : State} (hs : s.Valid) : Atomic (Operation.ret.perform args) s := by
  have hret : Operation.ret.perform args s =
      settled (Instruction.ret.fault? s) s () (Instruction.ret.effect s) := execute_ret hs
  cases hfault : Instruction.ret.fault? s with
  | none =>
    rw [hfault, settled_none] at hret
    exact .of_ok hret
  | some f =>
    rw [hfault, settled_some] at hret
    exact .of_error hret

/-- Calls apart, whatever a host asks for changes nothing if it ends in a fault. -/
theorem Operation.atomic_execute {op : Operation} (hcall : op ≠ .address .call) {s : State}
    (hs : s.Valid) : Atomic (op.execute args) s := by
  cases hft : op.fallsThrough with
  | true =>
    apply atomic_of_fallsThrough args hft
    intro hroom
    by_cases hGlyph : op = .register .loadGlyph
    · rw [hGlyph]
      exact atomic_loadGlyph args hroom
    · exact (prompt_perform args hft hGlyph).atomic hroom
  | false =>
    rw [execute_of_not_fallsThrough hft]
    cases op with
    | clear | draw => exact absurd hft (by decide)
    | ret => exact atomic_ret args hs
    | invalid =>
      apply looks_get.atomic_bind
      intro t
      exact atomic_fault _ s
    | address op =>
      cases op with
      | call => exact absurd rfl hcall
      | loadIndex => exact absurd hft (by decide)
      | jump =>
        apply (looks_require args .addr).atomic_bind
        intro addr
        exact atomic_setPc addr s
      | jumpOffset =>
        apply (looks_require args .addr).atomic_bind
        intro addr
        apply (looks_readRegister 0).atomic_bind
        intro offset
        exact atomic_setPc _ s
    | immediate op =>
      cases op with
      | load | add | random => exact absurd hft (by decide)
      | skipEq | skipNe =>
        apply atomic_operand args .x
        intro _ vx
        apply (looks_require args .value).atomic_bind
        intro value
        exact atomic_advance _ s
    | pair op =>
      cases op with
      | load | or | and | xor | add | sub | shr | subn | shl => exact absurd hft (by decide)
      | skipEq | skipNe =>
        apply atomic_operand args .x
        intro _ vx
        apply atomic_operand args .y
        intro _ vy
        exact atomic_advance _ s
    | register op =>
      cases op with
      | waitKey => exact atomic_waitKey args s
      | skipPressed | skipReleased =>
        apply atomic_operand args .x
        intro _ vx
        apply (looks_readKey _).atomic_bind
        intro held
        exact atomic_advance _ s
      | readDelay | setDelay | setSound | addIndex | loadGlyph | storeDecimal | storeRegisters
        | loadRegisters => exact absurd hft (by decide)

/-! ## Calls -/

/-- The state with the return address of a call on the stack. -/
def State.pushed (s : State) : State :=
  { s with stack := s.stack.setIfInBounds s.sp.toNat (s.pc + 2), sp := s.sp + 1 }

/-- A request for a call to an address outside memory, where there is room for the return address
and on the stack. -/
structure Stray (key : String) (args : Operands) (addr : Int) (s : State) : Prop where
  key_eq : key = "OP_CALL"
  addr_eq : args.addr = some addr
  outside : ¬ (0 ≤ addr ∧ addr < memorySize)
  sp_lt : s.sp < stackSize
  room : s.pc + 2 < memorySize

theorem execute_call_of_room {s : State} (hs : s.Valid) (hsp : s.sp < stackSize)
    (hroom : s.pc + 2 < memorySize) :
    (Operation.address .call).execute args s =
      (do setPc (← args.require .addr) : State.Action Unit) s.pushed := by
  have hmem : 0 ≤ s.sp ∧ s.sp < stackSize := ⟨hs.sp_mem.1, hsp⟩
  rw [execute_of_not_fallsThrough rfl, Operation.perform, AddressOp.perform,
    bind_of_ok (get_apply s), if_neg (by omega), bind_of_ok (nextPc_of_room hroom),
    bind_of_ok (writeStack_apply hs.stack_size hmem _), bind_of_ok (modify_apply _ _)]
  rfl

theorem execute_of_stray {key : String} {addr : Int} {s : State} (hs : s.Valid)
    (h : Stray key args addr s) :
    (Operation.address .call).execute args s =
      .error (.fault (.pcOutOfRange addr)) s.pushed := by
  have haddr : args.require .addr = pure addr := by
    rw [Operands.require, Operands.get?, h.addr_eq]
  rw [execute_call_of_room args hs h.sp_lt h.room, haddr, pure_bind]
  exact setPc_of_not_mem h.outside

/-- A call that does not stray changes nothing if it ends in a fault: once its return address is
pushed, there is nothing left for it to fail with. -/
theorem atomic_call {s : State} (hs : s.Valid) (h : ¬ ∃ addr, Stray "OP_CALL" args addr s) :
    Atomic ((Operation.address .call).execute args) s := by
  rcases Int.lt_or_le s.sp stackSize with hsp | hfull
  · rcases Int.lt_or_le (s.pc + 2) memorySize with hroom | hnone
    · have hexecute := execute_call_of_room args hs hsp hroom
      rw [Operands.require] at hexecute
      cases haddr : args.get? .addr with
      | none =>
        intro f s' hf
        rw [hexecute, haddr] at hf
        exact absurd hf misuse_ne_fault
      | some addr =>
        have hmem : 0 ≤ addr ∧ addr < memorySize := by
          apply Classical.byContradiction
          intro houtside
          exact h ⟨addr, rfl, haddr, houtside, hsp, hroom⟩
        rw [haddr] at hexecute
        exact .of_ok (hexecute.trans (setPc_of_mem hmem))
    · apply Atomic.of_error
      rw [execute_of_not_fallsThrough rfl, Operation.perform, AddressOp.perform,
        bind_of_ok (get_apply s), if_neg (by omega), bind_of_error (nextPc_of_no_room hnone)]
  · apply Atomic.of_error
    rw [execute_of_not_fallsThrough rfl, Operation.perform, AddressOp.perform,
      bind_of_ok (get_apply s), if_pos hfull, fault_apply]

theorem pushed_ne (s : State) : s.pushed ≠ s := by
  intro h
  have hsp : s.sp + 1 = s.sp := congrArg State.sp h
  omega

end

/-! ## Requests by key -/

namespace OperationTable

/-- A key that is carried out as an operation is the key of that operation. -/
theorem key_of_ofKey? {key : String} {op : Operation} (h : Operation.ofKey? key = some op) :
    op.key = key := by
  have hfound := List.find?_some h
  exact eq_of_beq hfound

theorem execute_of_not_mem (t : OperationTable) {key : String} (h : t.mem key = false)
    (args : Operands) (s : State) :
    t.execute key args s = .error (.misuse (.unknownOperation key)) s := by
  rw [mem, Bool.or_eq_false_iff, Option.isSome_eq_false_iff, Option.isNone_iff_eq_none] at h
  rw [execute, h.1, h.2]
  rfl

/-- The one request that changes something and ends in a fault. -/
theorem execute_stray (t : OperationTable) {s : State} (hs : s.Valid) {key : String}
    {args : Operands} {addr : Int} (h : Stray key args addr s) :
    t.execute key args s = .error (.fault (.pcOutOfRange addr)) s.pushed := by
  have hkey : key = (Operation.address .call).key := h.key_eq
  rw [hkey, t.execute_key]
  exact execute_of_stray args hs h

/-- All others are atomic, the keys that a host has added included. -/
theorem atomic_execute (t : OperationTable) {s : State} (hs : s.Valid) {key : String}
    {args : Operands} (h : ¬ ∃ addr, Stray key args addr s) : Atomic (t.execute key args) s := by
  rw [execute]
  split
  · next op hop =>
    have hkey : op.key = key := key_of_ofKey? hop
    by_cases hcall : op = .address .call
    · subst hcall hkey
      exact atomic_call args hs h
    · exact Operation.atomic_execute args hcall hs
  · split
    · exact (looks_pure ()).calm.atomic s
    · exact .of_error rfl

/-- **Requests by a host.** On a valid state, with any key and any operands:

* what ends in a fault has changed something exactly if it strays;
* what strays ends in a fault, with its return address pushed and the program counter where it was;
* a key that is not in the table is a misuse, whatever the operands are, and changes nothing. -/
theorem changed_of_fault_iff (t : OperationTable) {s : State} (hs : s.Valid) (key : String)
    (args : Operands) :
    (∀ f s', t.execute key args s = .error (.fault f) s' →
      (s' ≠ s ↔ ∃ addr, Stray key args addr s)) ∧
    (∀ addr, Stray key args addr s →
      t.execute key args s = .error (.fault (.pcOutOfRange addr)) s.pushed) ∧
    (t.mem key = false →
      t.execute key args s = .error (.misuse (.unknownOperation key)) s) := by
  refine ⟨?_, fun addr h => t.execute_stray hs h, fun h => t.execute_of_not_mem h args s⟩
  intro f s' hf
  constructor
  · intro hne
    apply Classical.byContradiction
    intro hnone
    exact hne (t.atomic_execute hs hnone f s' hf)
  · rintro ⟨addr, hstray⟩
    rw [t.execute_stray hs hstray] at hf
    injection hf with _ hpushed
    rw [← hpushed]
    exact pushed_ne s

/-- A call to an address below memory, on a machine that has just been switched on, and a key that
no table has. -/
theorem changed_of_fault_iff_call :
    Machine.standard.state.Valid ∧
    (({} : OperationTable).execute "OP_CALL" { addr := some (-2) } Machine.standard.state =
      .error (.fault (.pcOutOfRange (-2))) Machine.standard.state.pushed) ∧
    Machine.standard.state.pushed ≠ Machine.standard.state ∧
    ({} : OperationTable).execute "OP_NONE" {} Machine.standard.state =
      .error (.misuse (.unknownOperation "OP_NONE")) Machine.standard.state := by
  have hs : Machine.standard.state.Valid := Machine.standard_valid
  have hstray : Stray "OP_CALL" { addr := some (-2) } (-2) Machine.standard.state :=
    ⟨rfl, rfl, by decide, by decide, by decide⟩
  obtain ⟨hchanged, hcall, -⟩ := changed_of_fault_iff {} hs "OP_CALL" { addr := some (-2) }
  obtain ⟨-, -, hunknown⟩ := changed_of_fault_iff {} hs "OP_NONE" {}
  have hfails := hcall (-2) hstray
  exact ⟨hs, hfails, (hchanged _ _ hfails).mpr ⟨-2, hstray⟩, hunknown (by decide +kernel)⟩

end OperationTable

end Chip8
