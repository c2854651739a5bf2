import Mathlib.Data.List.Induction
import Chip8.Proofs.Machine.Program

/-!
# Calls on the state

A host that has a state in its hands reads and writes it by a handful of calls, with whatever
numbers it likes. `State.Call` has one constructor for each of them, and `State.afterCalls` is the
state after some have been made.

A call that fails changes nothing, and there is one way in which calls can spoil a valid state.
Setting the program counter looks at both ends of memory; moving it looks at the upper end alone. So

> **a valid state stays valid exactly as long as no move goes below address zero** (`NeverBelow`),

and what such a move spoils is the program counter and nothing else, which is what
`State.ValidBelow` says. Any other move does what setting the program counter would do.
-/

set_option autoImplicit false

namespace Chip8

open State Outcome

namespace State

/-! ## Calls -/

/-- A call that a host can make on a state, with any numbers. -/
inductive Call
  | getRegister (r : Int)
  | setRegister (r v : Int)
  | readMemory (a : Int)
  | writeMemory (a v : Int)
  | setPc (pc : Int)
  | nextPc (amount : Int)
  | advance (amount : Int)
  | load (program : Array UInt8)

/-- What a call does. The values that calls come back with are dropped. -/
def Call.action : Call → Action Unit
  | .getRegister r => do let _ ← State.getRegister r
  | .setRegister r v => State.setRegister r v
  | .readMemory a => do let _ ← State.readMemory a
  | .writeMemory a v => State.writeMemory a v
  | .setPc pc => State.setPc pc
  | .nextPc amount => do let _ ← State.nextPc amount
  | .advance amount => State.advance amount
  | .load program => do let _ ← State.load program

/-- The state after a call, whether the call has failed or not. -/
def afterCall (s : State) (c : Call) : State :=
  match c.action s with
  | .ok _ s' => s'
  | .error _ s' => s'

def afterCalls (s : State) (calls : List Call) : State := calls.foldl afterCall s

/-- No move among the calls takes the program counter below address zero. -/
def NeverBelow (s : State) (calls : List Call) : Prop :=
  ∀ (made : List Call) (amount : Int), made ++ [.advance amount] <+: calls →
    0 ≤ (s.afterCalls made).pc + amount

theorem afterCalls_concat (s : State) (made : List Call) (c : Call) :
    s.afterCalls (made ++ [c]) = (s.afterCalls made).afterCall c := by
  simp only [afterCalls, List.foldl_append, List.foldl_cons, List.foldl_nil]

/-! ## Valid, but for a program counter that may be negative -/

structure ValidBelow (s : State) : Prop where
  pc_lt : s.pc < memorySize
  /-- All that does not concern the program counter is as it should be. -/
  rest : ({ s with pc := 0 } : State).Valid

theorem Valid.validBelow {s : State} (hs : s.Valid) : s.ValidBelow :=
  ⟨hs.pc_mem.2, { hs with pc_mem := (by decide : (0 : Int) ≤ 0 ∧ (0 : Int) < memorySize) }⟩

theorem ValidBelow.valid_iff {s : State} (hs : s.ValidBelow) : s.Valid ↔ 0 ≤ s.pc :=
  ⟨fun h => h.pc_mem.1, fun h => { hs.rest with pc_mem := ⟨h, hs.pc_lt⟩ }⟩

section

variable {s : State}

theorem ValidBelow.withPc (hs : s.ValidBelow) {pc : Int} (hpc : pc < memorySize) :
    ({ s with pc := pc } : State).ValidBelow :=
  ⟨hpc, hs.rest⟩

theorem ValidBelow.setReg (hs : s.ValidBelow) (x : Nat) (v : UInt8) : (s.setReg x v).ValidBelow :=
  ⟨hs.pc_lt, (setReg_keeps { s with pc := 0 } x v).valid hs.rest⟩

theorem ValidBelow.setByte (hs : s.ValidBelow) (a : Int) (v : UInt8) : (s.setByte a v).ValidBelow :=
  ⟨hs.pc_lt, (setByte_keeps { s with pc := 0 } a v).valid hs.rest⟩

theorem ValidBelow.loaded (hs : s.ValidBelow) {program : Array UInt8}
    (h : program.size ≤ maxProgramSize) : (s.loaded program).ValidBelow :=
  ⟨hs.pc_lt, loaded_valid (s := { s with pc := 0 }) hs.rest h⟩

/-! ## One call -/

/-- Where a call takes the program counter from `pc`. -/
def Call.pcAfter (pc : Int) : Call → Int
  | .setPc target => if 0 ≤ target ∧ target < memorySize then target else pc
  | .advance amount => if pc + amount < memorySize then pc + amount else pc
  | _ => pc

/-- A call fails and changes nothing, or it succeeds and keeps what is to be kept. -/
theorem Call.action_cases (c : Call) (hs : s.ValidBelow) :
    (∃ e, c.action s = .error e s ∧ c.pcAfter s.pc = s.pc) ∨
      ∃ s', c.action s = .ok () s' ∧ c.pcAfter s.pc = s'.pc ∧ s'.ValidBelow := by
  have hregisters : s.registers.size = registerCount := hs.rest.registers_size
  have hmemory : s.memory.size = memorySize := hs.rest.memory_size
  cases c with
  | getRegister r =>
    by_cases hr : 0 ≤ r ∧ r < registerCount
    · obtain ⟨x, rfl⟩ := Int.eq_ofNat_of_zero_le hr.1
      have hread : State.getRegister x s = .ok (s.reg x) s := by
        rw [State.getRegister, if_pos hr, readRegister_apply hregisters (by omega)]
      exact .inr ⟨s, bind_of_ok hread, rfl, hs⟩
    · have hread : State.getRegister r s = .error (.misuse (.noSuchRegister r)) s := by
        rw [State.getRegister, if_neg hr]
        rfl
      exact .inl ⟨_, bind_of_error hread, rfl⟩
  | setRegister r v =>
    by_cases hr : 0 ≤ r ∧ r < registerCount
    · obtain ⟨x, rfl⟩ := Int.eq_ofNat_of_zero_le hr.1
      refine .inr ⟨s.setReg x (byteOf v), ?_, rfl, hs.setReg x _⟩
      rw [Call.action, State.setRegister, if_pos hr, writeRegister_byte hregisters (by omega)]
    · refine .inl ⟨.misuse (.noSuchRegister r), ?_, rfl⟩
      rw [Call.action, State.setRegister, if_neg hr]
      rfl
  | readMemory a => exact .inr ⟨s, bind_of_ok (readMemory_apply hmemory a), rfl, hs⟩
  | writeMemory a v => exact .inr ⟨_, writeMemory_apply hmemory a v, rfl, hs.setByte a _⟩
  | setPc pc =>
    by_cases hpc : 0 ≤ pc ∧ pc < memorySize
    · exact .inr ⟨_, setPc_of_mem hpc, if_pos hpc, hs.withPc hpc.2⟩
    · exact .inl ⟨_, setPc_of_not_mem hpc, if_neg hpc⟩
  | nextPc amount =>
    rcases Int.lt_or_le (s.pc + amount) memorySize with hroom | hnone
    · exact .inr ⟨s, bind_of_ok (nextPc_of_room hroom), rfl, hs⟩
    · exact .inl ⟨_, bind_of_error (nextPc_of_no_room hnone), rfl⟩
  | advance amount =>
    rcases Int.lt_or_le (s.pc + amount) memorySize with hroom | hnone
    · exact .inr ⟨_, advance_of_room hroom, if_pos hroom, hs.withPc hroom⟩
    · exact .inl ⟨_, advance_of_no_room hnone, if_neg (Int.not_lt.mpr hnone)⟩
  | load program =>
    rcases Nat.lt_or_ge maxProgramSize program.size with hlarge | hfits
    · exact .inl ⟨_, bind_of_error (load_of_no_room s hlarge), rfl⟩
    · exact .inr ⟨_, bind_of_ok (load_of_room s hfits), rfl, hs.loaded hfits⟩

theorem ValidBelow.afterCall (hs : s.ValidBelow) (c : Call) :
    (s.afterCall c).ValidBelow ∧ (s.afterCall c).pc = c.pcAfter s.pc := by
  rcases c.action_cases hs with ⟨e, hfail, hpc⟩ | ⟨t, hdone, hpc, ht⟩
  · rw [State.afterCall, hfail]
    exact ⟨hs, hpc.symm⟩
  · rw [State.afterCall, hdone]
    exact ⟨ht, hpc.symm⟩

theorem Call.eq_of_error {c : Call} (hs : s.ValidBelow) {e : Error} {s' : State}
    (h : c.action s = .error e s') : s' = s := by
  rcases c.action_cases hs with ⟨e', hfail, -⟩ | ⟨t, hdone, -⟩
  · rw [hfail] at h
    injection h with _ hs'
    exact hs'.symm
  · rw [hdone] at h
    injection h

/-- What spoils a valid state is a move below address zero. -/
theorem Valid.afterCall_iff (hs : s.Valid) (c : Call) :
    (s.afterCall c).Valid ↔ ∀ amount, c = .advance amount → 0 ≤ s.pc + amount := by
  obtain ⟨hbelow, hafter⟩ := hs.validBelow.afterCall c
  have hpc : 0 ≤ s.pc := hs.pc_mem.1
  rw [hbelow.valid_iff, hafter]
  cases c with
  | advance amount =>
    -- A move that fails goes beyond the end of memory, and so not below zero.
    have hmove : 0 ≤ (Call.advance amount).pcAfter s.pc ↔ 0 ≤ s.pc + amount := by
      rw [Call.pcAfter]
      split <;> omega
    rw [hmove]
    exact ⟨fun h _ heq => Call.advance.inj heq ▸ h, fun h => h amount rfl⟩
  | setPc pc =>
    refine iff_of_true ?_ (fun _ => nofun)
    rw [Call.pcAfter]
    split <;> omega
  | getRegister | setRegister | readMemory | writeMemory | nextPc | load =>
    exact iff_of_true hpc (fun _ => nofun)

/-- A move that stays at address zero or above sets the program counter. -/
theorem advance_eq_setPc {amount : Int} (h : 0 ≤ s.pc + amount) :
    State.advance amount s = State.setPc (s.pc + amount) s := by
  rcases Int.lt_or_le (s.pc + amount) memorySize with hroom | hnone
  · rw [advance_of_room hroom, setPc_of_mem ⟨h, hroom⟩]
  · rw [advance_of_no_room hnone, setPc_of_not_mem (by omega)]

end

/-! ## Any number of calls -/

theorem ValidBelow.afterCalls {s : State} (hs : s.ValidBelow) (calls : List Call) :
    (s.afterCalls calls).ValidBelow := by
  induction calls generalizing s with
  | nil => exact hs
  | cons c calls ih => exact ih (hs.afterCall c).1

/-- Where the program counter goes depends on the calls and on nothing else in the state. -/
theorem ValidBelow.pc_afterCalls {s : State} (hs : s.ValidBelow) (calls : List Call) :
    (s.afterCalls calls).pc = calls.foldl Call.pcAfter s.pc := by
  induction calls generalizing s with
  | nil => rfl
  | cons c calls ih =>
    obtain ⟨hbelow, hpc⟩ := hs.afterCall c
    rw [List.foldl_cons, ← hpc]
    exact ih hbelow

/-- A valid state stays valid after every call exactly if no move goes below address zero. -/
theorem Valid.afterCalls_iff {s : State} (hs : s.Valid) (calls : List Call) :
    (∀ made, made <+: calls → (s.afterCalls made).Valid) ↔ s.NeverBelow calls := by
  constructor
  · intro hvalid made amount hmade
    have hbefore : (s.afterCalls made).Valid :=
      hvalid made ((List.prefix_append made _).trans hmade)
    have hafter : ((s.afterCalls made).afterCall (.advance amount)).Valid := by
      rw [← afterCalls_concat]
      exact hvalid _ hmade
    exact (hbefore.afterCall_iff _).mp hafter amount rfl
  · intro hnever made
    induction made using List.reverseRecOn with
    | nil => exact fun _ => hs
    | append_singleton made c ih =>
      intro hmade
      have hbefore : (s.afterCalls made).Valid := ih ((List.prefix_append made _).trans hmade)
      rw [afterCalls_concat, hbefore.afterCall_iff]
      rintro amount rfl
      exact hnever made amount hmade

/-- **The calls of a host.** From a valid state, after any calls:

* all is valid but for the lower bound on the program counter;
* it has been valid after every call exactly if no move went below address zero;
* a call that fails changes nothing;
* moving the program counter to address zero or above is setting it, and fails beyond the end of
  memory as setting it does, while a move below succeeds where setting it fails. -/
theorem calls_from_valid {s : State} (hs : s.Valid) (calls : List Call) :
    ((s.afterCalls calls).Valid ↔ 0 ≤ (s.afterCalls calls).pc) ∧
    ((∀ made, made <+: calls → (s.afterCalls made).Valid) ↔ s.NeverBelow calls) ∧
    (∀ (c : Call) (e : Error) (s' : State),
      c.action (s.afterCalls calls) = .error e s' → s' = s.afterCalls calls) ∧
    ∀ amount : Int,
      let t := s.afterCalls calls
      let pc := t.pc + amount
      (0 ≤ pc → State.advance amount t = State.setPc pc t) ∧
      (memorySize ≤ pc → State.advance amount t = .error (.fault (.pcOutOfRange pc)) t) ∧
      (pc < 0 → State.advance amount t = .ok () { t with pc := pc } ∧
        State.setPc pc t = .error (.fault (.pcOutOfRange pc)) t) := by
  have hbelow : (s.afterCalls calls).ValidBelow := hs.validBelow.afterCalls calls
  refine ⟨hbelow.valid_iff, hs.afterCalls_iff calls, fun c e s' h => c.eq_of_error hbelow h,
    fun amount => ⟨advance_eq_setPc, advance_of_no_room, fun hneg => ⟨?_, ?_⟩⟩⟩
  · exact advance_of_room (by omega)
  · exact setPc_of_not_mem (by omega)

/-- A register, a move beyond the end of memory and an attempt to set the program counter below
address zero, which both fail, and a move below address zero, which does not. -/
def straying : List Call := [.setRegister 3 (-1), .advance 0xE00, .setPc (-1), .advance (-513)]

theorem calls_from_valid_straying :
    Machine.standard.state.Valid ∧ ¬ (Machine.standard.state.afterCalls straying).Valid ∧
      ¬ Machine.standard.state.NeverBelow straying := by
  have hs : Machine.standard.state.Valid := Machine.standard_valid
  have hpc : (Machine.standard.state.afterCalls straying).pc = -1 :=
    hs.validBelow.pc_afterCalls straying
  obtain ⟨hvalid, hnever, -⟩ := calls_from_valid hs straying
  have hspoilt : ¬ (Machine.standard.state.afterCalls straying).Valid := by
    rw [hvalid, hpc]
    decide
  exact ⟨hs, hspoilt, fun h => hspoilt (hnever.mpr h straying (List.prefix_refl _))⟩

/-- A machine that has just been switched on can be moved to one byte before memory, where setting
its program counter to the same address fails. -/
theorem advance_before_memory :
    Machine.standard.state.Valid ∧
      (∃ s', (Call.advance (-513)).action Machine.standard.state = .ok () s' ∧ s'.pc = -1 ∧
        ¬ s'.Valid) ∧
      (Call.setPc (-1)).action Machine.standard.state =
        .error (.fault (.pcOutOfRange (-1))) Machine.standard.state := by
  refine ⟨Machine.standard_valid, ⟨_, advance_of_room (by decide), rfl, fun h => ?_⟩,
    setPc_of_not_mem (by decide)⟩
  exact absurd h.pc_mem.1 (by decide)

end State

end Chip8
