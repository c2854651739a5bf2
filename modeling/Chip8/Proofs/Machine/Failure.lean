import Chip8.Proofs.Machine.Cycle
import Chip8.Proofs.Machine.Fresh

/-!
# How the machine fails

A cycle that fails is one that has not happened. There is nothing to roll back: whatever can fail
comes before whatever writes, as `cycle_eq` has it, so that the machine a failed cycle leaves behind
is the machine it began with. From there the same cycle fails in the same way, for as long as nobody
else touches the machine.

When a cycle fails is settled by the table (`Machine.fault?`), for all words and all valid states.
-/

set_option autoImplicit false

namespace Chip8

open State Outcome

/-- Where there is neither font nor program, there are empty words. -/
theorem State.opcode_of_initialMemory {s : State} (hmem : s.memory = initialMemory)
    (hpc : 0xA0 ≤ s.pc ∧ s.pc + 1 < memorySize) : s.opcode = .ofBytes 0 0 := by
  rw [opcode_eq_ofBytes, byte_of_initialMemory hmem (by omega),
    byte_of_initialMemory hmem (by omega)]
  rfl

namespace Machine

/-! ## Runs -/

theorem run_succ (n : Nat) (m : Machine) :
    run (n + 1) m = match cycle m with
      | .ok _ m' => run n m'
      | .error e m' => .error e m' := by
  rw [run, bind_apply]
  cases cycle m with
  | ok entry m' => rfl
  | error e m' => rfl

/-- A failed cycle that has changed nothing fails however often it is tried. -/
theorem run_of_cycle_error {m : Machine} {e : Error} (h : cycle m = .error e m) (n : Nat) :
    run (n + 1) m = .error e m := by
  rw [run_succ, h]

/-- A run that fails is a shorter run that completes, and a cycle that fails. -/
theorem of_run_error {e : Error} {m' : Machine} (n : Nat) :
    ∀ {m : Machine}, m.state.Valid → run n m = .error e m' →
      ∃ k, k < n ∧ run k m = .ok () m' ∧ cycle m' = .error e m' := by
  induction n with
  | zero =>
    intro m _ h
    exact absurd h (by simp [run, pure_apply])
  | succ n ih =>
    intro m hv h
    rw [run_succ] at h
    cases hc : cycle m with
    | ok entry m₁ =>
      -- the failure is further on, and one cycle less is left to it
      rw [hc] at h
      obtain ⟨hf, -, rfl⟩ := of_cycle_ok hv hc
      obtain ⟨k, hk, hrun, hfail⟩ := ih (next_valid hv hf) h
      refine ⟨k + 1, Nat.succ_lt_succ hk, ?_, hfail⟩
      rw [run_succ, hc]
      exact hrun
    | error e₁ m₁ =>
      rw [hc] at h
      injection h with herror hsame
      subst herror hsame
      obtain ⟨-, -, -, rfl⟩ := of_cycle_error hv hc
      exact ⟨0, Nat.succ_pos n, rfl, hc⟩

/-- **A failed cycle has not happened.** It leaves the whole machine as it was: the state with its
random source, the trace and the record of words stepped over. So a run that fails has only done the
cycles before, and fails again in the same way, without any change, each time it is taken up. -/
theorem failure_atomic {m : Machine} (hv : m.state.Valid) :
    (∀ e m', cycle m = .error e m' → m' = m) ∧
    ∀ n e m', run n m = .error e m' →
      ∃ k, k < n ∧ run k m = .ok () m' ∧ ∀ j, run (j + 1) m' = .error e m' := by
  constructor
  · intro e m' h
    obtain ⟨-, -, -, hsame⟩ := of_cycle_error hv h
    exact hsame
  · intro n e m' h
    obtain ⟨k, hk, hrun, hfail⟩ := of_run_error n hv h
    exact ⟨k, hk, hrun, run_of_cycle_error hfail⟩

/-- A machine that steps over what it does not know goes on at an empty word. -/
theorem fault?_of_empty_word {m : Machine} (hskip : m.onInvalid = .skip)
    (hword : m.state.opcode = .ofBytes 0 0) (hroom : m.state.pc + 2 < memorySize) :
    m.fault? = none := by
  have hdecode : (Opcode.ofBytes 0 0).decode = .error .machineRoutine := rfl
  rw [fault?, if_neg (by omega), hword, hdecode]
  simp only [refusal?, hskip, overrun?_of_room hroom]

/-- A machine that steps over what it does not know, two empty words before the end of memory. -/
def blank : Machine :=
  { standard with onInvalid := .skip, state := { standard.state with pc := 0xFFC } }

theorem blank_valid : blank.state.Valid :=
  { standard_valid with pc_mem := (by decide : (0 : Int) ≤ 0xFFC ∧ (0xFFC : Int) < memorySize) }

theorem blank_opcode : blank.state.opcode = .ofBytes 0 0 :=
  opcode_of_initialMemory (s := blank.state) rfl (by decide)

theorem blank_next : blank.next = (blank.behind .machineRoutine).count := by
  rw [next, carried, blank_opcode]
  rfl

theorem blank_fault? : blank.fault? = none := fault?_of_empty_word rfl blank_opcode (by decide)

theorem cycle_blank : cycle blank = .ok blank.entry? blank.next := by
  rw [cycle_eq blank_valid, blank_fault?, settled_none]

/-- The second of two cycles finds the second word, but no place behind it. -/
theorem run_blank : run 2 blank = .error (.fault (.pcOutOfRange 0x1000)) blank.next := by
  have hopcode : blank.next.state.opcode = .ofBytes 0 0 := by
    rw [blank_next]
    exact opcode_of_initialMemory rfl (by decide)
  have hfault : blank.next.fault? = some (.pcOutOfRange 0x1000) := by
    rw [fault?, hopcode, blank_next]
    rfl
  rw [run_succ, cycle_blank]
  show run 1 blank.next = _
  rw [run_succ, cycle_eq (next_valid blank_valid blank_fault?), hfault, settled_some]

theorem failure_atomic_blank : ∃ k, k < 2 ∧ run k blank = .ok () blank.next ∧
    ∀ j, run (j + 1) blank.next = .error (.fault (.pcOutOfRange 0x1000)) blank.next :=
  (failure_atomic blank_valid).2 2 _ _ run_blank

/-! ## When a cycle fails -/

/-- **Which cycles fail, and with what.** The faults are those of `Machine.fault?`; nothing else can
end a cycle, and no misuse ever does. -/
theorem cycle_fails_iff {m : Machine} (hv : m.state.Valid) (e : Error) :
    (∃ m', cycle m = .error e m') ↔ ∃ f, m.fault? = some f ∧ e = .fault f := by
  constructor
  · rintro ⟨m', h⟩
    obtain ⟨f, hf, he, -⟩ := of_cycle_error hv h
    exact ⟨f, hf, he⟩
  · rintro ⟨f, hf, rfl⟩
    exact ⟨m, by rw [cycle_eq hv, hf, settled_some]⟩

/-- A state at the last word of memory, with no place left on the stack. -/
def lastWord : State := { standard.state with pc := 0xFFE, sp := stackSize }

theorem lastWord_valid : lastWord.Valid :=
  { standard_valid with
    pc_mem := (by decide : (0 : Int) ≤ 0xFFE ∧ (0xFFE : Int) < memorySize)
    sp_mem := (by decide : (0 : Int) ≤ stackSize ∧ (stackSize : Int) ≤ stackSize) }

/-- The same with a call there. -/
def crowded : Machine := { standard with state := lastWord.setByte 0xFFE 0x22 }

theorem crowded_valid : crowded.state.Valid :=
  (setByte_keeps lastWord 0xFFE 0x22).valid lastWord_valid

theorem crowded_instruction : crowded.state.instruction? = some (.address .call 0x200) := by
  have hpc : crowded.state.pc = 0xFFE := rfl
  have hhigh : crowded.state.byte 0xFFE = 0x22 :=
    byte_setByte_self lastWord_valid.memory_size 0xFFE 0x22
  have hlow : crowded.state.byte (0xFFE + 1) = 0 := by
    have hne : addressPlace 0xFFE ≠ addressPlace (0xFFE + 1) := by decide
    have hmem : lastWord.memory = initialMemory := rfl
    have hold : lastWord.byte (0xFFE + 1) = 0 := byte_of_initialMemory hmem (by decide)
    exact (byte_setByte_of_ne lastWord hne 0x22).trans hold
  rw [instruction?_eq_some, opcode_eq_ofBytes, hpc, hhigh, hlow]
  rfl

/-- There is no room behind the call either, but that is not what it fails with. -/
theorem cycle_fails_iff_crowded :
    ∃ m', cycle crowded = .error (.fault (.stackOverflow 0xFFE)) m' := by
  have hfault : crowded.fault? = some (.stackOverflow 0xFFE) := by
    rw [fault?_of_instruction (by decide) crowded_instruction]
    rfl
  exact (cycle_fails_iff crowded_valid _).mpr ⟨_, hfault, rfl⟩

end Machine

end Chip8
