import Chip8.Proofs.Instruction.Coding
import Chip8.Proofs.Instruction.Frame

/-!
# What a cycle comes to

The table of instructions (`Chip8.Proofs.Instruction.Effect`) carried up to the machine. A cycle on
a valid state is settled by the word at the program counter: `Machine.fault?` is the fault it ends
in, if it does, and `Machine.next` the machine it leaves behind if it does not. `Machine.cycle_eq`
says that `Machine.cycle` is these two and nothing else.

A cycle that completes keeps the state valid (`next_valid`), so that the same can be said again of
the cycle after it. How it completes is one of two things (`carried_cases`): an instruction has had
its effect, or a word that is none has been stepped over. Whatever is shown of all cycles is shown
of these two.
-/

set_option autoImplicit false

namespace Chip8

open State Outcome

/-! ## Fetching -/

namespace State

/-- The word at the program counter, high byte first. -/
def word (s : State) : Nat := 256 * (s.byte s.pc).toNat + (s.byte (s.pc + 1)).toNat

/-- The opcode at the program counter. -/
def opcode (s : State) : Opcode := .ofWord s.word

/-- The instruction at the program counter, if the word there is one. -/
def instruction? (s : State) : Option Instruction := s.opcode.decode.toOption

theorem nibbleAt_natCast (n unit : Nat) : (Opcode.nibbleAt n unit).val = n / unit % 16 := by
  have hdiv : ((n : Int) / unit % 16) = (n / unit % 16 : Nat) := by omega
  rw [Opcode.nibbleAt]
  exact (congrArg Int.toNat hdiv).trans (Int.toNat_natCast _)

/-- Cutting a word into nibbles loses nothing of it. -/
theorem ofBytes_word {high low : Nat} (hhigh : high < 256) (hlow : low < 256) :
    (Opcode.ofBytes high low).word = 256 * high + low := by
  simp only [Opcode.ofBytes, Opcode.word, nibbleAt_natCast]
  omega

theorem opcode_eq_ofBytes (s : State) :
    s.opcode = .ofBytes (s.byte s.pc).toNat (s.byte (s.pc + 1)).toNat := by
  have hhigh : (s.byte s.pc).toNat < 256 := (s.byte s.pc).toNat_lt
  have hlow : (s.byte (s.pc + 1)).toNat < 256 := (s.byte (s.pc + 1)).toNat_lt
  have hdiv : ((s.word : Int) / 256 % 256) = (s.byte s.pc).toNat := by
    simp only [word]; omega
  have hmod : ((s.word : Int) % 256) = (s.byte (s.pc + 1)).toNat := by
    simp only [word]; omega
  rw [opcode, Opcode.ofWord, hdiv, hmod]

theorem opcode_word (s : State) : s.opcode.word = s.word := by
  rw [opcode_eq_ofBytes]
  exact ofBytes_word (s.byte s.pc).toNat_lt (s.byte (s.pc + 1)).toNat_lt

theorem fetch_of_room {s : State} (hs : s.Valid) (h : s.pc ≤ memorySize - 2) :
    fetch s = .ok s.opcode s := by
  have hpc := hs.pc_mem
  have hhigh : 0 ≤ s.pc ∧ s.pc < memorySize := by omega
  have hlow : 0 ≤ s.pc + 1 ∧ s.pc + 1 < memorySize := by omega
  rw [fetch, bind_of_ok (get_apply s), if_neg (by omega),
    bind_of_ok (byteAt_apply hs.memory_size hhigh), bind_of_ok (byteAt_apply hs.memory_size hlow),
    pure_apply, opcode_eq_ofBytes]

theorem fetch_of_no_room {s : State} (h : memorySize - 2 < s.pc) :
    fetch s = .error (.fault (.pcOutOfRange s.pc)) s := by
  rw [fetch, bind_of_ok (get_apply s), if_pos h, fault_apply]

end State

/-! ## The outcome of a cycle -/

namespace Machine

/-- The fault that a word which is no instruction makes of a cycle, as the policy has it. -/
def refusal? (m : Machine) (reason : InvalidReason) : Option Fault :=
  match m.onInvalid with
  | .refuse => some (.unknownOpcode m.state.word m.state.pc reason.text)
  | .skip => overrun? (m.state.pc + 2)

/-- The fault that a cycle ends in, if it does: there is no whole word at the program counter; or
the word is an instruction, and the instruction fails; or it is none, and then the policy counts. -/
def fault? (m : Machine) : Option Fault :=
  if m.state.pc > memorySize - 2 then some (.pcOutOfRange m.state.pc)
  else
    match m.state.opcode.decode with
    | .ok i => i.fault? m.state
    | .error reason => m.refusal? reason

/-- The word at the program counter if it has to be stepped over. -/
def skip? (m : Machine) : Option Skip :=
  match m.state.opcode.decode with
  | .ok _ => none
  | .error reason => some ⟨m.state.opcode, reason⟩

/-- The machine behind a word that it has stepped over. -/
def behind (m : Machine) (reason : InvalidReason) : Machine :=
  { m with
    state := { m.state with pc := m.state.pc + 2 }
    skips := m.skips.push ⟨m.state.opcode, reason⟩ }

/-- The machine after the word at the program counter, with the cycle not yet counted. -/
def carried (m : Machine) : Machine :=
  match m.state.opcode.decode with
  | .ok i => { m with state := i.effect m.state }
  | .error reason => m.behind reason

/-- The trace entry of a completed cycle. -/
def entry (m : Machine) : TraceEntry where
  cycle := m.carried.count.state.cycleCount - 1
  pc := m.state.pc
  opcode := m.state.opcode
  decoded := .ofOpcode m.state.opcode
  before := m.state.snapshot
  after := m.carried.count.state.snapshot
  skipped := m.skip?

/-- The machine after a completed cycle. -/
def next (m : Machine) : Machine :=
  if m.tracing then record m.entry m.carried.count else m.carried.count

theorem onState_settled {α : Type} {act : State.Action α} {m : Machine} {fault : Option Fault}
    {v : α} {s' : State} (h : act m.state = settled fault m.state v s') :
    onState act m = settled fault m v { m with state := s' } := by
  cases fault with
  | none => rw [onState, h, settled_none, settled_none]
  | some f => rw [onState, h, settled_some, settled_some]

theorem stepOver_apply (m : Machine) (reason : InvalidReason) :
    stepOver m.state.opcode reason m =
      settled (m.refusal? reason) m ⟨m.state.opcode, reason⟩ (m.behind reason) := by
  rw [stepOver, bind_of_ok (get_apply m), refusal?]
  cases m.onInvalid with
  | refuse =>
    rw [opcode_word]
    rfl
  | skip =>
    have hadvance := onState_settled (advance_apply m.state 2)
    dsimp only
    rw [bind_apply, hadvance]
    cases overrun? (m.state.pc + 2) with
    | none => rfl
    | some f => rfl

/-- An opcode that is an instruction comes to its effect or to its fault, wherever it stands. -/
theorem carryOut_of_decode {m : Machine} {o : Opcode} {i : Instruction} (hv : m.state.Valid)
    (h : o.decode = .ok i) :
    carryOut o m = settled (i.fault? m.state) m none { m with state := i.effect m.state } := by
  rw [carryOut, h]
  dsimp only
  rw [bind_apply, onState_settled (Instruction.execute_eq hv i)]
  cases i.fault? m.state with
  | none => rfl
  | some f => rfl

/-- An instruction that does not fail, carried out from the word that stands for it. -/
theorem carryOut_encode {m : Machine} {i : Instruction} (hv : m.state.Valid)
    (hf : i.fault? m.state = none) :
    carryOut i.encode m = .ok none { m with state := i.effect m.state } := by
  rw [carryOut_of_decode hv (Opcode.decode_encode i), hf, settled_none]

theorem carryOut_apply {m : Machine} (hv : m.state.Valid)
    (hroom : m.state.pc ≤ memorySize - 2) :
    carryOut m.state.opcode m = settled m.fault? m m.skip? m.carried := by
  rw [fault?, if_neg (by omega), skip?, carried]
  cases hd : m.state.opcode.decode with
  | ok i => exact carryOut_of_decode hv hd
  | error reason =>
    rw [carryOut, hd]
    dsimp only
    rw [bind_apply, stepOver_apply]
    cases m.refusal? reason with
    | none => rfl
    | some f => rfl

/-- The trace entry that a completed cycle answers with, if a trace is kept. -/
def entry? (m : Machine) : Option TraceEntry := if m.tracing then some m.entry else none

/-- **What a cycle comes to.** It ends in the one fault that there is, with nothing changed, or it
completes with its trace entry and leaves the next machine behind. -/
theorem cycle_eq {m : Machine} (hv : m.state.Valid) :
    cycle m = settled m.fault? m m.entry? m.next := by
  rw [cycle, bind_of_ok (get_apply m)]
  rcases Int.lt_or_le (memorySize - 2) m.state.pc with h | h
  · have hfetch : onState fetch m = .error (.fault (.pcOutOfRange m.state.pc)) m := by
      rw [onState, fetch_of_no_room h]
    rw [bind_of_error hfetch, fault?, if_pos (by omega), settled_some]
  · have hfetch : onState fetch m = .ok m.state.opcode m := by
      rw [onState, fetch_of_room hv h]
    rw [bind_of_ok hfetch, bind_apply, carryOut_apply hv h]
    cases m.fault? with
    | some f => rfl
    | none =>
      -- whether a trace is kept is looked at after the instruction, which does not change it
      have htracing : m.carried.count.tracing = m.tracing := by
        simp only [count, carried]
        cases m.state.opcode.decode with
        | ok i => rfl
        | error reason => rfl
      dsimp only [settled_none]
      rw [bind_of_ok (modify_apply count _), bind_of_ok (get_apply _), htracing, entry?, next]
      cases m.tracing with
      | false => rfl
      | true => rfl

/-! ## A cycle that completes -/

theorem instruction?_eq_some {s : State} {i : Instruction} :
    s.instruction? = some i ↔ s.opcode.decode = .ok i := by
  unfold instruction?
  cases s.opcode.decode with
  | ok j => simp [Except.toOption]
  | error reason => simp [Except.toOption]

/-- Which instruction stands at the program counter is settled by the word there. -/
theorem instruction?_iff_word {s : State} {i : Instruction} :
    s.instruction? = some i ↔ s.word = i.encode.word := by
  rw [instruction?_eq_some, Opcode.decode_eq_ok_iff, ← Opcode.word_inj, opcode_word]

theorem instruction?_eq_none_iff {s : State} :
    s.instruction? = none ↔ ∀ i : Instruction, s.word ≠ i.encode.word := by
  rw [Option.eq_none_iff_forall_not_mem]
  exact forall_congr' fun i => not_congr instruction?_iff_word

theorem fault?_of_instruction {m : Machine} {i : Instruction} (hpc : m.state.pc ≤ memorySize - 2)
    (h : m.state.instruction? = some i) : m.fault? = i.fault? m.state := by
  rw [fault?, if_neg (by omega), instruction?_eq_some.mp h]

theorem carried_of_instruction {m : Machine} {i : Instruction}
    (h : m.state.instruction? = some i) : m.carried = { m with state := i.effect m.state } := by
  rw [carried, instruction?_eq_some.mp h]

/-- A cycle that completes had a whole word at the program counter. -/
theorem room_of_fault? {m : Machine} (hf : m.fault? = none) : m.state.pc ≤ memorySize - 2 := by
  rcases Int.lt_or_le (memorySize - 2) m.state.pc with h | h
  · rw [fault?, if_pos h] at hf
    exact absurd hf (by simp)
  · exact h

/-- The two ways to complete a cycle: an instruction has had its effect, or a word that is none has
been stepped over. -/
theorem carried_cases {m : Machine} (hf : m.fault? = none) :
    (∃ i, m.state.instruction? = some i ∧ i.fault? m.state = none ∧
      m.carried = { m with state := i.effect m.state }) ∨
    (m.state.instruction? = none ∧ m.state.pc + 2 < memorySize ∧
      ∃ reason, m.carried = m.behind reason) := by
  have hpc := room_of_fault? hf
  cases hi : m.state.instruction? with
  | some i =>
    rw [fault?_of_instruction hpc hi] at hf
    exact Or.inl ⟨i, rfl, hf, carried_of_instruction hi⟩
  | none =>
    -- a word that is no instruction completes a cycle only under the policy that steps over it
    rw [fault?, if_neg (by omega)] at hf
    rw [carried]
    cases hd : m.state.opcode.decode with
    | ok i =>
      rw [instruction?_eq_some.mpr hd] at hi
      exact absurd hi (by simp)
    | error reason =>
      rw [hd] at hf
      dsimp only [refusal?] at hf
      cases hpolicy : m.onInvalid with
      | refuse =>
        rw [hpolicy] at hf
        exact absurd hf (by simp)
      | skip =>
        rw [hpolicy] at hf
        exact Or.inr ⟨rfl, lt_of_overrun? hf, reason, rfl⟩

@[simp] theorem carried_timerResolution (m : Machine) :
    m.carried.timerResolution = m.timerResolution := by
  unfold carried
  cases m.state.opcode.decode with
  | ok i => rfl
  | error reason => rfl

theorem carried_settings (m : Machine) :
    m.carried.onInvalid = m.onInvalid ∧ m.carried.tracing = m.tracing ∧
      m.carried.trace = m.trace := by
  unfold carried
  cases m.state.opcode.decode with
  | ok i => exact ⟨rfl, rfl, rfl⟩
  | error reason => exact ⟨rfl, rfl, rfl⟩

theorem next_state (m : Machine) :
    m.next.state = (m.carried.state.tickTimers m.timerResolution).countCycle := by
  rw [← carried_timerResolution m]
  unfold next
  cases m.tracing with
  | false => rfl
  | true => rfl

/-- Counting a cycle touches timers and counters alone. -/
theorem next_frame (m : Machine) : ∃ delay sound since count : Int,
    m.next.state =
      { m.carried.state with
        delayTimer := delay, soundTimer := sound, sinceTick := since, cycleCount := count } := by
  rw [next_state, countCycle, tickTimers]
  split
  · exact ⟨_, _, _, _, rfl⟩
  · exact ⟨_, _, _, _, rfl⟩

@[simp] theorem next_pc (m : Machine) : m.next.state.pc = m.carried.state.pc := by
  obtain ⟨_, _, _, _, h⟩ := next_frame m
  rw [h]

@[simp] theorem next_stack (m : Machine) : m.next.state.stack = m.carried.state.stack := by
  obtain ⟨_, _, _, _, h⟩ := next_frame m
  rw [h]

@[simp] theorem next_sp (m : Machine) : m.next.state.sp = m.carried.state.sp := by
  obtain ⟨_, _, _, _, h⟩ := next_frame m
  rw [h]

/-- The settings of a machine stay as they are. -/
@[simp] theorem next_timerResolution (m : Machine) :
    m.next.timerResolution = m.timerResolution := by
  rw [← carried_timerResolution m]
  unfold next
  cases m.tracing with
  | false => rfl
  | true => rfl

end Machine

/-- A tick takes nothing from a timer that has run out. -/
theorem State.tickTimers_valid {s : State} (hs : s.Valid) (resolution : Int) :
    (s.tickTimers resolution).Valid := by
  have htick : ∀ t : Int, 0 ≤ t ∧ t ≤ 0xFF →
      0 ≤ (if t > 0 then t - 1 else t) ∧ (if t > 0 then t - 1 else t) ≤ 0xFF := by
    intro t ht
    by_cases hpos : t > 0
    · rw [if_pos hpos]
      omega
    · rw [if_neg hpos]
      exact ht
  unfold tickTimers
  by_cases h : s.sinceTick + 1 < resolution
  · rw [if_pos h]
    exact { hs with }
  · rw [if_neg h]
    exact { hs with
      delayTimer_mem := htick _ hs.delayTimer_mem, soundTimer_mem := htick _ hs.soundTimer_mem }

theorem State.countCycle_valid {s : State} (hs : s.Valid) : s.countCycle.Valid :=
  { hs with cycleCount_nonneg := Int.add_nonneg hs.cycleCount_nonneg (by decide) }

namespace Machine

/-- The room for the word itself is room behind it. -/
theorem carried_valid {m : Machine} (hv : m.state.Valid) (hf : m.fault? = none) :
    m.carried.state.Valid := by
  rcases carried_cases hf with ⟨i, -, hi, heq⟩ | ⟨-, hroom, reason, heq⟩
  · rw [heq]
    exact Instruction.effect_valid hv hi
  · rw [heq]
    have hpc : 0 ≤ m.state.pc + 2 := by
      have hpc := hv.pc_mem.1
      omega
    exact { hv with pc_mem := ⟨hpc, hroom⟩ }

/-- **A cycle that completes keeps the state valid.** -/
theorem next_valid {m : Machine} (hv : m.state.Valid) (hf : m.fault? = none) :
    m.next.state.Valid := by
  rw [next_state]
  exact countCycle_valid (tickTimers_valid (carried_valid hv hf) _)

/-! ## The outcome read off -/

/-- A cycle that completes is one with no fault. -/
theorem of_cycle_ok {m m' : Machine} (hv : m.state.Valid) {entry : Option TraceEntry}
    (h : cycle m = .ok entry m') : m.fault? = none ∧ entry = m.entry? ∧ m' = m.next := by
  rw [cycle_eq hv] at h
  cases hf : m.fault? with
  | some f =>
    rw [hf] at h
    exact absurd h (by simp)
  | none =>
    rw [hf, settled_none] at h
    injection h with hentry hnext
    exact ⟨rfl, hentry.symm, hnext.symm⟩

theorem of_cycle_error {m m' : Machine} (hv : m.state.Valid) {e : Error}
    (h : cycle m = .error e m') : ∃ f, m.fault? = some f ∧ e = .fault f ∧ m' = m := by
  rw [cycle_eq hv] at h
  cases hf : m.fault? with
  | some f =>
    rw [hf, settled_some] at h
    injection h with herror hsame
    exact ⟨f, rfl, herror.symm, hsame.symm⟩
  | none =>
    rw [hf] at h
    exact absurd h (by simp)

end Machine

end Chip8
