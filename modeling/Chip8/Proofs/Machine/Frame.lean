import Chip8.Proofs.Instruction.Footprint
import Chip8.Proofs.Machine.Program

/-!
# What a cycle leaves alone

A completed cycle does two things to the state. The word at the program counter has its effect,
inside the footprint of the instruction that it is; and time goes on, which moves the timers and the
two counters and nothing else. `Machine.Within` puts the two together, field by field.

A word that is no instruction has an empty footprint. It is noted that it was stepped over, and that
is all.
-/

set_option autoImplicit false

namespace Chip8

open State

theorem Instruction.effect_counters (i : Instruction) (s : State) :
    (i.effect s).sinceTick = s.sinceTick ∧ (i.effect s).cycleCount = s.cycleCount := by
  rcases i.movesStack_cases with rfl | ⟨addr, rfl⟩ | hi
  · exact ⟨rfl, rfl⟩
  · exact ⟨rfl, rfl⟩
  · have hkeeps := write_keeps hi s
    exact ⟨hkeeps.sinceTick, hkeeps.cycleCount⟩

theorem Trace.push_limit (t : Trace) (e : TraceEntry) : (t.push e).limit = t.limit := by
  obtain ⟨limit, entries⟩ := t
  cases limit with
  | none => rfl
  | some n =>
    unfold Trace.push
    dsimp only
    split <;> rfl

namespace Machine

/-! ## Time -/

theorem carried_counters {m : Machine} (hf : m.fault? = none) :
    m.carried.state.sinceTick = m.state.sinceTick ∧
      m.carried.state.cycleCount = m.state.cycleCount := by
  rcases carried_cases hf with ⟨i, -, -, heq⟩ | ⟨-, -, reason, heq⟩
  · rw [heq]
    exact i.effect_counters m.state
  · rw [heq]
    exact ⟨rfl, rfl⟩

/-- Whether the cycle is one at which the timers count down. -/
def ticks (m : Machine) : Bool := m.timerResolution ≤ m.state.sinceTick + 1

/-- What the cycle makes of the number in a timer. -/
def ranDown (m : Machine) (v : Int) : Int := if m.ticks then max 0 (v - 1) else v

theorem ticks_iff {m : Machine} : m.ticks = true ↔ m.timerResolution ≤ m.state.sinceTick + 1 :=
  decide_eq_true_iff

/-- Between ticks only the count of cycles since the last one goes on. -/
theorem next_state_of_not_ticks {m : Machine} (hf : m.fault? = none) (ht : m.ticks = false) :
    m.next.state =
      { m.carried.state with
        sinceTick := m.state.sinceTick + 1, cycleCount := m.state.cycleCount + 1 } := by
  obtain ⟨hsince, hcount⟩ := carried_counters hf
  have hlt : m.carried.state.sinceTick + 1 < m.timerResolution := by
    rw [hsince, ← Int.not_le, ← ticks_iff, ht]
    decide
  rw [next_state, tickTimers, if_pos hlt, countCycle, hsince, hcount]

theorem next_state_of_ticks {m : Machine} (hf : m.fault? = none) (ht : m.ticks = true) :
    m.next.state =
      { m.carried.state with
        delayTimer := if m.carried.state.delayTimer > 0 then m.carried.state.delayTimer - 1
          else m.carried.state.delayTimer
        soundTimer := if m.carried.state.soundTimer > 0 then m.carried.state.soundTimer - 1
          else m.carried.state.soundTimer
        sinceTick := 0, cycleCount := m.state.cycleCount + 1 } := by
  obtain ⟨hsince, hcount⟩ := carried_counters hf
  have hle : ¬ m.carried.state.sinceTick + 1 < m.timerResolution := by
    rw [hsince, Int.not_lt, ← ticks_iff, ht]
  rw [next_state, tickTimers, if_neg hle, countCycle, hcount]

theorem next_sinceTick {m : Machine} (hf : m.fault? = none) :
    m.next.state.sinceTick = if m.ticks then 0 else m.state.sinceTick + 1 := by
  cases ht : m.ticks with
  | false => rw [next_state_of_not_ticks hf ht, if_neg (by decide)]
  | true => rw [next_state_of_ticks hf ht, if_pos rfl]

theorem next_cycleCount {m : Machine} (hf : m.fault? = none) :
    m.next.state.cycleCount = m.state.cycleCount + 1 := by
  cases ht : m.ticks with
  | false => rw [next_state_of_not_ticks hf ht]
  | true => rw [next_state_of_ticks hf ht]

/-- The tick comes after the instruction: what is put into a timer at a tick runs down at once. -/
theorem next_value {m : Machine} (hv : m.state.Valid) (hf : m.fault? = none) (t : Timer) :
    t.value m.next.state = m.ranDown (t.value m.carried.state) := by
  have hnonneg := (t.value_mem (carried_valid hv hf)).1
  have hdown : ∀ v : Int, 0 ≤ v → (if v > 0 then v - 1 else v) = max 0 (v - 1) := by
    intro v hv
    split <;> omega
  rw [ranDown]
  cases ht : m.ticks with
  | false =>
    rw [next_state_of_not_ticks hf ht, if_neg (by decide)]
    exact Timer.value_congr rfl rfl t
  | true =>
    rw [next_state_of_ticks hf ht, if_pos rfl]
    cases t with
    | delay | sound => exact hdown _ hnonneg

/-! ## Everything else -/

/-- A completed cycle with the footprint `f`, from `m` to `m'`. Nothing is said of the program
counter and of the entries of the trace. -/
structure Within (f : Footprint) (m m' : Machine) : Prop where
  covers : f.Covers m.state m'.state
  timers : ∀ t, t ∉ f.timers → t.value m'.state = m.ranDown (t.value m.state)
  sinceTick : m'.state.sinceTick = if m.ticks then 0 else m.state.sinceTick + 1
  cycleCount : m'.state.cycleCount = m.state.cycleCount + 1
  timerResolution : m'.timerResolution = m.timerResolution
  onInvalid : m'.onInvalid = m.onInvalid
  tracing : m'.tracing = m.tracing
  traceLimit : m'.trace.limit = m.trace.limit

/-- Counting and recording touch neither settings nor skips. -/
theorem next_settings (m : Machine) :
    m.next.onInvalid = m.carried.onInvalid ∧ m.next.tracing = m.carried.tracing ∧
      m.next.trace.limit = m.carried.trace.limit ∧ m.next.skips = m.carried.skips := by
  unfold next
  cases m.tracing with
  | false => exact ⟨rfl, rfl, rfl, rfl⟩
  | true => exact ⟨rfl, rfl, Trace.push_limit _ _, rfl⟩

theorem next_onInvalid (m : Machine) : m.next.onInvalid = m.onInvalid :=
  m.next_settings.1.trans m.carried_settings.1

/-- Time does not touch what a footprint speaks of. -/
theorem covers_next {f : Footprint} {m : Machine} (h : f.Covers m.state m.carried.state) :
    f.Covers m.state m.next.state := by
  obtain ⟨delay, sound, since, count, heq⟩ := next_frame m
  rw [heq]
  exact { h with }

theorem within_of_carried {f : Footprint} {m : Machine} (hv : m.state.Valid) (hf : m.fault? = none)
    (hcovers : f.Covers m.state m.carried.state)
    (htimers : ∀ t, t ∉ f.timers → t.value m.carried.state = t.value m.state)
    (hsame : m.carried.onInvalid = m.onInvalid ∧ m.carried.tracing = m.tracing ∧
      m.carried.trace = m.trace) : Within f m m.next := by
  obtain ⟨honInvalid, htracing, hlimit, -⟩ := next_settings m
  obtain ⟨honInvalid', htracing', htrace'⟩ := hsame
  refine ⟨covers_next hcovers, ?_, next_sinceTick hf, next_cycleCount hf, next_timerResolution m,
    honInvalid.trans honInvalid', htracing.trans htracing', ?_⟩
  · intro t ht
    rw [next_value hv hf, htimers t ht]
  · rw [hlimit, htrace']

/-- **What a cycle leaves alone.** A cycle that completes stays inside the footprint of the
instruction at the program counter, time apart; at a word that is no instruction it changes nothing
but to take note of it. -/
theorem cycle_within {m m' : Machine} {entry : Option TraceEntry} (hv : m.state.Valid)
    (h : cycle m = .ok entry m') :
    (∀ i : Instruction, m.state.word = i.encode.word →
      Within (i.footprint m.state) m m' ∧ m'.skips = m.skips) ∧
    ((∀ i : Instruction, m.state.word ≠ i.encode.word) →
      Within {} m m' ∧ ∃ reason, m'.skips = m.skips.push ⟨m.state.opcode, reason⟩) := by
  obtain ⟨hf, -, rfl⟩ := of_cycle_ok hv h
  obtain ⟨-, -, -, hskips⟩ := next_settings m
  rcases carried_cases hf with ⟨i, hi, -, heq⟩ | ⟨hi, -, reason, heq⟩
  · constructor
    · intro j hj
      obtain rfl : i = j := Option.some_inj.mp (hi.symm.trans (instruction?_iff_word.mpr hj))
      refine ⟨within_of_carried hv hf ?_ ?_ ?_, ?_⟩
      · rw [heq]
        exact { i.write_covers m.state with }
      · intro t ht
        rw [heq]
        dsimp only
        rw [i.value_effect, i.puts?_eq_none ht, Option.getD_none]
      · rw [heq]
        exact ⟨rfl, rfl, rfl⟩
      · rw [hskips, heq]
    · intro hnone
      exact absurd (instruction?_iff_word.mp hi) (hnone i)
  · constructor
    · intro j hj
      rw [instruction?_iff_word.mpr hj] at hi
      exact absurd hi (by simp)
    · intro _
      refine ⟨within_of_carried hv hf ?_ ?_ ?_, reason, ?_⟩
      · rw [heq]
        exact { Footprint.Covers.refl (f := {}) rfl m.state with }
      · intro t _
        rw [heq]
        exact Timer.value_congr rfl rfl t
      · rw [heq]
        exact ⟨rfl, rfl, rfl⟩
      · rw [hskips, heq]
        rfl

/-- A state whose index is the last address that there is. -/
def atLastByte : State := { standard.state with index := 0xFFF }

theorem atLastByte_valid : atLastByte.Valid :=
  { standard_valid with index_mem := (by decide : (0 : Int) ≤ 0xFFF ∧ (0xFFF : Int) ≤ 0xFFFF) }

/-- The same with two registers to be stored there. -/
def straddling : Machine := { standard with state := atLastByte.loaded #[0xF1, 0x55] }

theorem straddling_valid : straddling.state.Valid := loaded_valid atLastByte_valid (by decide)

theorem straddling_word :
    straddling.state.word = (Instruction.register .storeRegisters 1).encode.word := by
  have hword : straddling.state.word = 256 * 0xF1 + 0x55 :=
    word_loaded #[0xF1, 0x55] 0 atLastByte_valid.memory_size (by decide) (by decide) rfl rfl
  rw [hword]
  decide

theorem cycle_within_straddling : cycle straddling = .ok none straddling.next ∧
    Within { memory := [0xFFF, 0x000] } straddling straddling.next ∧
    straddling.next.skips = #[] := by
  have hcycle : cycle straddling = .ok none straddling.next :=
    cycle_of_word straddling_valid (by decide) straddling_word rfl
  exact ⟨hcycle, (cycle_within straddling_valid hcycle).1 _ straddling_word⟩

end Machine

end Chip8
