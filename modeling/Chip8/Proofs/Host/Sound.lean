import Chip8.Proofs.Host.History
import Chip8.Proofs.Machine.Frame

/-!
# No host and no program breaks the machine

`Machine.Sound` is what the parts of the machine rely on: a valid state, return addresses that are
addresses, and a count of cycles since the last tick that stays below the resolution of the timers.
The last two are more than validity asks for. Without them validity would not last: a return goes to
the address on the stack, and a timer would be late.

A new machine is sound, and every event keeps it so, whatever bytes are in memory: a cycle because
of `Instruction.effect_valid`, and an act of the host because there is little that a host can reach
(`act_frame`).
-/

set_option autoImplicit false

namespace Chip8

open State Outcome

/-! ## What a host can reach -/

/-- A key that there is has a place. -/
theorem Machine.setKey_of_mem {m : Machine} (hv : m.state.Valid) {pin : Int}
    (hpin : 0 ≤ pin ∧ pin < keyCount) (held : Bool) :
    Machine.setKey pin held m =
      .ok () { m with
        state := { m.state with keys := m.state.keys.setIfInBounds pin.toNat held } } := by
  have hplace : placeOf m.state.keys.size pin .entryWriteIndex = .ok pin.toNat :=
    placeOf_of_mem (by rw [hv.keys_size]; exact hpin) (by rw [hv.keys_size]; decide) _
  rw [Machine.setKey, if_pos hpin]
  simp only [Machine.onState, writeKey, hplace]

/-- A key that there is not is refused before any is touched. -/
theorem Machine.setKey_frame {m : Machine} (hv : m.state.Valid) (pin : Int) (held : Bool) :
    Machine.setKey pin held m = .error (.misuse (.noSuchKey pin)) m ∨
    ∃ keys : Array Bool, keys.size = keyCount ∧
      Machine.setKey pin held m = .ok () { m with state := { m.state with keys := keys } } := by
  by_cases hpin : 0 ≤ pin ∧ pin < keyCount
  · refine Or.inr ⟨m.state.keys.setIfInBounds pin.toNat held, ?_, setKey_of_mem hv hpin held⟩
    rw [Array.size_setIfInBounds, hv.keys_size]
  · rw [Machine.setKey, if_neg hpin]
    exact Or.inl rfl

/-- Whether the act takes the mark for a changed screen. -/
def HostAct.takes : HostAct → Bool
  | .takeRedraw => true
  | .load _ | .setKey _ _ | .releaseKeys => false

namespace Machine

theorem left_load (m : Machine) {program : Array UInt8} (h : program.size ≤ maxProgramSize) :
    left (HostAct.action (.load program) m) = { m with state := m.state.loaded program } := by
  rw [HostAct.action, bind_apply, Machine.load, onState, load_of_room m.state h]
  rfl

/-- An act of the host reaches memory, keys and the mark for the screen, and resizes nothing. The
mark goes only when it is taken. -/
theorem act_frame {m : Machine} (hv : m.state.Valid) (a : HostAct) :
    ∃ (memory : Array UInt8) (keys : Array Bool),
      memory.size = memorySize ∧ keys.size = keyCount ∧
      left (a.action m) =
        { m with state :=
          { m.state with
            memory := memory, keys := keys, redraw := !a.takes && m.state.redraw } } := by
  cases a with
  | load program =>
    by_cases hroom : program.size ≤ maxProgramSize
    · rw [left_load m hroom]
      exact ⟨_, _, loaded_memory_size hv.memory_size hroom, hv.keys_size, rfl⟩
    · rw [HostAct.action, bind_apply, Machine.load, onState, load_of_no_room m.state (by omega)]
      exact ⟨_, _, hv.memory_size, hv.keys_size, rfl⟩
  | setKey pin held =>
    rw [HostAct.action]
    rcases setKey_frame hv pin held with hfail | ⟨keys, hsize, hset⟩
    · rw [hfail]
      exact ⟨_, _, hv.memory_size, hv.keys_size, rfl⟩
    · rw [hset]
      exact ⟨_, keys, hv.memory_size, hsize, rfl⟩
  | releaseKeys => exact ⟨_, _, hv.memory_size, Array.size_replicate, rfl⟩
  | takeRedraw => exact ⟨_, _, hv.memory_size, hv.keys_size, rfl⟩

/-- Whatever happens to a valid state leaves a valid one, sound or not. -/
theorem valid_step {m m' : Machine} {ev : Event} (hv : m.state.Valid) (hs : Step m ev m') :
    m'.state.Valid := by
  cases hs with
  | completed hc =>
    obtain ⟨hf, -, rfl⟩ := of_cycle_ok hv hc
    exact next_valid hv hf
  | failed hc =>
    obtain ⟨-, -, -, rfl⟩ := of_cycle_error hv hc
    exact hv
  | acted a =>
    obtain ⟨memory, keys, hmemory, hkeys, heq⟩ := act_frame hv a
    rw [heq]
    exact { hv with memory_size := hmemory, keys_size := hkeys }

/-- Either a cycle has completed, or nothing has changed but what a host can reach. -/
theorem Step.cases_completions {m m' : Machine} {ev : Event} (hs : Step m ev m')
    (hv : m.state.Valid) :
    (m.fault? = none ∧ m' = m.next ∧ completions [ev] = [(m, m.next)]) ∨
    (completions [ev] = [] ∧ ∃ (memory : Array UInt8) (keys : Array Bool) (redraw : Bool),
      m' = { m with
        state := { m.state with memory := memory, keys := keys, redraw := redraw } }) := by
  cases hs with
  | completed hc =>
    obtain ⟨hf, -, rfl⟩ := of_cycle_ok hv hc
    exact Or.inl ⟨hf, rfl, rfl⟩
  | failed hc =>
    obtain ⟨-, -, -, rfl⟩ := of_cycle_error hv hc
    exact Or.inr ⟨rfl, _, _, _, rfl⟩
  | acted a =>
    obtain ⟨memory, keys, -, -, heq⟩ := act_frame hv a
    exact Or.inr ⟨rfl, memory, keys, _, heq⟩

theorem Steps.valid {m m' : Machine} {evs : List Event} (hs : Steps m evs m')
    (hv : m.state.Valid) : m'.state.Valid :=
  hs.preserves (P := fun m => m.state.Valid) valid_step hv

/-- Wherever a cycle of a history has completed, it has taken a valid state to a valid one. -/
theorem Steps.completed_valid {m m' w w' : Machine} {evs : List Event} (hs : Steps m evs m')
    (hv : m.state.Valid) (h : (w, w') ∈ completions evs) :
    w' = w.next ∧ w.state.Valid ∧ w'.state.Valid := by
  obtain ⟨ev, hev, hpair⟩ := List.mem_filterMap.mp h
  obtain ⟨before, _, _, hbefore, hstep⟩ := hs.of_mem hev
  have hvalid := hbefore.valid hv
  have hvalid' := valid_step hvalid hstep
  cases hstep with
  | completed hc =>
    obtain ⟨rfl, rfl⟩ := Prod.mk.inj (Option.some.inj hpair)
    exact ⟨(of_cycle_ok hvalid hc).2.2, hvalid, hvalid'⟩
  | failed | acted => cases hpair

/-- Wherever a cycle of a history has failed, it has left the machine as it was. -/
theorem Steps.failed_same {m m' w w' : Machine} {e : Error} {evs : List Event}
    (hs : Steps m evs m') (hv : m.state.Valid) (h : .failed e w w' ∈ evs) : w' = w := by
  obtain ⟨before, _, _, hbefore, hstep⟩ := hs.of_mem h
  cases hstep with
  | failed hc =>
    obtain ⟨-, -, -, hsame⟩ := of_cycle_error (hbefore.valid hv) hc
    exact hsame

/-! ## Soundness -/

structure Sound (m : Machine) : Prop where
  validate : m.state.validate = true
  /-- A return address is an address, whether it is in use or not. -/
  stack_mem : ∀ a ∈ m.state.stack, 0 ≤ a ∧ a < memorySize
  sinceTick_mem : 0 ≤ m.state.sinceTick ∧ m.state.sinceTick < m.timerResolution

theorem Sound.valid {m : Machine} (h : m.Sound) : m.state.Valid := validate_iff.mp h.validate

theorem Sound.of_ofConfig {c : Config} {m : Machine} (h : ofConfig c = .ok m) : m.Sound := by
  obtain ⟨hres, policy, limit, rfl⟩ := ofConfig_ok h
  refine ⟨validate_iff.mpr (initial_valid c.random), ?_, ?_⟩
  · intro a ha
    obtain ⟨-, rfl⟩ := Array.mem_replicate.mp ha
    exact ⟨Int.le_refl 0, by decide⟩
  · have hstart : (0 : Int) < c.timerResolution := by omega
    exact ⟨Int.le_refl 0, hstart⟩

theorem mem_carried_stack {m : Machine} (hf : m.fault? = none) {a : Int}
    (ha : a ∈ m.carried.state.stack) :
    a ∈ m.state.stack ∨ a = m.state.pc + 2 ∧ m.state.pc + 2 < memorySize := by
  rcases carried_cases hf with ⟨i, -, hi, heq⟩ | ⟨-, -, reason, heq⟩
  · rw [heq] at ha
    exact Instruction.mem_effect_stack hi ha
  · rw [heq] at ha
    exact Or.inl ha

theorem next_sinceTick_mem {m : Machine} (hf : m.fault? = none)
    (h : 0 ≤ m.state.sinceTick ∧ m.state.sinceTick < m.timerResolution) :
    0 ≤ m.next.state.sinceTick ∧ m.next.state.sinceTick < m.next.timerResolution := by
  rw [next_sinceTick hf, next_timerResolution]
  cases ht : m.ticks with
  | false =>
    have hroom : ¬ m.timerResolution ≤ m.state.sinceTick + 1 := by
      rw [← ticks_iff, ht]
      decide
    simp only [Bool.false_eq_true, if_false]
    omega
  | true => exact ⟨Int.le_refl 0, Int.lt_of_le_of_lt h.1 h.2⟩

theorem Sound.next {m : Machine} (h : m.Sound) (hf : m.fault? = none) : m.next.Sound := by
  refine ⟨validate_iff.mpr (next_valid h.valid hf), ?_, ?_⟩
  · intro a ha
    rw [next_stack] at ha
    rcases mem_carried_stack hf ha with hold | ⟨rfl, hroom⟩
    · exact h.stack_mem a hold
    · -- a call has looked for room behind itself before it stored the place
      have hpc := h.valid.pc_mem.1
      exact ⟨by omega, hroom⟩
  · exact next_sinceTick_mem hf h.sinceTick_mem

theorem Sound.step {m m' : Machine} {ev : Event} (h : m.Sound) (hs : Step m ev m') :
    m'.Sound := by
  cases hs with
  | completed hc =>
    obtain ⟨hf, -, rfl⟩ := of_cycle_ok h.valid hc
    exact h.next hf
  | failed hc =>
    obtain ⟨-, -, -, rfl⟩ := of_cycle_error h.valid hc
    exact h
  | acted a =>
    obtain ⟨memory, keys, hmemory, hkeys, heq⟩ := act_frame h.valid a
    have hv := h.valid
    rw [heq]
    exact ⟨validate_iff.mpr { hv with memory_size := hmemory, keys_size := hkeys },
      h.stack_mem, h.sinceTick_mem⟩

theorem Sound.steps {m m' : Machine} {evs : List Event} (h : m.Sound) (hs : Steps m evs m') :
    m'.Sound :=
  hs.preserves Sound.step h

/-- **A machine stays sound.** A new machine is sound and is so after any calls of a host, in any
order, whether they succeed or fail. Nothing else is needed of the calls before: each call keeps any
sound machine sound. -/
theorem sound_always :
    (∀ {c : Config} {m : Machine}, ofConfig c = .ok m →
      ∀ calls, (m.afterCalls calls).Sound) ∧
    ∀ {m : Machine}, m.Sound → ∀ call, (m.afterCall call).Sound :=
  ⟨fun h calls => (Sound.of_ofConfig h).steps (steps_events calls _),
    fun h call => h.steps (steps_callEvents _ call)⟩

/-- Too many calls by the program, and a key that there is not. -/
theorem sound_always_standard :
    (standard.afterCalls
      [.act (.load #[0x22, 0x00]), .run 17, .act (.setKey 16 true), .cycle]).Sound ∧
    (standard.afterCall (.run 17)).Sound :=
  ⟨sound_always.1 ofConfig_default _, sound_always.2 (sound_always.1 ofConfig_default []) _⟩

end Machine

end Chip8
