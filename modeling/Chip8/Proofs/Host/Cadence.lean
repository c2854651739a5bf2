import Chip8.Proofs.Host.Sound

/-!
# The cadence of the timers

Time is counted in completed cycles, and that is all that counts: a cycle that fails takes no time,
and neither does anything that the host does. Over a whole history the counters and the timers are
therefore known in closed form. Of `n` completed cycles every one adds to the count of cycles, and
as many of them are ticks as `Machine.ticksIn` says; a timer has run down by one for each tick since
a program last set it (`Machine.cadence`).

The proof follows one timer over a stretch of history in which it is not set (`Steps.value_unset`).
A program that sets it starts such a stretch, in the cycle that sets it: the tick of that cycle, if
it is one, comes after the instruction and already counts.
-/

set_option autoImplicit false

namespace Chip8

open State

/-! ## Setting a timer -/

/-- The last byte of the words that set the timer. -/
def Timer.code : Timer → Nat
  | .delay => 0x15
  | .sound => 0x18

/-- The word at the program counter is one that sets the timer, and `v` is what it puts there. -/
def Timer.Puts (t : Timer) (s : State) (v : Int) : Prop :=
  ∃ x : Nibble, s.word = 0xF000 + 0x100 * x.val + t.code ∧ v = (s.reg x).toNat

theorem Timer.word_setter (t : Timer) (x : Nibble) :
    (Instruction.register t.setter x).encode.word = 0xF000 + 0x100 * x.val + t.code := by
  rw [Instruction.encode, Opcode.word_ofImmediate]
  cases t with
  | delay | sound => rfl

theorem Instruction.puts?_eq_some {i : Instruction} {t : Timer} {s : State} {v : Int}
    (h : i.puts? t s = some v) : ∃ x, i = .register t.setter x ∧ v = (s.reg x).toNat := by
  unfold puts? at h
  split at h
  case h_1 op x =>
    by_cases hop : op = t.setter
    · rw [if_pos hop] at h
      exact ⟨x, by rw [hop], (Option.some_inj.mp h).symm⟩
    · rw [if_neg hop] at h
      cases h
  case h_2 => cases h

namespace Machine

variable {m m' : Machine} {t : Timer}

theorem carried_value_of_puts {v : Int} (h : t.Puts m.state v) : t.value m.carried.state = v := by
  obtain ⟨x, hword, rfl⟩ := h
  have hi : m.state.instruction? = some (.register t.setter x) :=
    instruction?_iff_word.mpr (hword.trans (t.word_setter x).symm)
  rw [carried_of_instruction hi]
  dsimp only
  rw [Instruction.value_effect, Instruction.puts?, if_pos rfl, Option.getD_some]

theorem carried_value_of_not_puts (hf : m.fault? = none) (h : ∀ v, ¬ t.Puts m.state v) :
    t.value m.carried.state = t.value m.state := by
  rcases carried_cases hf with ⟨i, hi, -, heq⟩ | ⟨-, -, reason, heq⟩
  · have hputs : i.puts? t m.state = none := by
      rw [Option.eq_none_iff_forall_not_mem]
      intro v hv
      obtain ⟨x, rfl, rfl⟩ := Instruction.puts?_eq_some hv
      exact h _ ⟨x, (instruction?_iff_word.mp hi).trans (t.word_setter x), rfl⟩
    rw [heq]
    dsimp only
    rw [i.value_effect, hputs, Option.getD_none]
  · rw [heq]
    exact Timer.value_congr rfl rfl t

/-! ## Ticks -/

/-- How many of the next `n` completed cycles are ticks. -/
def ticksIn (m : Machine) (n : Nat) : Int := (m.state.sinceTick + n) / m.timerResolution

/-- The count of cycles since the last tick has not reached the resolution. -/
def OnTime (m : Machine) : Prop := 0 ≤ m.state.sinceTick ∧ m.state.sinceTick < m.timerResolution

theorem OnTime.resolution_pos (h : m.OnTime) : 0 < m.timerResolution := Int.lt_of_le_of_lt h.1 h.2

theorem OnTime.resolution_ne_zero (h : m.OnTime) : m.timerResolution ≠ 0 :=
  Int.ne_of_gt h.resolution_pos

theorem OnTime.ticksIn_zero (h : m.OnTime) : m.ticksIn 0 = 0 := by
  rw [ticksIn, Int.natCast_zero, Int.add_zero]
  exact Int.ediv_eq_zero_of_lt h.1 h.2

theorem OnTime.ticksIn_mono (h : m.OnTime) {k n : Nat} (hkn : k ≤ n) : m.ticksIn k ≤ m.ticksIn n :=
  Int.ediv_le_ediv h.resolution_pos (by omega)

theorem OnTime.ticksIn_one (h : m.OnTime) : m.ticksIn 1 = if m.ticks then 1 else 0 := by
  obtain ⟨hlow, hhigh⟩ := h
  rw [ticksIn]
  cases ht : m.ticks with
  | false =>
    have hlt : m.state.sinceTick + 1 < m.timerResolution := by
      rw [← Int.not_le, ← ticks_iff, ht]
      decide
    exact Int.ediv_eq_zero_of_lt (by omega) hlt
  | true =>
    have heq : m.state.sinceTick + (1 : Nat) = m.timerResolution := by
      have hle := ticks_iff.mp ht
      omega
    rw [heq]
    exact Int.ediv_self (by omega)

/-- What a cycle makes of a timer is one tick or none. -/
theorem OnTime.ranDown_eq (h : m.OnTime) {v : Int} (hv : 0 ≤ v) :
    m.ranDown v = max 0 (v - m.ticksIn 1) := by
  rw [ranDown, h.ticksIn_one]
  cases m.ticks with
  | false =>
    have hmax : max 0 v = v := Int.max_eq_right hv
    simp [hmax]
  | true => rfl

/-- The counters of two machines with `n` completed cycles between them. -/
structure Elapsed (m : Machine) (n : Nat) (m' : Machine) : Prop where
  timerResolution : m'.timerResolution = m.timerResolution
  cycleCount : m'.state.cycleCount = m.state.cycleCount + n
  sinceTick : m'.state.sinceTick = (m.state.sinceTick + n) % m.timerResolution

namespace Elapsed

variable {n k : Nat}

theorem of_same (h : m.OnTime) (hres : m'.timerResolution = m.timerResolution)
    (hcount : m'.state.cycleCount = m.state.cycleCount)
    (hsince : m'.state.sinceTick = m.state.sinceTick) : Elapsed m 0 m' := by
  refine ⟨hres, ?_, ?_⟩
  · rw [hcount, Int.natCast_zero, Int.add_zero]
  · rw [hsince, Int.natCast_zero, Int.add_zero, Int.emod_eq_of_lt h.1 h.2]

theorem next (h : m.OnTime) (hf : m.fault? = none) : Elapsed m 1 m.next := by
  refine ⟨next_timerResolution m, next_cycleCount hf, ?_⟩
  have hdiv := Int.emod_add_mul_ediv (m.state.sinceTick + 1) m.timerResolution
  have hticks : (m.state.sinceTick + 1) / m.timerResolution = if m.ticks then 1 else 0 :=
    h.ticksIn_one
  rw [hticks] at hdiv
  rw [next_sinceTick hf]
  cases ht : m.ticks with
  | false => simpa [ht] using hdiv.symm
  | true =>
    have hle := ticks_iff.mp ht
    have hlt := h.2
    simp [ht] at hdiv ⊢
    omega

theorem trans {m₁ : Machine} (h : Elapsed m n m₁) (h' : Elapsed m₁ k m') :
    Elapsed m (n + k) m' := by
  refine ⟨h'.timerResolution.trans h.timerResolution, ?_, ?_⟩
  · rw [h'.cycleCount, h.cycleCount, Int.natCast_add, Int.add_assoc]
  · rw [h'.sinceTick, h.sinceTick, h.timerResolution, Int.emod_add_emod, Int.natCast_add,
      Int.add_assoc]

theorem onTime (h : Elapsed m n m') (hm : m.OnTime) : m'.OnTime := by
  unfold OnTime
  rw [h.sinceTick, h.timerResolution]
  exact ⟨Int.emod_nonneg _ hm.resolution_ne_zero, Int.emod_lt_of_pos _ hm.resolution_pos⟩

/-- The ticks still to come are those there are in all without those that have been. -/
theorem ticksIn (h : Elapsed m n m') (hm : m.OnTime) (k : Nat) :
    m'.ticksIn k = m.ticksIn (n + k) - m.ticksIn n := by
  have hsplit : m.state.sinceTick + (n + k : Nat) =
      (m.state.sinceTick + n) % m.timerResolution + k +
        m.timerResolution * ((m.state.sinceTick + n) / m.timerResolution) := by
    have hdiv := Int.emod_add_mul_ediv (m.state.sinceTick + n) m.timerResolution
    omega
  simp only [Machine.ticksIn]
  rw [h.sinceTick, h.timerResolution, hsplit,
    Int.add_mul_ediv_left _ _ hm.resolution_ne_zero]
  omega

end Elapsed

end Machine

/-! ## Histories -/

/-- Whether the event takes time. -/
def Event.isCompleted : Event → Bool
  | .completed _ _ => true
  | .failed _ _ _ | .acted _ _ _ => false

/-- How many cycles have completed. -/
def cyclesIn (evs : List Event) : Nat := evs.countP Event.isCompleted

/-- No cycle that completes sets the timer. -/
def Timer.Unset (t : Timer) (evs : List Event) : Prop :=
  ∀ w w', .completed w w' ∈ evs → ∀ v, ¬ t.Puts w.state v

theorem cyclesIn_append (evs evs' : List Event) :
    cyclesIn (evs ++ evs') = cyclesIn evs + cyclesIn evs' :=
  List.countP_append

theorem cyclesIn_cons (ev : Event) (evs : List Event) :
    cyclesIn (ev :: evs) = cyclesIn [ev] + cyclesIn evs :=
  cyclesIn_append [ev] evs

theorem Timer.Unset.of_cons {t : Timer} {ev : Event} {evs : List Event} (h : t.Unset (ev :: evs)) :
    t.Unset [ev] ∧ t.Unset evs := by
  constructor
  · intro w w' hw
    exact h w w' (by simp [List.mem_singleton.mp hw])
  · intro w w' hw
    exact h w w' (List.mem_cons_of_mem _ hw)

namespace Machine

variable {m m' : Machine} {t : Timer} {ev : Event} {evs : List Event}

theorem Step.elapsed (hs : Step m ev m') (hv : m.state.Valid) (h : m.OnTime) :
    Elapsed m (cyclesIn [ev]) m' := by
  cases hs with
  | completed hc =>
    obtain ⟨hf, -, rfl⟩ := of_cycle_ok hv hc
    exact .next h hf
  | failed hc =>
    obtain ⟨-, -, -, rfl⟩ := of_cycle_error hv hc
    exact .of_same h rfl rfl rfl
  | acted a =>
    obtain ⟨memory, keys, -, -, heq⟩ := act_frame hv a
    rw [heq]
    exact .of_same h rfl rfl rfl

theorem Step.value_unset (hs : Step m ev m') (hv : m.state.Valid) (h : m.OnTime)
    (ht : t.Unset [ev]) :
    t.value m'.state = max 0 (t.value m.state - m.ticksIn (cyclesIn [ev])) := by
  have hnonneg := (t.value_mem hv).1
  have hstays : t.value m.state = max 0 (t.value m.state - m.ticksIn 0) := by
    rw [h.ticksIn_zero]
    omega
  cases hs with
  | completed hc =>
    obtain ⟨hf, -, rfl⟩ := of_cycle_ok hv hc
    have hcarried := carried_value_of_not_puts hf (ht _ _ (List.mem_singleton_self _))
    rw [next_value hv hf, hcarried]
    exact h.ranDown_eq hnonneg
  | failed hc =>
    obtain ⟨-, -, -, rfl⟩ := of_cycle_error hv hc
    exact hstays
  | acted a =>
    obtain ⟨memory, keys, -, -, heq⟩ := act_frame hv a
    rw [heq]
    exact (Timer.value_congr rfl rfl t).trans hstays

theorem Steps.elapsed (hs : Steps m evs m') (hv : m.state.Valid) (h : m.OnTime) :
    Elapsed m (cyclesIn evs) m' := by
  induction hs with
  | nil m => exact .of_same h rfl rfl rfl
  | @cons m m₁ m' ev evs hstep _ ih =>
    have hfirst := hstep.elapsed hv h
    rw [cyclesIn_cons]
    exact hfirst.trans (ih (valid_step hv hstep) (hfirst.onTime h))

/-- A timer that nobody sets runs down with the ticks and stops at zero. -/
theorem Steps.value_unset (hs : Steps m evs m') (hv : m.state.Valid) (h : m.OnTime)
    (ht : t.Unset evs) :
    t.value m'.state = max 0 (t.value m.state - m.ticksIn (cyclesIn evs)) := by
  induction hs with
  | nil m =>
    have hnonneg := (t.value_mem hv).1
    have hnone : m.ticksIn (cyclesIn []) = 0 := h.ticksIn_zero
    omega
  | @cons m m₁ m' ev evs hstep _ ih =>
    have hfirst := hstep.elapsed hv h
    obtain ⟨hhead, htail⟩ := ht.of_cons
    have hvalue := hstep.value_unset hv h hhead
    have hrest := ih (valid_step hv hstep) (hfirst.onTime h) htail
    have hticks := hfirst.ticksIn h (cyclesIn evs)
    have hmono := h.ticksIn_mono (Nat.le_add_right (cyclesIn [ev]) (cyclesIn evs))
    -- what is gone after the first event cannot come back, so stopping at zero twice is once
    rw [cyclesIn_cons, hrest, hvalue, hticks]
    omega

theorem Step.value_put {w w' : Machine} {v : Int} (hs : Step m (.completed w w') m')
    (hv : m.state.Valid) (h : m.OnTime) (hput : t.Puts w.state v) :
    t.value m'.state = max 0 (v - m.ticksIn 1) := by
  obtain rfl : w = m := hs.before_eq
  cases hs with
  | completed hc =>
    obtain ⟨hf, -, rfl⟩ := of_cycle_ok hv hc
    have hnonneg : 0 ≤ v := by
      obtain ⟨x, -, rfl⟩ := hput
      exact Int.natCast_nonneg _
    rw [next_value hv hf, carried_value_of_puts hput]
    exact h.ranDown_eq hnonneg

/-- A timer that has been set runs down from what was put there, by the tick of that cycle too. -/
theorem Steps.value_put {before after : List Event} {w w' : Machine} {v : Int}
    (hs : Steps m (before ++ .completed w w' :: after) m') (hv : m.state.Valid) (h : m.OnTime)
    (hput : t.Puts w.state v) (ht : t.Unset after) :
    t.value m'.state = max 0 (v - (m.ticksIn (cyclesIn (before ++ .completed w w' :: after)) -
      m.ticksIn (cyclesIn before))) := by
  obtain ⟨m₁, hbefore, hrest⟩ := Steps.of_append before hs
  obtain ⟨m₂, hstep, hafter⟩ := hrest.of_cons
  have hv₁ := hbefore.valid hv
  have hfirst := hbefore.elapsed hv h
  have h₁ := hfirst.onTime h
  have hsecond := hstep.elapsed hv₁ h₁
  have hvalue := hstep.value_put hv₁ h₁ hput
  have hlast := hafter.value_unset (valid_step hv₁ hstep) (hsecond.onTime h₁) ht
  have hticks := hsecond.ticksIn h₁ (cyclesIn after)
  have hmono := h₁.ticksIn_mono (Nat.le_add_right 1 (cyclesIn after))
  have htotal := hfirst.ticksIn h (1 + cyclesIn after)
  have hone : cyclesIn [.completed w w'] = 1 := rfl
  rw [hone] at hticks
  rw [cyclesIn_append, cyclesIn_cons, hone, hlast, hvalue, hticks]
  omega

/-- **The cadence of the timers.** After any calls of a host to a machine in a valid state that is
on time, the counters and both timers are what the number of completed cycles makes them: a timer
that was not set since has run down from what it was, and one that was set from what was put there
the last time. -/
theorem cadence (hv : m.state.Valid) (h : m.OnTime) (calls : List HostCall) :
    Elapsed m (cyclesIn (m.events calls)) (m.afterCalls calls) ∧
    (∀ t : Timer, t.Unset (m.events calls) →
      t.value (m.afterCalls calls).state =
        max 0 (t.value m.state - m.ticksIn (cyclesIn (m.events calls)))) ∧
    ∀ (t : Timer) (before after : List Event) (w w' : Machine) (v : Int),
      m.events calls = before ++ .completed w w' :: after → t.Puts w.state v → t.Unset after →
      t.value (m.afterCalls calls).state =
        max 0 (v - (m.ticksIn (cyclesIn (m.events calls)) - m.ticksIn (cyclesIn before))) := by
  have hs := steps_events calls m
  refine ⟨hs.elapsed hv h, ?_, ?_⟩
  · intro t ht
    exact hs.value_unset hv h ht
  · intro t before after w w' v heq hput ht
    rw [heq] at hs ⊢
    exact hs.value_put hv h hput ht

/-- A state whose next cycle is a tick. -/
def beforeTick : State := { standard.state with sinceTick := 9 }

theorem beforeTick_valid : (beforeTick.setReg 0 5).Valid :=
  (setReg_keeps beforeTick 0 5).valid { standard_valid with }

/-- The same, with a timer about to be set to five. -/
def due : Machine := { standard with state := (beforeTick.setReg 0 5).loaded #[0xF0, 0x15] }

theorem due_valid : due.state.Valid := loaded_valid beforeTick_valid (by decide)

theorem due_puts : Timer.delay.Puts due.state 5 := by
  have hword : due.state.word = 256 * 0xF0 + 0x15 :=
    word_loaded #[0xF0, 0x15] 0 beforeTick_valid.memory_size (by decide) (by decide) rfl rfl
  exact ⟨0, hword, rfl⟩

theorem cycle_due : cycle due = .ok due.entry? due.next := by
  obtain ⟨x, hword, -⟩ := due_puts
  exact cycle_of_word due_valid (by decide) (hword.trans (Timer.delay.word_setter x).symm) rfl

theorem left_setKey_absent (m : Machine) : left (HostAct.action (.setKey 16 true) m) = m := rfl

/-- A key that there is not takes no time, and the tick takes one from the five at once. -/
theorem cadence_due : (due.afterCalls [.act (.setKey 16 true), .cycle]).state.delayTimer = 4 := by
  have hevents : due.events [.act (.setKey 16 true), .cycle] =
      [.acted (.setKey 16 true) due due] ++ [.completed due due.next] := by
    rw [events, callEvents, afterCall, HostCall.action, left_setKey_absent, events,
      callEvents_cycle cycle_due, events]
    rfl
  have hticks : ∀ n : Nat, due.ticksIn n = (9 + n) / 10 := fun _ => rfl
  have hlast := (cadence due_valid ⟨by decide, by decide⟩ [.act (.setKey 16 true), .cycle]).2.2
    .delay _ [] _ _ 5 hevents due_puts (by simp [Timer.Unset])
  rw [hevents, hticks, hticks, Timer.value] at hlast
  exact hlast.trans (by decide)

end Machine

end Chip8
