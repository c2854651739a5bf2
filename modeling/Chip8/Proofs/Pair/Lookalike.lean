import Chip8.Proofs.Pair.Blur
import Chip8.Proofs.Pair.Tandem

/-!
# Machines that look the same

Two valid machines with the same settings, whose states look the same through a blur, go on looking
the same, whatever is in memory and whatever the host calls (`Lookalike.lockstep`). A blur of the
keys is the exception again: then a cycle has to be told that the keys it asks for are the same.
-/

set_option autoImplicit false

namespace Chip8

open State Outcome

/-- An act of the host is the same act on both states. -/
theorem Blur.Same.act {b : Blur} {s t : State} (h : b.Same s t) (hs : s.Valid) (ht : t.Valid)
    (a : HostAct) : Alike Eq b.Same (a.onState s) (a.onState t) := by
  cases a with
  | load program =>
    rw [HostAct.onState, bind_apply, bind_apply]
    by_cases hroom : program.size ≤ maxProgramSize
    · rw [load_of_room s hroom, load_of_room t hroom]
      exact .ok rfl { h with memory := by rw [loaded, loaded, h.memory] }
    · rw [load_of_no_room s (by omega), load_of_no_room t (by omega)]
      exact .error _ h
  | setKey pin held =>
    rw [HostAct.onState]
    split
    · rw [writeKey, writeKey, hs.keys_size, ht.keys_size]
      cases placeOf keyCount pin .entryWriteIndex with
      | ok p => exact .ok rfl { h with keys := fun hb => by rw [h.keys hb] }
      | error e => exact .error _ h
    · exact .error _ h
  | releaseKeys => exact .ok rfl { h with keys := fun _ => rfl }
  | takeRedraw => exact .ok rfl { h with redraw := fun _ => rfl }

namespace Machine

/-- Two valid machines with the same settings, whose states differ in what is blurred at most.
Nothing is said of what they have noted and traced. -/
structure Lookalike (b : Blur) (m m' : Machine) : Prop where
  valid : m.state.Valid
  valid' : m'.state.Valid
  same : b.Same m.state m'.state
  timerResolution : m'.timerResolution = m.timerResolution
  onInvalid : m'.onInvalid = m.onInvalid

/-- The next cycle gets the same answers about keys from both machines. -/
def KeysAlike (m m' : Machine) : Prop :=
  ∀ i, m.state.instruction? = some i → i.KeysAlike m.state m'.state

namespace Lookalike

variable {b : Blur} {m m' : Machine}

theorem keysAlike (h : Lookalike b m m') (hb : b.keys = false) : KeysAlike m m' :=
  fun i _ => .of_eq (h.same.keys hb) h.same.registers i

theorem fault? (h : Lookalike b m m') (hk : KeysAlike m m') : m'.fault? = m.fault? := by
  have hword : m'.state.word = m.state.word := by
    rw [← opcode_word, ← opcode_word, h.same.opcode]
  rw [Machine.fault?, Machine.fault?, h.same.pc, h.same.opcode]
  cases hd : m.state.opcode.decode with
  | ok i =>
    have hi := instruction?_eq_some.mpr hd
    simp only [h.same.fault? h.valid (hk i hi)]
  | error reason => simp only [refusal?, h.onInvalid, hword, h.same.pc]

theorem carried (h : Lookalike b m m') (hk : KeysAlike m m') (hf : m.fault? = none) :
    b.Same m.carried.state m'.carried.state := by
  have hpc := room_of_fault? hf
  rw [Machine.carried, Machine.carried, h.same.opcode]
  cases hd : m.state.opcode.decode with
  | ok i =>
    have hi := instruction?_eq_some.mpr hd
    rw [fault?_of_instruction hpc hi] at hf
    exact h.same.effect h.valid h.valid' (hk i hi) hf
  | error reason => exact { h.same with pc := congrArg (· + 2) h.same.pc }

theorem next (h : Lookalike b m m') (hk : KeysAlike m m') (hf : m.fault? = none) :
    Lookalike b m.next m'.next where
  valid := next_valid h.valid hf
  valid' := next_valid h.valid' ((h.fault? hk).trans hf)
  same := by
    rw [next_state, next_state, h.timerResolution]
    exact ((h.carried hk hf).tickTimers _).countCycle
  timerResolution := by rw [next_timerResolution, next_timerResolution, h.timerResolution]
  onInvalid := by rw [next_onInvalid, next_onInvalid, h.onInvalid]

theorem cycle (h : Lookalike b m m') (hk : KeysAlike m m') :
    Alike (fun _ _ => True) (Lookalike b) (Machine.cycle m) (Machine.cycle m') := by
  rw [cycle_eq h.valid, cycle_eq h.valid', h.fault? hk]
  exact .settled trivial h (h.next hk)

theorem act (h : Lookalike b m m') (a : HostAct) :
    Alike Eq (Lookalike b) (a.action m) (a.action m') := by
  have hends : Alike Eq (fun w w' => b.Same w.state w'.state ∧
      w'.timerResolution = w.timerResolution ∧ w'.onInvalid = w.onInvalid)
      (a.action m) (a.action m') := by
    rw [a.action_eq, a.action_eq]
    refine Alike.onState (h.same.act h.valid h.valid' a) ?_
    intro s t hsame
    exact ⟨hsame, h.timerResolution, h.onInvalid⟩
  refine hends.mono ?_
  rintro ⟨hsame, hresolution, hpolicy⟩
  exact ⟨valid_step h.valid (.acted a m), valid_step h.valid' (.acted a m'), hsame, hresolution,
    hpolicy⟩

/-- **Machines that look the same match in every event**, unless the blur is one of the keys. -/
theorem lockstep (hb : b.keys = false) :
    Lockstep (Lookalike b) (Event.Matches (Lookalike b)) (fun _ _ => False) :=
  .of_alike (fun h => h.cycle (h.keysAlike hb)) act

end Lookalike

end Machine

end Chip8
