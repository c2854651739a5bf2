import Chip8.Proofs.Pair.Watching

/-!
# Where the random bytes go

A run can be played again from a seed, or from a list of bytes, only if it is known who takes from
the source and how much. One instruction does, `CXNN`, and it takes a byte each time it completes.
It takes it also when `NN` is 0 and nothing of the byte is kept. It takes none when it fails for
want of room behind it, because that is looked at first.

> **The bytes of a script go to the completed `CXNN` cycles, one to each and in order**
> (`chance_replayed`),

whatever the host does between the cycles and whichever of them fail. So the values that a program
sees are settled by the cycles that complete: cycles that were tried in vain, and a trace that is
kept or not, move nothing in the script.
-/

set_option autoImplicit false

namespace Chip8

open State Outcome

/-! ## The source -/

/-- A source from which `k` bytes more have been taken. -/
def Random.Source.after (source : Random.Source) : Nat → Random.Source
  | 0 => source
  | k + 1 => source.next.2.after k

theorem Random.Source.after_script (bytes : Array UInt8) (k : Nat) :
    ∀ drawn, (Random.Source.script bytes drawn).after k = .script bytes (drawn + k) := by
  induction k with
  | zero =>
    intro drawn
    rfl
  | succ k ih =>
    intro drawn
    rw [after, next, ih, Nat.add_assoc, Nat.add_comm 1 k]

/-! ## Rolls -/

/-- The word at the program counter is a `CXNN`. -/
def State.isRoll (s : State) : Bool := s.word / 0x1000 = 0xC

/-- A `CXNN` cycle that has completed. -/
def Event.isRoll : Event → Bool
  | .completed m _ => m.state.isRoll
  | .failed _ _ _ | .acted _ _ _ => false

/-- The `CXNN` cycles that have completed, each as the state before it and the state after it. -/
def rolls (evs : List Event) : List (State × State) :=
  ((completions evs).map fun (m, m') => (m.state, m'.state)).filter (·.1.isRoll)

/-- The calls that had an effect: what the host did itself, and the cycles that have completed. -/
def effective (evs : List Event) : List HostCall :=
  evs.filterMap fun
    | .completed _ _ => some .cycle
    | .failed _ _ _ => none
    | .acted a _ _ => some (.act a)

/-- What a roll comes to: a byte is taken from the source, and what `NN` lets through of it is put
into the register. -/
structure Rolled (s s' : State) : Prop where
  random : s'.random = s.random.next.2
  value : s'.reg (s.word / 0x100 % 0x10) = s.random.next.1 &&& UInt8.ofNat (s.word % 0x100)

/-- No other instruction reaches the source. -/
theorem Instruction.footprint_random (i : Instruction) (s : State) :
    (∃ x value, i = .immediate .random x value) ∨ (i.footprint s).random = false := by
  cases i with
  | clear | ret | draw => exact Or.inr rfl
  | address op addr => cases op <;> exact Or.inr rfl
  | pair op x y => cases op <;> exact Or.inr rfl
  | immediate op x value =>
    cases op with
    | random => exact Or.inl ⟨x, value, rfl⟩
    | skipEq | skipNe | load | add => exact Or.inr rfl
  | register op x =>
    refine Or.inr ?_
    cases op with
    | waitKey =>
      simp only [footprint, RegisterOp.footprint]
      split <;> rfl
    | _ => rfl

theorem State.isRoll_of_random {s : State} {x : Nibble} {value : Fin 256}
    (hw : s.word = (Instruction.immediate .random x value).encode.word) : s.isRoll = true :=
  decide_eq_true (digits_of_immediate hw).1

theorem State.exists_random {s : State} (h : s.isRoll = true) : ∃ x value,
    s.instruction? = some (.immediate .random x value) ∧
      s.word / 0x100 % 0x10 = x.val ∧ s.word % 0x100 = value.val := by
  have hgroup : s.word / 0x1000 = ImmediateOp.random.group := of_decide_eq_true h
  refine ⟨⟨s.word / 0x100 % 0x10, by omega⟩, ⟨s.word % 0x100, by omega⟩, ?_, rfl, rfl⟩
  rw [Machine.instruction?_iff_word, Instruction.encode, Opcode.word_ofImmediate]
  dsimp only
  omega

theorem rolls_cons (ev : Event) (evs : List Event) :
    rolls (ev :: evs) = rolls [ev] ++ rolls evs := by
  rw [rolls, completions_cons, List.map_append, List.filter_append]
  rfl

namespace Machine

variable {m m' : Machine} {ev : Event} {evs : List Event}

/-! ## One event -/

theorem next_roll (hv : m.state.Valid) (hroll : m.state.isRoll = true) :
    Rolled m.state m.next.state := by
  obtain ⟨x, value, hi, hx, hvalue⟩ := exists_random hroll
  obtain ⟨_, _, _, _, heq⟩ := next_frame_of_word (instruction?_iff_word.mp hi)
  rw [heq]
  refine ⟨rfl, ?_⟩
  rw [hx, hvalue, ← byteOf_natCast]
  exact reg_setReg_self hv.registers_size x.isLt _

theorem next_random_of_not_rolls (hf : m.fault? = none) (hroll : m.state.isRoll = false) :
    m.next.state.random = m.state.random := by
  obtain ⟨_, _, _, _, hnext⟩ := next_frame m
  rw [hnext]
  rcases carried_cases hf with ⟨i, hi, -, heq⟩ | ⟨-, -, reason, heq⟩
  · rw [heq]
    rcases i.footprint_random m.state with ⟨x, value, rfl⟩ | hrandom
    · rw [isRoll_of_random (instruction?_iff_word.mp hi)] at hroll
      cases hroll
    · exact (i.write_covers m.state).random hrandom
  · rw [heq]
    rfl

theorem Step.roll (hs : Step m ev m') (hv : m.state.Valid) (h : ev.isRoll = true) :
    rolls [ev] = [(m.state, m'.state)] ∧ Rolled m.state m'.state := by
  cases hs with
  | completed hc =>
    obtain ⟨-, -, rfl⟩ := of_cycle_ok hv hc
    exact ⟨List.filter_cons_of_pos h, next_roll hv h⟩
  | failed | acted => cases h

/-- A cycle that fails takes nothing, whatever it would have taken. -/
theorem Step.random_eq (hs : Step m ev m') (hv : m.state.Valid) (h : ev.isRoll = false) :
    rolls [ev] = [] ∧ m'.state.random = m.state.random := by
  cases hs with
  | completed hc =>
    obtain ⟨hf, -, rfl⟩ := of_cycle_ok hv hc
    have hnot : ¬ m.state.isRoll = true := by
      rw [← Event.isRoll.eq_1 m m.next, h]
      decide
    exact ⟨List.filter_cons_of_neg hnot, next_random_of_not_rolls hf h⟩
  | failed hc =>
    obtain ⟨-, -, -, rfl⟩ := of_cycle_error hv hc
    exact ⟨rfl, rfl⟩
  | acted a =>
    obtain ⟨memory, keys, -, -, heq⟩ := act_frame hv a
    rw [heq]
    exact ⟨rfl, rfl⟩

/-! ## Histories -/

/-- Each roll finds the source where the rolls before it have left it. -/
theorem Steps.roll (hs : Steps m evs m') (hv : m.state.Valid) : ∀ (k : Nat) (s s' : State),
    (rolls evs)[k]? = some (s, s') → s.random = m.state.random.after k ∧ Rolled s s' := by
  induction hs with
  | nil =>
    intro k s s' h
    cases h
  | @cons m m₁ m' ev evs hstep _ ih =>
    have ih := ih (valid_step hv hstep)
    intro k s s' h
    rw [rolls_cons] at h
    cases hroll : ev.isRoll with
    | false =>
      obtain ⟨hnone, hsame⟩ := hstep.random_eq hv hroll
      rw [hnone, List.nil_append] at h
      rw [← hsame]
      exact ih k s s' h
    | true =>
      obtain ⟨hone, hfirst⟩ := hstep.roll hv hroll
      rw [hone, List.singleton_append] at h
      cases k with
      | zero =>
        cases h
        exact ⟨rfl, hfirst⟩
      | succ k =>
        rw [List.getElem?_cons_succ] at h
        obtain ⟨hsource, hlater⟩ := ih k s s' h
        rw [hfirst.random] at hsource
        exact ⟨hsource, hlater⟩

theorem Steps.random_eq (hs : Steps m evs m') (hv : m.state.Valid) :
    m'.state.random = m.state.random.after (rolls evs).length := by
  induction hs with
  | nil => rfl
  | @cons m m₁ m' ev evs hstep _ ih =>
    rw [rolls_cons, ih (valid_step hv hstep)]
    cases hroll : ev.isRoll with
    | false =>
      obtain ⟨hnone, hsame⟩ := hstep.random_eq hv hroll
      rw [hnone, List.nil_append, hsame]
    | true =>
      obtain ⟨hone, hfirst⟩ := hstep.roll hv hroll
      rw [hone, List.singleton_append, List.length_cons, hfirst.random]
      rfl

theorem Steps.random_of_mem (hs : Steps m evs m') (hv : m.state.Valid) (hmem : ev ∈ evs)
    (hroll : ev.isRoll = false) : ev.after.state.random = ev.before.state.random := by
  obtain ⟨before, w, w', hbefore, hstep⟩ := hs.of_mem hmem
  rw [hstep.after_eq, hstep.before_eq]
  exact (hstep.random_eq (hbefore.valid hv) hroll).2

/-! ## Only what had an effect counts -/

theorem rolls_congr {evs evs' : List Event} (h : completions evs' = completions evs) :
    rolls evs' = rolls evs := by
  rw [rolls, h, rolls]

/-- A host that makes only the calls which had an effect sees the same cycles complete, and ends
with the same machine. -/
theorem Steps.retraced (hs : Steps m evs m') (hv : m.state.Valid) :
    completions (m.events (effective evs)) = completions evs ∧
      m.afterCalls (effective evs) = m' := by
  induction hs with
  | nil => exact ⟨rfl, rfl⟩
  | @cons m m₁ m' ev evs hstep _ ih =>
    obtain ⟨hcompletions, hend⟩ := ih (valid_step hv hstep)
    cases hstep with
    | completed hc =>
      have heffective : effective (.completed m m₁ :: evs) = .cycle :: effective evs := rfl
      rw [heffective, events, callEvents_cycle hc, afterCall_cycle hc, List.singleton_append,
        completions_cons, hcompletions, ← completions_cons, afterCalls, List.foldl_cons,
        afterCall_cycle hc]
      exact ⟨rfl, hend⟩
    | failed hc =>
      obtain ⟨-, -, -, rfl⟩ := of_cycle_error hv hc
      exact ⟨hcompletions, hend⟩
    | acted a => exact ⟨hcompletions, hend⟩

theorem rolls_of_matches {evs evs' : List Event}
    (h : List.Forall₂ (Event.Matches Twin) evs evs') : rolls evs' = rolls evs := by
  induction h with
  | nil => rfl
  | @cons ev ev' evs evs' hev _ ih =>
    have hone : rolls [ev'] = rolls [ev] := by
      cases hev with
      | completed before after =>
        simp only [rolls, completions, List.filterMap_cons, List.filterMap_nil, List.map_cons,
          List.map_nil, before.state, after.state]
      | failed | acted => rfl
    rw [rolls_cons, rolls_cons ev evs, hone, ih]

/-- Twins see the same rolls under the same calls, and also if more cycles fail on one side. -/
theorem Twin.rolls_eq (h : Twin m m') (hv : m.state.Valid) {calls calls' : List HostCall}
    (hcalls : effective (m'.events calls') = effective (m.events calls)) :
    rolls (m'.events calls') = rolls (m.events calls) ∧
      (m'.afterCalls calls').state = (m.afterCalls calls).state := by
  have hv' : m'.state.Valid := by
    rw [h.state]
    exact hv
  obtain ⟨hleft, hleftEnd⟩ := (steps_events calls m).retraced hv
  obtain ⟨hright, hrightEnd⟩ := (steps_events calls' m').retraced hv'
  rw [hcalls] at hright hrightEnd
  obtain ⟨hmatches, htwin⟩ :=
    ((Lockstep.of_alike Twin.cycle Twin.act).events (effective (m.events calls)) h).forall₂
  constructor
  · rw [← rolls_congr hright, rolls_of_matches hmatches, rolls_congr hleft]
  · rw [← hrightEnd, htwin.state, hleftEnd]

/-! ## Scripts -/

theorem next_script {b : Array UInt8} (hb : 0 < b.size) (k : Nat) :
    b[k % b.size]? = some (Random.Source.script b k).next.1 := by
  rw [Random.Source.next, Array.getD_eq_getD_getElem?,
    Array.getElem?_eq_getElem (Nat.mod_lt k hb), Option.getD_some]

/-- **The bytes of a script go to the rolls, one to each and in order.** Of the `CXNN` cycles that
complete under any calls, the one with `k` before it finds the script `k` bytes on, takes the next
byte even if `NN` lets nothing through, and leaves the byte AND `NN` in its register. Nothing else
that happens takes a byte, and at the end as many have been taken as rolls have completed. Two
machines that differ in their traces at most, and two hosts that make the same calls but for cycles
that fail, see the same rolls and come to the same state. -/
theorem chance_replayed {b : Array UInt8} {d : Nat} (hv : m.state.Valid)
    (hsource : m.state.random = .script b d) (hb : 0 < b.size) :
    (∀ calls k s s', (rolls (m.events calls))[k]? = some (s, s') →
      s.random = .script b (d + k) ∧ s'.random = .script b (d + k + 1) ∧
        ∃ v, b[(d + k) % b.size]? = some v ∧
          s'.reg (s.word / 0x100 % 0x10) = v &&& UInt8.ofNat (s.word % 0x100)) ∧
    (∀ calls, ∀ ev ∈ m.events calls, ev.isRoll = false →
      ev.after.state.random = ev.before.state.random) ∧
    (∀ calls, (m.afterCalls calls).state.random =
      .script b (d + (rolls (m.events calls)).length)) ∧
    ∀ m', Twin m m' → ∀ calls calls',
      effective (m'.events calls') = effective (m.events calls) →
        rolls (m'.events calls') = rolls (m.events calls) ∧
          (m'.afterCalls calls').state = (m.afterCalls calls).state := by
  refine ⟨?_, ?_, ?_, fun _ htwin _ _ hcalls => htwin.rolls_eq hv hcalls⟩
  · intro calls k s s' h
    obtain ⟨hfound, hrolled⟩ := (steps_events calls m).roll hv k s s' h
    rw [hsource, Random.Source.after_script] at hfound
    have hrandom := hrolled.random
    have hvalue := hrolled.value
    rw [hfound] at hrandom hvalue
    exact ⟨hfound, hrandom, _, next_script hb (d + k), hvalue⟩
  · exact fun calls ev hmem hroll => (steps_events calls m).random_of_mem hv hmem hroll
  · intro calls
    rw [(steps_events calls m).random_eq hv, hsource, Random.Source.after_script]

/-- A program that throws a byte away and keeps the lower half of the next. -/
def dice : Array UInt8 := #[0xC0, 0x00, 0xC1, 0x0F]

/-- A machine with two bytes to give. -/
def gambling : Machine := .new defaultTimerResolution .refuse false none (.ofBytes #[0x11, 0x2F])

def diced : Machine := { gambling with state := gambling.state.loaded dice }

theorem gambling_valid : gambling.state.Valid := initial_valid (.ofBytes #[0x11, 0x2F])

theorem dice_fits : dice.size ≤ maxProgramSize := by decide

theorem diced_valid : diced.state.Valid := loaded_valid gambling_valid dice_fits

theorem diced_word :
    diced.state.word = (Instruction.immediate .random 0 0x00).encode.word := by
  have hword : diced.state.word = 256 * 0xC0 + 0x00 :=
    word_loaded dice 0 gambling_valid.memory_size dice_fits (by decide) rfl rfl
  rw [hword]
  decide

theorem cycle_diced : cycle diced = .ok diced.entry? diced.next :=
  cycle_of_word diced_valid (by decide) diced_word rfl

theorem diced_next_valid : diced.next.state.Valid :=
  next_valid diced_valid (of_cycle_ok diced_valid cycle_diced).1

theorem diced_next :
    diced.next.state.memory = diced.state.memory ∧ diced.next.state.pc = 0x202 := by
  obtain ⟨_, _, _, _, heq⟩ := next_frame_of_word diced_word
  rw [heq]
  exact ⟨rfl, rfl⟩

theorem diced_next_word : diced.next.state.word = 0xC10F := by
  obtain ⟨hmem, hpc⟩ := diced_next
  exact word_loaded dice 2 gambling_valid.memory_size dice_fits (by decide) hmem hpc

theorem cycle_diced_next : cycle diced.next = .ok diced.next.entry? diced.next.next := by
  obtain ⟨-, hpc⟩ := diced_next
  have hword : diced.next.state.word = (Instruction.immediate .random 1 0x0F).encode.word := by
    rw [diced_next_word]
    decide
  refine cycle_of_word diced_next_valid ?_ hword ?_
  · rw [hpc]
    decide
  · show overrun? (diced.next.state.pc + 2) = none
    rw [hpc]
    rfl

/-- The second byte is drawn after a first of which nothing was kept. -/
theorem chance_replayed_diced : diced.next.next.state.reg 1 = 0x0F := by
  have hevents : diced.events [.cycle, .cycle] =
      [.completed diced diced.next, .completed diced.next diced.next.next] := by
    rw [events, callEvents_cycle cycle_diced, afterCall_cycle cycle_diced, events,
      callEvents_cycle cycle_diced_next, events]
    -- `rfl` would look for the answer in the machines
    simp only [List.cons_append, List.nil_append]
  have hsecond : (rolls (diced.events [.cycle, .cycle]))[1]? =
      some (diced.next.state, diced.next.next.state) := by
    have hfirstRoll : diced.state.isRoll = true := isRoll_of_random diced_word
    have hsecondRoll : diced.next.state.isRoll = true := by
      rw [isRoll, diced_next_word]
      decide
    rw [hevents]
    simp only [rolls, completions, List.filterMap_cons, List.filterMap_nil, List.map_cons,
      List.map_nil, List.filter_cons, hfirstRoll, hsecondRoll, if_true, List.getElem?_cons_succ,
      List.getElem?_cons_zero]
  obtain ⟨hrolls, -⟩ := chance_replayed diced_valid (b := #[0x11, 0x2F]) (d := 0) rfl (by decide)
  obtain ⟨-, -, v, hv, hvalue⟩ := hrolls _ 1 _ _ hsecond
  rw [diced_next_word] at hvalue
  cases hv
  exact hvalue

end Machine

end Chip8
