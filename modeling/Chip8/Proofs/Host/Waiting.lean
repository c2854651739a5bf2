import Chip8.Proofs.Host.Cadence
import Chip8.Proofs.Machine.Play

/-!
# Waiting for a key

A machine that has come to `FX0A` stays there until a key is held at the moment of a cycle. The host
moves keys between cycles, and what it presses and releases again before the next cycle the machine
never learns.

> **As long as no cycle finds a key, all cycles complete and nothing but time passes; the first
> that finds some takes the lowest, once, or fails because there is no place to go on at**
> (`Machine.waits_for_key`).

That the keys leave no trace is said by comparison. Keys apart, a machine that waits is the one that
the same number of cycles makes when all keys are released at the start and never touched.
-/

set_option autoImplicit false

namespace Chip8

open State Outcome

/-! ## Calls that move keys -/

def HostAct.movesKeys : HostAct → Bool
  | .setKey _ _ | .releaseKeys => true
  | .load _ | .takeRedraw => false

/-- The call asks for cycles or moves keys. -/
def HostCall.movesKeys : HostCall → Bool
  | .act a => a.movesKeys
  | .cycle | .run _ => true

/-- The event is a cycle, or the host has moved keys. -/
def Event.movesKeys : Event → Bool
  | .acted a _ _ => a.movesKeys
  | .completed _ _ | .failed _ _ _ => true

/-- The event is no cycle that finds a key held. -/
def Event.Keyless : Event → Prop
  | .completed m _ | .failed _ m _ => ∀ j, m.state.held j = false
  | .acted _ _ _ => True

/-! ## The lowest key -/

namespace State

variable {s : State} {k : Nat}

/-- The key with the lowest number of those that are held. -/
structure LowestHeld (s : State) (k : Nat) : Prop where
  held : s.held k = true
  lowest : ∀ j < k, s.held j = false

theorem held_of_lt (h : k < s.keys.size) : s.held k = s.keys[k] := by
  rw [held, Array.getD_eq_getD_getElem?, Array.getElem?_eq_getElem h, Option.getD_some]

theorem held_of_le (h : s.keys.size ≤ k) : s.held k = false := by
  rw [held, Array.getD_eq_getD_getElem?, Array.getElem?_eq_none h, Option.getD_none]

theorem lowestHeld_of_heldKey? (h : s.heldKey? = some k) : s.LowestHeld k := by
  obtain ⟨hk, hheld, hlowest⟩ := Array.findIdx?_eq_some_iff_getElem.mp h
  refine ⟨(held_of_lt hk).trans hheld, fun j hj => ?_⟩
  rw [held_of_lt (Nat.lt_trans hj hk)]
  exact Bool.eq_false_iff.mpr (hlowest j hj)

theorem held_of_heldKey?_none (h : s.heldKey? = none) (j : Nat) : s.held j = false := by
  have hall := Array.findIdx?_eq_none_iff.mp h
  rcases Nat.lt_or_ge j s.keys.size with hj | hj
  · rw [held_of_lt hj]
    exact hall s.keys[j] (Array.getElem_mem hj)
  · exact held_of_le hj

theorem LowestHeld.unique {j : Nat} (hj : s.LowestHeld j) (hk : s.LowestHeld k) : j = k := by
  rcases Nat.lt_trichotomy j k with hlt | heq | hlt
  · exact absurd hj.held (by simp [hk.lowest j hlt])
  · exact heq
  · exact absurd hk.held (by simp [hj.lowest k hlt])

theorem heldKey?_of_not_held (h : ∀ j, s.held j = false) : s.heldKey? = none := by
  cases hk : s.heldKey? with
  | none => rfl
  | some k =>
    have hheld := (lowestHeld_of_heldKey? hk).held
    rw [h k] at hheld
    exact absurd hheld (by decide)

theorem heldKey?_of_lowestHeld (h : s.LowestHeld k) : s.heldKey? = some k := by
  cases hj : s.heldKey? with
  | none =>
    have hheld := h.held
    rw [held_of_heldKey?_none hj k] at hheld
    exact absurd hheld (by decide)
  | some j => rw [(lowestHeld_of_heldKey? hj).unique h]

theorem any_keys_eq (s : State) : s.keys.any id = s.heldKey?.isSome := by
  cases hk : s.heldKey? with
  | none => exact heldKey?_none hk
  | some k => exact (heldKey?_some hk).1

end State

namespace Machine

variable {m m' w : Machine} {x : Nibble} {k : Nat}

/-! ## Time -/

/-- Nothing has changed but what cycles count: the timers, the two counters and the trace. -/
def TimePassed (m m' : Machine) : Prop :=
  ∃ (trace : Trace) (delay sound since count : Int),
    m' = { m with
      trace := trace
      state := { m.state with
        delayTimer := delay, soundTimer := sound, sinceTick := since, cycleCount := count } }

def withKeys (m : Machine) (keys : Array Bool) : Machine :=
  { m with state := { m.state with keys := keys } }

/-- Keys apart, nothing has changed but what cycles count. -/
def Waited (m m' : Machine) : Prop := ∃ keys, (m.withKeys keys).TimePassed m'

theorem timePassed_count (m : Machine) : m.TimePassed m.count := by
  unfold count tickTimers countCycle
  split
  · exact ⟨_, _, _, _, _, rfl⟩
  · exact ⟨_, _, _, _, _, rfl⟩

theorem timePassed_next (m : Machine) : m.carried.TimePassed m.next := by
  obtain ⟨_, _, _, _, _, heq⟩ := timePassed_count m.carried
  unfold next
  rw [heq]
  cases m.tracing with
  | false => exact ⟨_, _, _, _, _, rfl⟩
  | true => exact ⟨_, _, _, _, _, rfl⟩

theorem Waited.refl (m : Machine) : m.Waited m := ⟨_, _, _, _, _, _, rfl⟩

theorem Waited.trans (h : m.Waited w) (h' : w.Waited m') : m.Waited m' := by
  obtain ⟨_, _, _, _, _, _, rfl⟩ := h
  obtain ⟨_, _, _, _, _, _, rfl⟩ := h'
  exact ⟨_, _, _, _, _, _, rfl⟩

theorem TimePassed.waited (h : m.TimePassed m') : m.Waited m' := ⟨m.state.keys, h⟩

theorem waited_withKeys (m : Machine) (keys : Array Bool) : m.Waited (m.withKeys keys) :=
  ⟨keys, _, _, _, _, _, rfl⟩

/-! ## A machine that waits -/

/-- The machine stands at `FX0A`. -/
structure AwaitsKey (x : Nibble) (m : Machine) : Prop where
  valid : m.state.Valid
  pc_le : m.state.pc ≤ 4094
  word_eq : m.state.word = 0xF00A + 0x100 * x.val

/-- The machine behind the wait, with a key's number in the register. -/
def taken (m : Machine) (x : Nibble) (k : Nat) : Machine :=
  { m with state := { m.state.setReg x (UInt8.ofNat k) with pc := m.state.pc + 2 } }

namespace AwaitsKey

theorem instruction? (h : AwaitsKey x m) :
    m.state.instruction? = some (.register .waitKey x) := by
  have hcode : (Instruction.register .waitKey x).encode.word = 0xF00A + 0x100 * x.val := by
    rw [Instruction.encode, Opcode.word_ofImmediate]
    exact Nat.add_right_comm 0xF000 (0x100 * x.val) 0x0A
  exact instruction?_iff_word.mpr (h.word_eq.trans hcode.symm)

theorem fault?_eq (h : AwaitsKey x m) :
    m.fault? = if m.state.heldKey?.isSome then overrun? (m.state.pc + 2) else none := by
  rw [fault?_of_instruction h.pc_le h.instruction?, Instruction.fault?, any_keys_eq]

theorem carried_of_none (h : AwaitsKey x m) (hk : m.state.heldKey? = none) : m.carried = m := by
  rw [carried_of_instruction h.instruction?, Instruction.effect, Instruction.write,
    RegisterOp.write, Instruction.target, any_keys_eq, hk]
  rfl

theorem carried_of_some (h : AwaitsKey x m) (hk : m.state.heldKey? = some k) :
    m.carried = m.taken x k := by
  rw [carried_of_instruction h.instruction?, Instruction.effect, Instruction.write,
    RegisterOp.write, Instruction.target, any_keys_eq, hk]
  dsimp only
  rw [byteOf_natCast]
  rfl

theorem of_waited (h : AwaitsKey x m) (hw : m.Waited m') (hv : m'.state.Valid) :
    AwaitsKey x m' := by
  obtain ⟨_, _, _, _, _, _, rfl⟩ := hw
  exact ⟨hv, h.pc_le, h.word_eq⟩

theorem withKeys (h : AwaitsKey x m) {keys : Array Bool} (hsize : keys.size = keyCount) :
    AwaitsKey x (m.withKeys keys) :=
  h.of_waited (waited_withKeys m keys) { h.valid with keys_size := hsize }

theorem releaseKeys (h : AwaitsKey x m) : AwaitsKey x m.releaseKeys :=
  h.withKeys Array.size_replicate

/-- A cycle that finds no key completes, and only time passes. -/
theorem cycle_of_none (h : AwaitsKey x m) (hk : m.state.heldKey? = none) :
    cycle m = .ok m.entry? m.next ∧ m.TimePassed m.next := by
  have hpassed := timePassed_next m
  rw [h.carried_of_none hk] at hpassed
  have hfault : m.fault? = none := by
    rw [h.fault?_eq, hk]
    rfl
  exact ⟨by rw [cycle_eq h.valid, hfault, settled_none], hpassed⟩

end AwaitsKey

theorem releaseKeys_count (m : Machine) : m.releaseKeys.count = m.count.releaseKeys := by
  by_cases hlt : m.state.sinceTick + 1 < m.timerResolution
  · simp only [count, tickTimers, releaseKeys, hlt, if_true]
    rfl
  · simp only [count, tickTimers, releaseKeys, hlt, if_false]
    rfl

theorem releaseKeys_heldKey? (m : Machine) : m.releaseKeys.state.heldKey? = none := by
  refine Array.findIdx?_eq_none_iff.mpr fun held hmem => ?_
  obtain ⟨-, rfl⟩ := Array.mem_replicate.mp hmem
  rfl

/-- With all keys released it is the same cycle. -/
theorem AwaitsKey.releaseKeys_next (h : AwaitsKey x m) (hk : m.state.heldKey? = none) :
    m.releaseKeys.next = m.next.releaseKeys := by
  have hcarried := h.carried_of_none hk
  have hcarried' := h.releaseKeys.carried_of_none m.releaseKeys_heldKey?
  have hentry : m.releaseKeys.entry = m.entry := by
    rw [entry, entry, hcarried, hcarried', releaseKeys_count]
    rfl
  rw [next, next, hentry, hcarried, hcarried', releaseKeys_count]
  exact (apply_ite Machine.releaseKeys (m.tracing = true) (record m.entry m.count) m.count).symm

/-! ## Histories -/

/-- What can happen to a machine that stands at `FX0A`. -/
inductive AtWait (x : Nibble) : Event → Prop
  /-- The host moves keys. -/
  | moved (a : HostAct) (m : Machine) (keys : Array Bool) : AtWait x (.acted a m (m.withKeys keys))
  /-- No key is held, and the machine stays where it is. -/
  | rested {m m' : Machine} (hnone : ∀ j, m.state.held j = false) (hpassed : m.TimePassed m') :
      AtWait x (.completed m m')
  /-- The lowest key is taken, and the machine goes on. -/
  | took {m m' : Machine} {k : Nat} (hk : m.state.LowestHeld k) (hroom : m.state.pc + 2 < 4096)
      (hpassed : (m.taken x k).TimePassed m') : AtWait x (.completed m m')
  /-- There is a key to be taken, and no place to go on at. -/
  | stuck {m : Machine} {k : Nat} (hk : m.state.LowestHeld k) (hend : 4096 ≤ m.state.pc + 2) :
      AtWait x (.failed (.fault (.pcOutOfRange (m.state.pc + 2))) m m)

/-- A cycle that finds a key and completes has taken the lowest. -/
theorem AtWait.taken (h : AtWait x (.completed m m')) (hk : m.state.LowestHeld k) :
    (m.taken x k).TimePassed m' := by
  cases h with
  | rested hnone =>
    have hheld := hk.held
    rw [hnone k] at hheld
    exact absurd hheld (by decide)
  | took hj _ hpassed =>
    rw [hk.unique hj]
    exact hpassed

theorem AwaitsKey.act (h : AwaitsKey x m) {a : HostAct} (ha : a.movesKeys = true) :
    ∃ keys, keys.size = keyCount ∧ left (a.action m) = m.withKeys keys := by
  cases a with
  | setKey pin held =>
    rw [HostAct.action]
    rcases setKey_frame h.valid pin held with hfail | ⟨keys, hsize, hset⟩
    · rw [hfail]
      exact ⟨m.state.keys, h.valid.keys_size, rfl⟩
    · rw [hset]
      exact ⟨keys, hsize, rfl⟩
  | releaseKeys => exact ⟨_, Array.size_replicate, rfl⟩
  | load | takeRedraw => cases ha

theorem Step.atWait {ev : Event} (hs : Step m ev m') (h : AwaitsKey x m)
    (hev : ev.movesKeys = true) : AtWait x ev := by
  cases hs with
  | acted a =>
    obtain ⟨keys, -, heq⟩ := h.act hev
    rw [heq]
    exact .moved a m keys
  | completed hc =>
    obtain ⟨hf, -, rfl⟩ := of_cycle_ok h.valid hc
    have hpassed := timePassed_next m
    cases hk : m.state.heldKey? with
    | none =>
      rw [h.carried_of_none hk] at hpassed
      exact .rested (held_of_heldKey?_none hk) hpassed
    | some k =>
      rw [h.carried_of_some hk] at hpassed
      rw [h.fault?_eq, hk] at hf
      exact .took (lowestHeld_of_heldKey? hk) (lt_of_overrun? hf) hpassed
  | failed hc =>
    obtain ⟨f, hf, rfl, hsame⟩ := of_cycle_error h.valid hc
    rw [h.fault?_eq] at hf
    rw [hsame]
    cases hk : m.state.heldKey? with
    | none =>
      rw [hk] at hf
      cases hf
    | some k =>
      rw [hk] at hf
      obtain ⟨hend, rfl⟩ := overrun?_eq_some.mp hf
      exact .stuck (lowestHeld_of_heldKey? hk) hend

/-- One event more, with the machine that has all keys released beside it. -/
theorem Step.waits {ev : Event} (hs : Step m ev m') (h : AwaitsKey x m)
    (hev : ev.movesKeys = true) (hkeyless : ev.Keyless) :
    m.Waited m' ∧ Completes (cyclesIn [ev]) m.releaseKeys m'.releaseKeys := by
  cases hs with
  | acted a =>
    obtain ⟨keys, -, heq⟩ := h.act hev
    rw [heq]
    exact ⟨waited_withKeys m keys, .zero _⟩
  | completed hc =>
    have hnone : m.state.heldKey? = none := heldKey?_of_not_held hkeyless
    obtain ⟨-, -, rfl⟩ := of_cycle_ok h.valid hc
    obtain ⟨hcycle, hpassed⟩ := h.cycle_of_none hnone
    obtain ⟨hcycle', -⟩ := h.releaseKeys.cycle_of_none m.releaseKeys_heldKey?
    rw [h.releaseKeys_next hnone] at hcycle'
    exact ⟨hpassed.waited, .succ hcycle' (.zero _)⟩
  | failed hc =>
    -- without a key there is nothing that could fail
    have hnone : m.state.heldKey? = none := heldKey?_of_not_held hkeyless
    rw [(h.cycle_of_none hnone).1] at hc
    cases hc

theorem Completes.trans {n n' : Nat} (h : Completes n m w) (h' : Completes n' w m') :
    Completes (n + n') m m' := by
  induction h with
  | zero =>
    rw [Nat.zero_add]
    exact h'
  | succ hc _ ih =>
    rw [Nat.succ_add]
    exact .succ hc (ih h')

/-- As long as no cycle finds a key, keys apart, nothing but time passes. -/
theorem Steps.waits {evs : List Event} (hs : Steps m evs m') (h : AwaitsKey x m)
    (hevs : ∀ ev ∈ evs, ev.movesKeys = true) (hkeyless : ∀ ev ∈ evs, ev.Keyless) :
    m.Waited m' ∧ Completes (cyclesIn evs) m.releaseKeys m'.releaseKeys := by
  induction hs with
  | nil m => exact ⟨.refl m, .zero _⟩
  | @cons m m₁ m' ev evs hstep _ ih =>
    obtain ⟨hev, hevs⟩ := List.forall_mem_cons.mp hevs
    obtain ⟨hnone, hkeyless⟩ := List.forall_mem_cons.mp hkeyless
    obtain ⟨hwaited, hcompletes⟩ := hstep.waits h hev hnone
    obtain ⟨hwaited', hcompletes'⟩ :=
      ih (h.of_waited hwaited (valid_step h.valid hstep)) hevs hkeyless
    rw [cyclesIn_cons]
    exact ⟨hwaited.trans hwaited', hcompletes.trans hcompletes'⟩

theorem movesKeys_runEvents (n : Nat) : ∀ m : Machine, ∀ ev ∈ runEvents n m,
    ev.movesKeys = true := by
  induction n with
  | zero => exact fun m => List.forall_mem_nil _
  | succ n ih =>
    intro m
    rw [runEvents]
    cases cycle m with
    | ok entry m' => exact List.forall_mem_cons.mpr ⟨rfl, ih m'⟩
    | error e m' => exact List.forall_mem_singleton.mpr rfl

theorem movesKeys_events (calls : List HostCall) : ∀ m : Machine,
    (∀ c ∈ calls, c.movesKeys = true) → ∀ ev ∈ m.events calls, ev.movesKeys = true := by
  induction calls with
  | nil => exact fun m _ => List.forall_mem_nil _
  | cons c calls ih =>
    intro m hcalls
    obtain ⟨hc, hcalls⟩ := List.forall_mem_cons.mp hcalls
    refine List.forall_mem_append.mpr ⟨?_, ih _ hcalls⟩
    cases c with
    | act a => exact List.forall_mem_singleton.mpr hc
    | cycle => exact movesKeys_runEvents 1 m
    | run n => exact movesKeys_runEvents n.toNat m

/-- **Waiting for a key.** A machine that stands at `FX0A` is given cycles, and its host moves keys
between them. As long as no cycle finds a key, nothing but time passes, whatever the keys were in
between. Of the next event, whichever it is, everything is said by `AtWait`. -/
theorem waits_for_key (h : AwaitsKey x m) {calls : List HostCall}
    (hcalls : ∀ c ∈ calls, c.movesKeys = true) :
    ((∀ ev ∈ m.events calls, ev.Keyless) →
      m.Waited (m.afterCalls calls) ∧
        Completes (cyclesIn (m.events calls)) m.releaseKeys (m.afterCalls calls).releaseKeys) ∧
    ∀ (before : List Event) (ev : Event) (after : List Event),
      m.events calls = before ++ ev :: after → (∀ e ∈ before, e.Keyless) →
      m.Waited ev.before ∧ Completes (cyclesIn before) m.releaseKeys ev.before.releaseKeys ∧
        AtWait x ev := by
  have hs := steps_events calls m
  have hevs := movesKeys_events calls m hcalls
  refine ⟨hs.waits h hevs, ?_⟩
  intro before ev after heq hkeyless
  rw [heq] at hs hevs
  obtain ⟨hbefore, hrest⟩ := List.forall_mem_append.mp hevs
  obtain ⟨hev, -⟩ := List.forall_mem_cons.mp hrest
  obtain ⟨w, hleft, hright⟩ := Steps.of_append before hs
  obtain ⟨w', hstep, -⟩ := hright.of_cons
  obtain ⟨hwaited, hcompletes⟩ := hleft.waits h hbefore hkeyless
  rw [hstep.before_eq]
  exact ⟨hwaited, hcompletes, hstep.atWait (h.of_waited hwaited (hleft.valid h.valid)) hev⟩

/-- A wait for a key in register 3. -/
def stalled : Machine := { standard with state := standard.state.loaded #[0xF3, 0x0A] }

theorem stalled_awaitsKey : AwaitsKey 3 stalled := by
  refine ⟨loaded_valid standard_valid (by decide), by decide, ?_⟩
  exact word_loaded #[0xF3, 0x0A] 0 standard_valid.memory_size (by decide) (by decide) rfl rfl

/-- The same with one key held, and with a second. -/
def stalledNine : Machine :=
  stalled.withKeys ((Array.replicate keyCount false).setIfInBounds 9 true)

def stalledBoth : Machine := stalledNine.withKeys (stalledNine.state.keys.setIfInBounds 5 true)

theorem stalledBoth_lowest : stalledBoth.state.LowestHeld 5 := ⟨rfl, by decide⟩

theorem cycle_stalledBoth : cycle stalledBoth = .ok stalledBoth.entry? stalledBoth.next := by
  have hwait : AwaitsKey 3 stalledBoth := (stalled_awaitsKey.withKeys rfl).withKeys rfl
  have hroom : stalledBoth.state.pc + 2 < memorySize := by decide
  have hfault : stalledBoth.fault? = none := by
    rw [hwait.fault?_eq, heldKey?_of_lowestHeld stalledBoth_lowest, Option.isSome_some, if_pos rfl,
      overrun?_of_room hroom]
  rw [cycle_eq hwait.valid, hfault, settled_none]

/-- Of two keys the lower is taken, though it was pressed last. -/
theorem waits_for_key_stalled :
    (stalled.afterCalls
      [.act (.setKey 9 true), .act (.setKey 5 true), .cycle]).state.pc = 0x202 ∧
    (stalled.afterCalls
      [.act (.setKey 9 true), .act (.setKey 5 true), .cycle]).state.reg 3 = 5 := by
  have hnine : stalled.afterCall (.act (.setKey 9 true)) = stalledNine := rfl
  have hboth : stalledNine.afterCall (.act (.setKey 5 true)) = stalledBoth := rfl
  have hafter : stalled.afterCalls [.act (.setKey 9 true), .act (.setKey 5 true), .cycle] =
      stalledBoth.next := by
    rw [afterCalls, List.foldl_cons, List.foldl_cons, List.foldl_cons, List.foldl_nil, hnine,
      hboth, afterCall_cycle cycle_stalledBoth]
  have hevents : stalled.events [.act (.setKey 9 true), .act (.setKey 5 true), .cycle] =
      [.acted (.setKey 9 true) stalled stalledNine,
        .acted (.setKey 5 true) stalledNine stalledBoth] ++
        .completed stalledBoth stalledBoth.next :: [] := by
    rw [events, events, events, hnine, hboth, callEvents_cycle cycle_stalledBoth]
    rfl
  obtain ⟨-, -, hlast⟩ := (waits_for_key stalled_awaitsKey (by decide)).2 _ _ [] hevents
    (by simp [Event.Keyless])
  obtain ⟨_, _, _, _, _, htaken⟩ := hlast.taken stalledBoth_lowest
  rw [hafter, htaken]
  exact ⟨rfl, rfl⟩

end Machine

end Chip8
