import Chip8.Proofs.Pair.Lookalike

/-!
# Of the index only the address counts

The index has sixteen bits, four more than an address of memory. Every access takes it modulo the
size of memory, one byte at a time, and the instruction that adds to it wraps at a multiple of that
size. Nothing compares the index with anything, and nothing jumps to it. So

> **two indices that make the same address are the same to every program**
> (`Machine.highBits_neutral`),

for the rest of the run and whatever the host calls. A machine may as well drop the four bits:
`Machine.narrowCycle` is a cycle of one that does, and it is the cycle of the machine that keeps
them, seen through `Machine.narrow`.
-/

set_option autoImplicit false

namespace Chip8

open State Outcome

def highBits : Blur where
  index := true

/-- The states are equal in every field but the index, and the two indices make the same address. -/
structure State.SameAddress (s t : State) : Prop where
  rest : t = { s with index := t.index }
  index_mod : t.index % memorySize = s.index % memorySize

theorem highBits_same_iff {s t : State} : highBits.Same s t ↔ s.SameAddress t := by
  constructor
  · intro h
    -- of the fields that a blur can speak of, this one leaves all but the index as they are
    have hrest := h.eq_with
    rw [h.stack rfl, h.soundTimer rfl, h.keys rfl, h.redraw rfl, h.cycleCount rfl] at hrest
    exact ⟨hrest, h.index_mod⟩
  · rintro ⟨hrest, hmod⟩
    rw [hrest]
    exact { Blur.Same.refl highBits s with
      index_mod := hmod
      index := fun hb => absurd hb (by decide) }

namespace Machine

/-- Two valid machines with the same settings that agree on everything but the bits of the index
above an address. -/
structure SameAddress (m m' : Machine) : Prop where
  valid : m.state.Valid
  valid' : m'.state.Valid
  state : m.state.SameAddress m'.state
  timerResolution : m'.timerResolution = m.timerResolution
  onInvalid : m'.onInvalid = m.onInvalid

variable {m m' : Machine}

theorem sameAddress_eq : SameAddress = Lookalike highBits := by
  funext m m'
  apply propext
  constructor
  · intro h
    exact ⟨h.valid, h.valid', highBits_same_iff.mpr h.state, h.timerResolution, h.onInvalid⟩
  · intro h
    exact ⟨h.valid, h.valid', highBits_same_iff.mp h.same, h.timerResolution, h.onInvalid⟩

/-! ## A machine that keeps no more than an address -/

/-- The machine with its index cut to an address. -/
def narrow (m : Machine) : Machine :=
  { m with state := { m.state with index := m.state.index % memorySize } }

/-- A cycle of a machine whose index has no more bits than an address. -/
def narrowCycle : Machine.Action Unit := do
  let _ ← cycle
  modify narrow

def narrowRun : Nat → Machine.Action Unit
  | 0 => pure ()
  | n + 1 => do
    narrowCycle
    narrowRun n

end Machine

/-- The same call to a machine whose index has no more bits than an address. -/
def HostCall.narrowAction : HostCall → Machine.Action Unit
  | .act a => a.action
  | .cycle => Machine.narrowRun 1
  | .run n => Machine.narrowRun n.toNat

namespace Machine

def afterNarrowCalls (m : Machine) (calls : List HostCall) : Machine :=
  calls.foldl (fun w c => left (c.narrowAction w)) m

/-- The second machine keeps the address that the first machine's index makes, and agrees on the
rest. -/
structure Narrows (m m' : Machine) : Prop where
  alike : Lookalike highBits m m'
  index_mem : 0 ≤ m'.state.index ∧ m'.state.index < memorySize

variable {m m' : Machine}

theorem Narrows.state (h : Narrows m m') : m'.state = m.narrow.state := by
  obtain ⟨hrest, hmod⟩ := highBits_same_iff.mp h.alike.same
  have hindex : m'.state.index = m.state.index % memorySize := by
    rw [← hmod, Int.emod_eq_of_lt h.index_mem.1 h.index_mem.2]
  rw [hrest, hindex]
  rfl

theorem Lookalike.narrow (h : Lookalike highBits m m') : Narrows m m'.narrow := by
  have hmem : 0 ≤ m'.narrow.state.index ∧ m'.narrow.state.index < memorySize :=
    ⟨Int.emod_nonneg _ (by decide), Int.emod_lt_of_pos _ (by decide)⟩
  have hwide : 0 ≤ m'.narrow.state.index ∧ m'.narrow.state.index ≤ 0xFFFF := by
    obtain ⟨hnonneg, hlt⟩ := hmem
    simp only [memorySize] at hlt
    omega
  -- an index that has been cut makes the address that it made before
  have hmod : m'.narrow.state.index % memorySize = m.state.index % memorySize :=
    (Int.emod_emod_of_dvd _ (Int.dvd_refl _)).trans h.same.index_mod
  refine ⟨?_, hmem⟩
  exact { h with
    valid' := { h.valid' with index_mem := hwide }
    same := { h.same with index_mod := hmod, index := fun hb => absurd hb (by decide) } }

/-- The index is cut after a cycle that completes; one that fails has left it as it was. -/
theorem Narrows.cycle (h : Narrows m m') :
    Alike (fun _ _ => True) Narrows (Machine.cycle m) (narrowCycle m') := by
  have hkeys := h.alike.keysAlike rfl
  rw [narrowCycle, bind_apply, cycle_eq h.alike.valid, cycle_eq h.alike.valid',
    h.alike.fault? hkeys]
  cases hf : m.fault? with
  | some f => exact .error _ h
  | none => exact .ok trivial (h.alike.next hkeys hf).narrow

theorem Narrows.run (n : Nat) : ∀ {m m' : Machine}, Narrows m m' →
    Alike Eq Narrows (Machine.run n m) (narrowRun n m') := by
  induction n with
  | zero =>
    intro m m' h
    exact .ok rfl h
  | succ n ih =>
    intro m m' h
    rw [Machine.run, narrowRun]
    refine h.cycle.bind ?_
    intro _ _ w w' _ hw
    exact ih hw

/-- A host cannot reach the index. -/
theorem Narrows.act (h : Narrows m m') (a : HostAct) :
    Alike Eq Narrows (a.action m) (a.action m') := by
  refine (h.alike.act a).mono fun halike => ⟨halike, ?_⟩
  obtain ⟨memory, keys, -, -, heq⟩ := act_frame h.alike.valid' a
  rw [heq]
  exact h.index_mem

theorem Narrows.call (h : Narrows m m') (c : HostCall) :
    Alike Eq Narrows (c.action m) (c.narrowAction m') := by
  cases c with
  | act a => exact h.act a
  | cycle => exact Narrows.run 1 h
  | run n => exact Narrows.run n.toNat h

theorem Narrows.calls (calls : List HostCall) : ∀ {m m' : Machine}, Narrows m m' →
    Narrows (m.afterCalls calls) (m'.afterNarrowCalls calls) := by
  induction calls with
  | nil =>
    intro m m' h
    exact h
  | cons c calls ih =>
    intro m m' h
    exact ih (h.call c).left

/-- **Of the index only the address counts.** Two valid machines that agree on all but the bits of
the index above an address, given the same calls, match in every cycle and every act, with the same
errors, and agree that far all the way. A machine that drops these bits after every cycle also
answers every call in the same way, with the same errors, and its state is that of the other machine
with the index cut to an address. -/
theorem highBits_neutral (h : SameAddress m m') (calls : List HostCall) :
    (List.Forall₂ (Event.Matches SameAddress) (m.events calls) (m'.events calls) ∧
      SameAddress (m.afterCalls calls) (m'.afterCalls calls)) ∧
    ∀ c : HostCall, Alike Eq (fun w w' => w'.state = w.narrow.state)
      (c.action (m.afterCalls calls)) (c.narrowAction (m'.narrow.afterNarrowCalls calls)) := by
  rw [sameAddress_eq] at h ⊢
  constructor
  · exact ((Lookalike.lockstep (b := highBits) rfl).events calls h).forall₂
  · intro c
    exact ((Narrows.calls calls h.narrow).call c).mono Narrows.state

/-- A machine with the last index there is. -/
def atLastIndex : Machine := { standard with state := { standard.state with index := 0xFFFF } }

/-- A machine with the last index that is an address. -/
def atLastAddress : Machine := { standard with state := { standard.state with index := 0x0FFF } }

theorem atLastIndex_valid : atLastIndex.state.Valid :=
  { standard_valid with
    index_mem := (by decide : (0 : Int) ≤ 0xFFFF ∧ (0xFFFF : Int) ≤ 0xFFFF) }

theorem atLastAddress_valid : atLastAddress.state.Valid :=
  { standard_valid with
    index_mem := (by decide : (0 : Int) ≤ 0x0FFF ∧ (0x0FFF : Int) ≤ 0xFFFF) }

theorem sameAddress_atLast : SameAddress atLastIndex atLastAddress :=
  ⟨atLastIndex_valid, atLastAddress_valid, ⟨rfl, by decide⟩, rfl, rfl⟩

/-- One is added to the index, which wraps on the first machine only, and then a number is stored at
the index. -/
def wrapping : List HostCall :=
  [.act (.load #[0x70, 0x01, 0xF0, 0x1E, 0xF0, 0x33]), .run 3]

theorem highBits_neutral_atLast :
    (atLastAddress.afterCalls wrapping).state.memory =
        (atLastIndex.afterCalls wrapping).state.memory ∧
      (left (HostCall.cycle.narrowAction (atLastAddress.narrow.afterNarrowCalls wrapping))).state =
        (left (HostCall.cycle.action (atLastIndex.afterCalls wrapping))).narrow.state := by
  obtain ⟨⟨-, hends⟩, hnarrow⟩ := highBits_neutral sameAddress_atLast wrapping
  exact ⟨(highBits_same_iff.mpr hends.state).memory, (hnarrow .cycle).left⟩

end Machine

end Chip8
