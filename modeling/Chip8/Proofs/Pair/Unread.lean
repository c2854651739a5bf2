import Chip8.Proofs.Pair.Lookalike

/-!
# What a program cannot read

A program sets the sound timer, marks the screen as changed, makes the count of cycles grow, and
leaves return addresses behind when it goes back. It reads none of that. `State.ReadAlike` lists all
the rest, and two machines that agree on the rest do so for good, whatever program is in memory and
whatever their hosts call. Each host may ask for the mark on the screen as often as it likes, though
asking takes the mark away.
-/

set_option autoImplicit false

namespace Chip8

open State

/-- What no program can read. -/
def unread : Blur where
  stack := true
  redraw := true
  soundTimer := true
  cycleCount := true

/-- The states agree on everything that a program can read. -/
structure State.ReadAlike (s t : State) : Prop where
  memory : t.memory = s.memory
  registers : t.registers = s.registers
  index : t.index = s.index
  pc : t.pc = s.pc
  sp : t.sp = s.sp
  /-- The entries of the stack below the pointer. -/
  inUse : t.stack.toList.take s.sp.toNat = s.stack.toList.take s.sp.toNat
  delayTimer : t.delayTimer = s.delayTimer
  keys : t.keys = s.keys
  pixels : t.pixels = s.pixels
  sinceTick : t.sinceTick = s.sinceTick
  random : t.random = s.random

theorem unread_same_iff {s t : State} : unread.Same s t ↔ s.ReadAlike t := by
  constructor
  · intro h
    have hinUse := h.inUse
    rw [inUse, inUse, h.sp] at hinUse
    exact ⟨h.memory, h.registers, h.index rfl, h.pc, h.sp, hinUse, h.delayTimer, h.keys rfl,
      h.pixels, h.sinceTick, h.random⟩
  · intro h
    have hinUse : t.inUse = s.inUse := by
      rw [inUse, inUse, h.sp]
      exact h.inUse
    exact {
      memory := h.memory
      registers := h.registers
      index_mod := by rw [h.index]
      index := fun _ => h.index
      pc := h.pc
      sp := h.sp
      inUse := hinUse
      stack := fun hb => absurd hb (by decide)
      delayTimer := h.delayTimer
      soundTimer := fun hb => absurd hb (by decide)
      keys := fun _ => h.keys
      pixels := h.pixels
      sinceTick := h.sinceTick
      redraw := fun hb => absurd hb (by decide)
      cycleCount := fun hb => absurd hb (by decide)
      random := h.random }

namespace Machine

/-- Two valid machines with the same settings that agree on everything a program can read. -/
structure ReadAlike (m m' : Machine) : Prop where
  valid : m.state.Valid
  valid' : m'.state.Valid
  state : m.state.ReadAlike m'.state
  timerResolution : m'.timerResolution = m.timerResolution
  onInvalid : m'.onInvalid = m.onInvalid

variable {m m' : Machine}

theorem readAlike_eq : ReadAlike = Lookalike unread := by
  funext m m'
  apply propext
  constructor
  · intro h
    exact ⟨h.valid, h.valid', unread_same_iff.mpr h.state, h.timerResolution, h.onInvalid⟩
  · intro h
    exact ⟨h.valid, h.valid', unread_same_iff.mp h.same, h.timerResolution, h.onInvalid⟩

/-- The machine after the host has asked for the mark on the screen. -/
def asked (_ : Unit) (m : Machine) : Machine := left (takeRedraw m)

theorem asked_valid (hv : m.state.Valid) (k : Unit) : (asked k m).state.Valid := { hv with }

theorem Lookalike.asked_left (h : Lookalike unread m m') (k : Unit) :
    Lookalike unread (asked k m) m' :=
  { h with
    valid := asked_valid h.valid k
    same := { h.same with redraw := fun hb => absurd hb (by decide) } }

theorem Lookalike.asked_right (h : Lookalike unread m m') (k : Unit) :
    Lookalike unread m (asked k m') :=
  { h with
    valid' := asked_valid h.valid' k
    same := { h.same with redraw := fun hb => absurd hb (by decide) } }

/-- **What a program cannot read has no part in what it does.** Two valid machines may differ in the
sound timer, the mark on the screen, the count of cycles and the entries of the stack that are not
in use. Given the same calls, with the mark asked for on either side as often as one likes, they
match in every cycle and every act, with the same errors, and agree on the rest all the way. -/
theorem unread_neutral (h : ReadAlike m m') (ms ms' : List (Move Unit))
    (hcalls : sharedCalls ms = sharedCalls ms') :
    List.Forall₂ (Event.Matches ReadAlike) (m.moveEvents asked ms) (m'.moveEvents asked ms') ∧
      ReadAlike (m.afterMoves asked ms) (m'.afterMoves asked ms') := by
  rw [readAlike_eq] at h ⊢
  have hlock := Lookalike.lockstep (b := unread) rfl
  exact (hlock.moves Lookalike.asked_left Lookalike.asked_right hcalls h).forall₂

/-- A machine that has been in use, as far as a program cannot tell. -/
def worn : Machine :=
  { standard with
    state :=
      { standard.state with
        stack := Array.replicate stackSize 0x300
        redraw := true
        soundTimer := 5
        cycleCount := 7 } }

theorem worn_valid : worn.state.Valid :=
  { standard_valid with
    stack_size := Array.size_replicate
    stack_mem := by
      intro a ha
      obtain ⟨-, rfl⟩ := Array.mem_replicate.mp ha
      decide
    soundTimer_mem := (by decide : (0 : Int) ≤ 5 ∧ (5 : Int) ≤ 0xFF)
    cycleCount_nonneg := (by decide : (0 : Int) ≤ 7) }

theorem standard_readAlike : ReadAlike standard worn :=
  ⟨standard_valid, worn_valid, ⟨rfl, rfl, rfl, rfl, rfl, rfl, rfl, rfl, rfl, rfl, rfl⟩, rfl, rfl⟩

/-- A call is loaded and carried out. -/
def calling : List (Move Unit) := [.shared (.act (.load #[0x22, 0x04])), .shared .cycle]

/-- The same, with the mark asked for. -/
def askingAndCalling : List (Move Unit) := .own () :: calling

theorem unread_neutral_worn :
    (worn.afterMoves asked askingAndCalling).state.pc =
      (standard.afterMoves asked calling).state.pc :=
  (unread_neutral standard_readAlike calling askingAndCalling rfl).2.state.pc

end Machine

end Chip8
