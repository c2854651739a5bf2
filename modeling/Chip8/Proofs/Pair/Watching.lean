import Chip8.Machine.Summary
import Chip8.Screen.Render
import Chip8.Proofs.Pair.Tandem

/-!
# Watching a machine does not disturb it

A host can have a trace kept or not, with any limit, and can look at the machine whenever no cycle
is under way. What the program does is the same with all of that and without. Of the machine only
the trace knows of it, and a cycle never reads the trace (`Twin.cycle`).

Nothing is asked of the state here. It need not be valid: a machine that a host has broken behaves
the same whether it is watched or not.
-/

set_option autoImplicit false

namespace Chip8

open Outcome

/-- What a host does to see how the machine is. -/
inductive Watch
  /-- From now on cycles are added to the trace, or not. -/
  | switch (tracing : Bool)
  | snapshot
  | registers
  | summary
  | trace
  | pixels
  /-- The screen as text, with a text for each of the two kinds of pixels. -/
  | picture (on off : String)

/-- What the host gets to see. -/
inductive View
  | nothing
  | snapshot (s : Snapshot)
  | registers (values : List (String × UInt8))
  | summary (s : Summary)
  | trace (text : String)
  | pixels (ps : Array Bool)
  | picture (text : Except Screen.RenderError String)

def Watch.action : Watch → Machine.Action View
  | .switch tracing => do
    modify fun m => { m with tracing := tracing }
    return .nothing
  | .snapshot => do return .snapshot (← get).state.snapshot
  | .registers => do return .registers (← get).state.dumpRegisters
  | .summary => do return .summary (← get).summary
  | .trace => do return .trace (← get).trace.text
  | .pixels => do return .pixels (← get).state.pixels
  | .picture on off => do return .picture (Screen.text (← get).state.pixels on off)

namespace Machine

/-- The machine after a look at it. -/
def watched (k : Watch) (m : Machine) : Machine := left (k.action m)

variable {m m' : Machine}

/-- Two machines that differ in their traces at most, and in whether they keep one. -/
structure Twin (m m' : Machine) : Prop where
  state : m'.state = m.state
  timerResolution : m'.timerResolution = m.timerResolution
  onInvalid : m'.onInvalid = m.onInvalid
  skips : m'.skips = m.skips

theorem Twin.onState {α : Type} (h : Twin m m') (act : State.Action α) :
    Alike Eq Twin (onState act m) (onState act m') := by
  refine Alike.onState (S := Eq) ?_ ?_
  · rw [h.state]
    exact .refl _
  · rintro s _ rfl
    exact { h with state := rfl }

theorem Twin.stepOver (h : Twin m m') (opcode : Opcode) (reason : InvalidReason) :
    Alike Eq Twin (stepOver opcode reason m) (stepOver opcode reason m') := by
  unfold Machine.stepOver
  rw [bind_of_ok (get_apply m), bind_of_ok (get_apply m'), h.onInvalid, h.state]
  cases m.onInvalid with
  | refuse => exact .error _ h
  | skip =>
    refine (h.onState _).bind ?_
    intro _ _ t t' _ ht
    exact .ok rfl { ht with skips := congrArg (·.push ⟨opcode, reason⟩) ht.skips }

theorem Twin.carryOut (h : Twin m m') (opcode : Opcode) :
    Alike Eq Twin (carryOut opcode m) (carryOut opcode m') := by
  unfold Machine.carryOut
  cases opcode.decode with
  | ok i =>
    refine (h.onState _).bind ?_
    intro _ _ t t' _ ht
    exact .ok rfl ht
  | error reason =>
    refine (h.stepOver opcode reason).bind ?_
    rintro s _ t t' rfl ht
    exact .ok rfl ht

theorem Twin.count (h : Twin m m') : Twin m.count m'.count :=
  { h with state := by rw [Machine.count, Machine.count, h.state, h.timerResolution] }

theorem Twin.record (h : Twin m m') (e e' : TraceEntry) : Twin (record e m) (record e' m') :=
  { h with }

/-- A cycle looks at whether a trace is kept when nothing is left to do but to add to it. -/
theorem Twin.cycle (h : Twin m m') :
    Alike (fun _ _ => True) Twin (cycle m) (cycle m') := by
  unfold Machine.cycle
  rw [bind_of_ok (get_apply m), bind_of_ok (get_apply m')]
  refine (h.onState State.fetch).bind ?_
  rintro opcode _ t t' rfl ht
  refine (ht.carryOut opcode).bind ?_
  rintro skipped _ t t' rfl ht
  have hcount := ht.count
  rw [bind_of_ok (modify_apply Machine.count t), bind_of_ok (modify_apply Machine.count t'),
    bind_of_ok (get_apply t.count), bind_of_ok (get_apply t'.count)]
  split
  · split
    · exact .ok trivial (hcount.record _ _)
    · exact .ok trivial { hcount with }
  · split
    · exact .ok trivial { hcount with }
    · exact .ok trivial hcount

theorem Twin.act (h : Twin m m') (a : HostAct) : Alike Eq Twin (a.action m) (a.action m') := by
  rw [a.action_eq, a.action_eq]
  exact h.onState a.onState

theorem Twin.symm (h : Twin m m') : Twin m' m :=
  ⟨h.state.symm, h.timerResolution.symm, h.onInvalid.symm, h.skips.symm⟩

theorem Twin.watched (h : Twin m m') (k : Watch) : Twin (watched k m) m' := by
  cases k with
  | switch => exact { h with }
  | snapshot | registers | summary | trace | pixels | picture => exact h

/-- **Watching a machine does not disturb it.** Two machines with the same state, the same notes and
the same settings, of which one may keep a trace and the other not, or one with another limit, are
given the same calls by two hosts, each of which watches its machine in its own way and as often as
it likes. The machines match in every cycle and every act, with the same errors, and all the way
they have the same state, random source included, and the same notes. -/
theorem watching_neutral {m m' : Machine} (hstate : m'.state = m.state)
    (hresolution : m'.timerResolution = m.timerResolution) (hpolicy : m'.onInvalid = m.onInvalid)
    (hskips : m'.skips = m.skips) (ms ms' : List (Move Watch))
    (hcalls : sharedCalls ms = sharedCalls ms') :
    List.Forall₂ (Event.Matches Twin) (m.moveEvents watched ms) (m'.moveEvents watched ms') ∧
      Twin (m.afterMoves watched ms) (m'.afterMoves watched ms') := by
  have hlock := Lockstep.of_alike Twin.cycle Twin.act
  have hright : ∀ {m m'}, Twin m m' → ∀ k, Twin m (Machine.watched k m') :=
    fun h k => (h.symm.watched k).symm
  exact (hlock.moves Twin.watched hright hcalls ⟨hstate, hresolution, hpolicy, hskips⟩).forall₂

/-- A machine that keeps the last entry of its trace. -/
def watchful : Machine := .new defaultTimerResolution .refuse true (some 1) (.ofBytes #[])

/-- A byte is drawn. -/
def drawing : List (Move Watch) := [.shared (.act (.load #[0xC0, 0xFF])), .shared .cycle]

/-- The same, by a host that looks at the machine and tells it to keep no trace. -/
def lookingAndDrawing : List (Move Watch) := .own .summary :: .own (.switch false) :: drawing

theorem watching_neutral_watchful :
    (watchful.afterMoves watched lookingAndDrawing).state =
      (standard.afterMoves watched drawing).state := by
  have hstate : watchful.state = standard.state := rfl
  have hcalls : sharedCalls drawing = sharedCalls lookingAndDrawing := rfl
  exact (watching_neutral hstate rfl rfl rfl drawing lookingAndDrawing hcalls).2.state

end Machine

end Chip8
