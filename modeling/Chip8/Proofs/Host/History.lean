import Chip8.Proofs.Machine.Failure

/-!
# Histories of a machine in the hands of a host

A host makes calls in any order: it runs cycles, and between them it loads programs, moves keys and
takes note of the screen. A call may fail, and the host goes on with the machine that the call has
left behind. `Machine.events` is what has happened in a sequence of calls, one event for each cycle
that was tried and for each thing that the host did itself. It is computed, so that a property of
whole histories can be said with it.

The proofs use the same as a relation. `Machine.Step` is one event, `Machine.Steps` a history, and
**what every event preserves holds at every point of every history** (`Steps.invariant`). The
invariant may depend on the history so far, by way of a value that each event brings up to date.
-/

set_option autoImplicit false

namespace Chip8

open State Outcome

/-! ## Calls -/

/-- What a host does itself, between cycles. -/
inductive HostAct
  | load (program : Array UInt8)
  | setKey (pin : Int) (held : Bool)
  | releaseKeys
  | takeRedraw

inductive HostCall
  | act (a : HostAct)
  | cycle
  /-- A number below zero is none. -/
  | run (cycles : Int)

def HostAct.action : HostAct → Machine.Action Unit
  | .load program => do let _ ← Machine.load program
  | .setKey pin held => Machine.setKey pin held
  | .releaseKeys => modify Machine.releaseKeys
  | .takeRedraw => do let _ ← Machine.takeRedraw

def HostCall.action : HostCall → Machine.Action Unit
  | .act a => a.action
  | .cycle => do let _ ← Machine.cycle
  | .run n => Machine.run n.toNat

/-- Where an action has ended, well or not. -/
def Machine.left {α : Type} : EStateM.Result Error Machine α → Machine
  | .ok _ m => m
  | .error _ m => m

/-- The machine after a call. -/
def Machine.afterCall (m : Machine) (c : HostCall) : Machine := left (c.action m)

def Machine.afterCalls (m : Machine) (calls : List HostCall) : Machine :=
  calls.foldl Machine.afterCall m

/-! ## Events -/

/-- What can happen to a machine, with the machine before and after. -/
inductive Event
  | completed (before after : Machine)
  | failed (e : Error) (before after : Machine)
  | acted (a : HostAct) (before after : Machine)

namespace Event

def before : Event → Machine
  | .completed m _ | .failed _ m _ | .acted _ m _ => m

def after : Event → Machine
  | .completed _ m | .failed _ _ m | .acted _ _ m => m

end Event

/-- The cycles that have completed, each as the machine before it and the machine after it. -/
def completions (evs : List Event) : List (Machine × Machine) :=
  evs.filterMap fun
    | .completed m m' => some (m, m')
    | .failed _ _ _ | .acted _ _ _ => none

theorem completions_cons (ev : Event) (evs : List Event) :
    completions (ev :: evs) = completions [ev] ++ completions evs := by
  cases ev with
  | completed | failed | acted => rfl

namespace Machine

/-- The cycles of a run: all that were asked for, or as many as there were up to one that failed. -/
def runEvents : Nat → Machine → List Event
  | 0, _ => []
  | n + 1, m =>
    match cycle m with
    | .ok _ m' => .completed m m' :: runEvents n m'
    | .error e m' => [.failed e m m']

def callEvents (m : Machine) : HostCall → List Event
  | .act a => [.acted a m (left (a.action m))]
  | .cycle => runEvents 1 m
  | .run n => runEvents n.toNat m

/-- What happens in a sequence of calls. -/
def events (m : Machine) : List HostCall → List Event
  | [] => []
  | c :: calls => m.callEvents c ++ (m.afterCall c).events calls

/-! ## Histories as a relation -/

/-- One event takes one machine to another. -/
inductive Step : Machine → Event → Machine → Prop
  | completed {m m' : Machine} {entry : Option TraceEntry} (h : cycle m = .ok entry m') :
      Step m (.completed m m') m'
  | failed {m m' : Machine} {e : Error} (h : cycle m = .error e m') : Step m (.failed e m m') m'
  | acted (a : HostAct) (m : Machine) : Step m (.acted a m (left (a.action m))) (left (a.action m))

inductive Steps : Machine → List Event → Machine → Prop
  | nil (m : Machine) : Steps m [] m
  | cons {m m₁ m' : Machine} {ev : Event} {evs : List Event} (h : Step m ev m₁)
      (hs : Steps m₁ evs m') : Steps m (ev :: evs) m'

theorem Step.before_eq {m m' : Machine} {ev : Event} (h : Step m ev m') : ev.before = m := by
  cases h with
  | completed | failed | acted => rfl

theorem Step.after_eq {m m' : Machine} {ev : Event} (h : Step m ev m') : ev.after = m' := by
  cases h with
  | completed | failed | acted => rfl

theorem Steps.append {m m₁ m' : Machine} {evs evs' : List Event} (h : Steps m evs m₁)
    (h' : Steps m₁ evs' m') : Steps m (evs ++ evs') m' := by
  induction h with
  | nil => exact h'
  | cons hstep _ ih => exact .cons hstep (ih h')

/-- A history can be cut anywhere. -/
theorem Steps.of_append {m' : Machine} {evs' : List Event} (evs : List Event) :
    ∀ {m : Machine}, Steps m (evs ++ evs') m' → ∃ m₁, Steps m evs m₁ ∧ Steps m₁ evs' m' := by
  induction evs with
  | nil =>
    intro m h
    exact ⟨m, .nil m, h⟩
  | cons ev evs ih =>
    intro m h
    cases h with
    | cons hstep hs =>
      obtain ⟨m₁, hleft, hright⟩ := ih hs
      exact ⟨m₁, .cons hstep hleft, hright⟩

theorem Steps.of_cons {m m' : Machine} {ev : Event} {evs : List Event}
    (h : Steps m (ev :: evs) m') : ∃ m₁, Step m ev m₁ ∧ Steps m₁ evs m' := by
  cases h with
  | cons hstep hs => exact ⟨_, hstep, hs⟩

/-- Before each event of a history there is a history that leads to it. -/
theorem Steps.of_mem {m m' : Machine} {ev : Event} {evs : List Event} (hs : Steps m evs m')
    (h : ev ∈ evs) : ∃ before w w', Steps m before w ∧ Step w ev w' := by
  obtain ⟨before, after, rfl⟩ := List.append_of_mem h
  obtain ⟨w, hbefore, hs⟩ := Steps.of_append before hs
  obtain ⟨w', hstep, -⟩ := hs.of_cons
  exact ⟨before, w, w', hbefore, hstep⟩

/-- **What every event preserves holds after every history.** The value `g` is whatever the
invariant has to remember of the history so far. -/
theorem Steps.invariant {γ : Type} {P : γ → Machine → Prop} {f : γ → Event → γ}
    (hstep : ∀ {g m ev m'}, P g m → Step m ev m' → P (f g ev) m') {m m' : Machine}
    {evs : List Event} (h : Steps m evs m') : ∀ {g}, P g m → P (evs.foldl f g) m' := by
  induction h with
  | nil => intro g hp; exact hp
  | cons h₁ _ ih => intro g hp; exact ih (hstep hp h₁)

/-- The same for an invariant that need not remember anything. -/
theorem Steps.preserves {P : Machine → Prop}
    (hstep : ∀ {m ev m'}, P m → Step m ev m' → P m') {m m' : Machine} {evs : List Event}
    (h : Steps m evs m') (hp : P m) : P m' :=
  h.invariant (g := ()) (f := fun _ _ => ()) (P := fun _ => P) hstep hp

/-! ## The history of calls is one -/

theorem afterCalls_append (m : Machine) (calls calls' : List HostCall) :
    m.afterCalls (calls ++ calls') = (m.afterCalls calls).afterCalls calls' :=
  List.foldl_append

theorem steps_runEvents (n : Nat) : ∀ m : Machine, Steps m (runEvents n m) (left (run n m)) := by
  induction n with
  | zero => intro m; exact .nil m
  | succ n ih =>
    intro m
    rw [runEvents, run_succ]
    cases hc : cycle m with
    | ok entry m' => exact .cons (.completed hc) (ih m')
    | error e m' => exact .cons (.failed hc) (.nil m')

/-- A run that fails does so in one of its cycles. -/
theorem failed_of_run_error {e : Error} {m' : Machine} (n : Nat) :
    ∀ {m : Machine}, run n m = .error e m' → ∃ w, .failed e w m' ∈ runEvents n m := by
  induction n with
  | zero =>
    intro m h
    cases h
  | succ n ih =>
    intro m h
    rw [run_succ] at h
    rw [runEvents]
    cases hc : cycle m with
    | ok entry m₁ =>
      rw [hc] at h
      obtain ⟨w, hw⟩ := ih h
      exact ⟨w, List.mem_cons_of_mem _ hw⟩
    | error e₁ m₁ =>
      rw [hc] at h
      cases h
      exact ⟨m, List.mem_singleton_self _⟩

theorem left_cycle (m : Machine) : left ((HostCall.cycle).action m) = left (run 1 m) := by
  rw [run_succ, HostCall.action, bind_apply]
  cases cycle m with
  | ok entry m' => rfl
  | error e m' => rfl

theorem callEvents_cycle {m m' : Machine} {entry : Option TraceEntry}
    (h : cycle m = .ok entry m') : m.callEvents .cycle = [.completed m m'] := by
  rw [callEvents, runEvents, h]
  rfl

theorem afterCall_cycle {m m' : Machine} {entry : Option TraceEntry}
    (h : cycle m = .ok entry m') : m.afterCall .cycle = m' := by
  rw [afterCall, left_cycle, run_succ, h]
  rfl

theorem steps_callEvents (m : Machine) (c : HostCall) :
    Steps m (m.callEvents c) (m.afterCall c) := by
  cases c with
  | act a => exact .cons (.acted a m) (.nil _)
  | cycle =>
    rw [afterCall, left_cycle]
    exact steps_runEvents 1 m
  | run n => exact steps_runEvents n.toNat m

theorem steps_events (calls : List HostCall) :
    ∀ m : Machine, Steps m (m.events calls) (m.afterCalls calls) := by
  induction calls with
  | nil => intro m; exact .nil m
  | cons c calls ih =>
    intro m
    exact (steps_callEvents m c).append (ih (m.afterCall c))

end Machine

end Chip8
