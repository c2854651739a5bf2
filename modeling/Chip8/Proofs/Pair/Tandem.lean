import Mathlib.Data.List.Forall2
import Chip8.Proofs.Host.Sound

/-!
# Two machines side by side

What a program does not depend on is said with two machines that differ in it. They are given the
same calls, and then either their histories match, event by event, or there is a first pair of
events at which they part (`Tandem`). That is shown of a single cycle and a single act of the host
(`Lockstep`), and holds of all histories then (`Lockstep.events`).

The two hosts need not do quite the same. Each may put things of its own between the calls that they
share, as often as it likes, as long as these leave the machines related (`Lockstep.moves`).
-/

set_option autoImplicit false

namespace Chip8

open Outcome

variable {R : Machine → Machine → Prop} {Q P : Event → Event → Prop}

/-! ## Outcomes -/

/-- The two outcomes are of the same kind, and where they end is related. -/
inductive Outcome.Alike {σ α β : Type} (V : α → β → Prop) (R : σ → σ → Prop) :
    EStateM.Result Error σ α → EStateM.Result Error σ β → Prop
  | ok {v : α} {v' : β} {s s' : σ} (hv : V v v') (hr : R s s') : Alike V R (.ok v s) (.ok v' s')
  | error (e : Error) {s s' : σ} (hr : R s s') : Alike V R (.error e s) (.error e s')

namespace Outcome

variable {σ α α' β β' : Type} {V : α → α' → Prop} {W : β → β' → Prop} {R : σ → σ → Prop}

theorem Alike.bind {act : EStateM Error σ α} {act' : EStateM Error σ α'}
    {f : α → EStateM Error σ β} {f' : α' → EStateM Error σ β'} {s s' : σ}
    (h : Alike V R (act s) (act' s'))
    (hf : ∀ {v v' t t'}, V v v' → R t t' → Alike W R (f v t) (f' v' t')) :
    Alike W R ((act >>= f) s) ((act' >>= f') s') := by
  rw [bind_apply, bind_apply]
  generalize act s = r at h ⊢
  generalize act' s' = r' at h ⊢
  cases h with
  | ok hv hr => exact hf hv hr
  | error e hr => exact .error e hr

theorem Alike.settled {fault : Option Fault} {v : α} {v' : α'} {s s' t t' : σ} (hv : V v v')
    (hr : R s s') (hr' : fault = none → R t t') :
    Alike V R (settled fault s v t) (Outcome.settled fault s' v' t') := by
  cases fault with
  | none => exact .ok hv (hr' rfl)
  | some f => exact .error (.fault f) hr

theorem Alike.refl (r : EStateM.Result Error σ α) : Alike Eq Eq r r := by
  cases r with
  | ok v s => exact .ok rfl rfl
  | error e s => exact .error e rfl

/-- An action on the state, on two machines of which only the state matters to it. -/
theorem Alike.onState {S : State → State → Prop} {R : Machine → Machine → Prop}
    {act : State.Action α} {act' : State.Action α'} {m m' : Machine}
    (h : Alike V S (act m.state) (act' m'.state))
    (hr : ∀ {s s'}, S s s' → R { m with state := s } { m' with state := s' }) :
    Alike V R (Machine.onState act m) (Machine.onState act' m') := by
  unfold Machine.onState
  generalize act m.state = r at h ⊢
  generalize act' m'.state = r' at h ⊢
  cases h with
  | ok hv hs => exact .ok hv (hr hs)
  | error e hs => exact .error e (hr hs)

/-- More can be said of where the outcomes end if it holds of these two ends. -/
theorem Alike.mono {R R' : Machine → Machine → Prop} {r : EStateM.Result Error Machine α}
    {r' : EStateM.Result Error Machine α'} (h : Alike V R r r')
    (hr : R (Machine.left r) (Machine.left r') → R' (Machine.left r) (Machine.left r')) :
    Alike V R' r r' := by
  cases h with
  | ok hv hs => exact .ok hv (hr hs)
  | error e hs => exact .error e (hr hs)

theorem Alike.left {V : α → α' → Prop} {R : Machine → Machine → Prop}
    {r : EStateM.Result Error Machine α} {r' : EStateM.Result Error Machine α'}
    (h : Alike V R r r') : R (Machine.left r) (Machine.left r') := by
  cases h with
  | ok _ hr | error _ hr => exact hr

end Outcome

/-! ## Acts of the host -/

/-- What an act of the host does to the state; the rest of the machine has no part in it. -/
def HostAct.onState : HostAct → State.Action Unit
  | .load program => do let _ ← State.load program
  | .setKey pin held =>
    if 0 ≤ pin ∧ pin < keyCount then State.writeKey pin held
    else State.Action.misuse (.noSuchKey pin)
  | .releaseKeys => modify fun s => { s with keys := Array.replicate keyCount false }
  | .takeRedraw => modify fun s => { s with redraw := false }

theorem HostAct.action_eq (a : HostAct) (m : Machine) :
    a.action m = Machine.onState a.onState m := by
  cases a with
  | load program =>
    rw [action, bind_apply, Machine.load, Machine.onState, Machine.onState, onState, bind_apply]
    cases State.load program m.state with
    | ok | error => rfl
  | setKey pin held =>
    rw [action, onState, Machine.setKey]
    split <;> rfl
  | releaseKeys | takeRedraw => rfl

/-! ## Events -/

/-- The same has happened on both sides: a cycle, or a cycle that failed with the same error, or an
act of the host with the same outcome. The machines are related before and after. -/
inductive Event.Matches (R : Machine → Machine → Prop) : Event → Event → Prop
  | completed {m m' w w' : Machine} (before : R m m') (after : R w w') :
      Matches R (.completed m w) (.completed m' w')
  | failed (e : Error) {m m' w w' : Machine} (before : R m m') (after : R w w') :
      Matches R (.failed e m w) (.failed e m' w')
  | acted (a : HostAct) {m m' : Machine} (before : R m m')
      (outcome : Alike Eq R (a.action m) (a.action m')) :
      Matches R (.acted a m (Machine.left (a.action m))) (.acted a m' (Machine.left (a.action m')))

/-- Two histories, with the machines at their ends. They match event by event, up to their ends or
to a pair of events at which they part; nothing is said of what comes after. -/
inductive Tandem (R : Machine → Machine → Prop) (Q P : Event → Event → Prop) :
    List Event → Machine → List Event → Machine → Prop
  | together {m m' : Machine} (ends : R m m') : Tandem R Q P [] m [] m'
  | cons {ev ev' : Event} {evs evs' : List Event} {m m' : Machine} (event : Q ev ev')
      (rest : Tandem R Q P evs m evs' m') : Tandem R Q P (ev :: evs) m (ev' :: evs') m'
  | parted {ev ev' : Event} {evs evs' : List Event} {m m' : Machine} (parting : P ev ev') :
      Tandem R Q P (ev :: evs) m (ev' :: evs') m'

theorem Tandem.append {evs evs' rest rest' : List Event} {w w' m m' : Machine}
    (h : Tandem R Q P evs w evs' w') (hrest : R w w' → Tandem R Q P rest m rest' m') :
    Tandem R Q P (evs ++ rest) m (evs' ++ rest') m' := by
  induction h with
  | together hr => exact hrest hr
  | cons hq _ ih => exact .cons hq (ih hrest)
  | parted hp => exact .parted hp

theorem Tandem.head {ev ev' : Event} {evs evs' : List Event} {m m' : Machine}
    (h : Tandem R Q P (ev :: evs) m (ev' :: evs') m') : Q ev ev' ∨ P ev ev' := by
  cases h with
  | cons hq _ => exact Or.inl hq
  | parted hp => exact Or.inr hp

/-- Histories that cannot part stay together. -/
theorem Tandem.forall₂ {evs evs' : List Event} {m m' : Machine}
    (h : Tandem R Q (fun _ _ => False) evs m evs' m') : List.Forall₂ Q evs evs' ∧ R m m' := by
  induction h with
  | together hr => exact ⟨.nil, hr⟩
  | cons hq _ ih => exact ⟨.cons hq ih.1, ih.2⟩
  | parted hp => exact hp.elim

namespace Machine

/-- A cycle from `m` with its outcome as an event. -/
def ended {α : Type} (m : Machine) : EStateM.Result Error Machine α → Event
  | .ok _ m' => .completed m m'
  | .error e m' => .failed e m m'

/-- The next cycle of a machine as an event. -/
def cycleEvent (m : Machine) : Event := m.ended (cycle m)

theorem cycleEvent_eq {m : Machine} (hv : m.state.Valid) :
    m.cycleEvent = match m.fault? with
      | none => .completed m m.next
      | some f => .failed (.fault f) m m := by
  rw [cycleEvent, cycle_eq hv]
  cases m.fault? with
  | none | some => rfl

theorem runEvents_succ (n : Nat) (m : Machine) :
    runEvents (n + 1) m = m.cycleEvent ::
      match cycle m with
      | .ok _ m' => runEvents n m'
      | .error _ _ => [] := by
  rw [runEvents, cycleEvent]
  cases cycle m with
  | ok | error => rfl

theorem events_cycle (m : Machine) : m.events [.cycle] = [m.cycleEvent] := by
  rw [events, callEvents, runEvents_succ]
  cases cycle m with
  | ok | error => rfl

/-- An act of a host as an event. -/
def actEvent (m : Machine) (a : HostAct) : Event := .acted a m (left (a.action m))

end Machine

theorem Event.matches_ended {α α' : Type} {V : α → α' → Prop} {m m' : Machine}
    {r : EStateM.Result Error Machine α} {r' : EStateM.Result Error Machine α'} (hr : R m m')
    (h : Alike V R r r') : (m.ended r).Matches R (m'.ended r') := by
  cases h with
  | ok _ hr' => exact .completed hr hr'
  | error e hr' => exact .failed e hr hr'

theorem Event.Matches.alike {α α' : Type} {m m' : Machine} {r : EStateM.Result Error Machine α}
    {r' : EStateM.Result Error Machine α'} (h : (m.ended r).Matches R (m'.ended r')) :
    Alike (fun _ _ => True) R r r' := by
  cases r with
  | ok =>
    cases r' with
    | ok =>
      cases h with
      | completed _ hr' => exact .ok trivial hr'
    | error => cases h
  | error =>
    cases r' with
    | ok => cases h
    | error =>
      cases h with
      | failed _ _ hr' => exact .error _ hr'

/-! ## From an event to a history -/

/-- Related machines match in every cycle, unless they part there, and in every act of a host. -/
structure Lockstep (R : Machine → Machine → Prop) (Q P : Event → Event → Prop) : Prop where
  sound : ∀ {ev ev'}, Q ev ev' → ev.Matches R ev'
  cycle : ∀ {m m'}, R m m' → Q m.cycleEvent m'.cycleEvent ∨ P m.cycleEvent m'.cycleEvent
  act : ∀ {m m'}, R m m' → ∀ a : HostAct, Q (m.actEvent a) (m'.actEvent a)

namespace Lockstep

open Machine

/-- The machines need only be alike after each cycle and each act. -/
theorem of_alike {V : Option TraceEntry → Option TraceEntry → Prop}
    (hcycle : ∀ {m m'}, R m m' → Alike V R (Machine.cycle m) (Machine.cycle m'))
    (hact : ∀ {m m'}, R m m' → ∀ a : HostAct, Alike Eq R (a.action m) (a.action m')) :
    Lockstep R (Event.Matches R) (fun _ _ => False) where
  sound h := h
  cycle hr := Or.inl (Event.matches_ended hr (hcycle hr))
  act hr a := .acted a hr (hact hr a)

variable (h : Lockstep R Q P)
include h

theorem runEvents (n : Nat) : ∀ {m m' : Machine}, R m m' →
    Tandem R Q P (runEvents n m) (left (run n m)) (Machine.runEvents n m') (left (run n m')) := by
  induction n with
  | zero =>
    intro m m' hr
    exact .together hr
  | succ n ih =>
    intro m m' hr
    rw [runEvents_succ, runEvents_succ, run_succ, run_succ]
    rcases h.cycle hr with hq | hp
    · -- both go on with one cycle less, or both have come to an end
      have halike := (h.sound hq).alike
      refine .cons hq ?_
      generalize Machine.cycle m = r at halike ⊢
      generalize Machine.cycle m' = r' at halike ⊢
      cases halike with
      | ok _ hr' => exact ih hr'
      | error e hr' => exact .together hr'
    · exact .parted hp

theorem callEvents {m m' : Machine} (hr : R m m') (c : HostCall) :
    Tandem R Q P (m.callEvents c) (m.afterCall c) (m'.callEvents c) (m'.afterCall c) := by
  cases c with
  | act a =>
    have hq := h.act hr a
    refine .cons hq (.together ?_)
    cases h.sound hq with
    | acted _ _ outcome => exact outcome.left
  | cycle =>
    rw [afterCall, afterCall, left_cycle, left_cycle]
    exact h.runEvents 1 hr
  | run n => exact h.runEvents n.toNat hr

/-- **Related machines go side by side through any calls.** -/
theorem events (calls : List HostCall) : ∀ {m m' : Machine}, R m m' →
    Tandem R Q P (m.events calls) (m.afterCalls calls) (m'.events calls) (m'.afterCalls calls) := by
  induction calls with
  | nil =>
    intro m m' hr
    exact .together hr
  | cons c calls ih =>
    intro m m' hr
    exact (h.callEvents hr c).append ih

end Lockstep

/-! ## Hosts with moves of their own -/

/-- What one of two hosts does: a call that the other makes too, or something of its own. -/
inductive Move (κ : Type)
  | shared (c : HostCall)
  | own (k : κ)

variable {κ : Type}

/-- The calls that both hosts make. -/
def sharedCalls (ms : List (Move κ)) : List HostCall :=
  ms.filterMap fun
    | .shared c => some c
    | .own _ => none

namespace Machine

/-- The machine after the moves of a host; `own` says what the moves of its own do. -/
def afterMoves (own : κ → Machine → Machine) (m : Machine) : List (Move κ) → Machine
  | [] => m
  | .shared c :: ms => (m.afterCall c).afterMoves own ms
  | .own k :: ms => (own k m).afterMoves own ms

/-- What happens in the calls among the moves. -/
def moveEvents (own : κ → Machine → Machine) (m : Machine) : List (Move κ) → List Event
  | [] => []
  | .shared c :: ms => m.callEvents c ++ (m.afterCall c).moveEvents own ms
  | .own k :: ms => (own k m).moveEvents own ms

end Machine

/-- Two lists of moves, taken apart at the calls that they share. -/
inductive Beside : List (Move κ) → List (Move κ) → Prop
  | nil : Beside [] []
  | shared (c : HostCall) {ms ms' : List (Move κ)} (h : Beside ms ms') :
      Beside (.shared c :: ms) (.shared c :: ms')
  | left (k : κ) {ms ms' : List (Move κ)} (h : Beside ms ms') : Beside (.own k :: ms) ms'
  | right (k : κ) {ms ms' : List (Move κ)} (h : Beside ms ms') : Beside ms (.own k :: ms')

theorem Beside.of_sharedCalls (ms : List (Move κ)) :
    ∀ {ms' : List (Move κ)}, sharedCalls ms = sharedCalls ms' → Beside ms ms' := by
  induction ms with
  | nil =>
    intro ms' h
    induction ms' with
    | nil => exact .nil
    | cons mv ms' ih =>
      cases mv with
      | shared c => cases h
      | own k => exact .right k (ih h)
  | cons mv ms ih =>
    intro ms' h
    cases mv with
    | own k => exact .left k (ih h)
    | shared c =>
      -- the other host may do things of its own before it makes the call
      induction ms' with
      | nil => cases h
      | cons mv' ms' ih' =>
        cases mv' with
        | own k => exact .right k (ih' h)
        | shared c' =>
          obtain ⟨rfl, hrest⟩ := List.cons_eq_cons.mp h
          exact .shared c (ih hrest)

/-- **Moves of their own do not part the machines** if each of them keeps the machines related. -/
theorem Lockstep.moves (h : Lockstep R Q P) {own : κ → Machine → Machine}
    (hleft : ∀ {m m'}, R m m' → ∀ k, R (own k m) m')
    (hright : ∀ {m m'}, R m m' → ∀ k, R m (own k m')) {ms ms' : List (Move κ)}
    (hcalls : sharedCalls ms = sharedCalls ms') {m m' : Machine} (hr : R m m') :
    Tandem R Q P (m.moveEvents own ms) (m.afterMoves own ms) (m'.moveEvents own ms')
      (m'.afterMoves own ms') := by
  have hbeside := Beside.of_sharedCalls ms hcalls
  clear hcalls
  induction hbeside generalizing m m' with
  | nil => exact .together hr
  | shared c _ ih => exact (h.callEvents hr c).append ih
  | left k _ ih => exact ih (hleft hr k)
  | right k _ ih => exact ih (hright hr k)

end Chip8
