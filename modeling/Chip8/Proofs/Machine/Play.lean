import Chip8.Machine.Play
import Chip8.Proofs.Host.Sound

/-!
# What comes of playing a program

A host that plays a program loads it, holds some keys down and asks for a number of cycles. There
are three ways in which that can end, and `Played` says all that there is to say of each:

> **the program is too large, and nothing has happened; or a cycle has failed, and the machine is as
> the cycles before have left it; or all cycles have completed** (`played`).

A cycle fails with a fault of the program, never with a misuse: the host has done nothing wrong.
-/

set_option autoImplicit false

namespace Chip8.Machine

open State Outcome

variable {m m' w : Machine}

/-! ## Cycles that complete -/

/-- So many cycles complete, one after the other, and take the one machine to the other. -/
inductive Completes : Nat → Machine → Machine → Prop
  | zero (m : Machine) : Completes 0 m m
  | succ {n : Nat} {m w m' : Machine} {entry : Option TraceEntry} (h : cycle m = .ok entry w)
      (hs : Completes n w m') : Completes (n + 1) m m'

theorem Completes.valid {n : Nat} (h : Completes n m m') (hv : m.state.Valid) :
    m'.state.Valid := by
  induction h with
  | zero => exact hv
  | succ hc _ ih =>
    obtain ⟨hf, -, rfl⟩ := of_cycle_ok hv hc
    exact ih (next_valid hv hf)

/-- Every completed cycle counts. -/
theorem Completes.cycleCount {n : Nat} (h : Completes n m m') (hv : m.state.Valid) :
    m'.state.cycleCount = m.state.cycleCount + n := by
  induction h with
  | zero => exact (Int.add_zero _).symm
  | succ hc _ ih =>
    obtain ⟨hf, -, rfl⟩ := of_cycle_ok hv hc
    rw [ih (next_valid hv hf), next_cycleCount hf]
    omega

/-- A run that completes. -/
theorem run_eq_ok_iff (n : Nat) : ∀ {m : Machine}, run n m = .ok () m' ↔ Completes n m m' := by
  induction n with
  | zero =>
    intro m
    constructor
    · rintro ⟨⟩
      exact .zero _
    · rintro ⟨⟩
      rfl
  | succ n ih =>
    intro m
    rw [run_succ]
    constructor
    · intro h
      cases hc : cycle m with
      | ok entry w =>
        rw [hc] at h
        exact .succ hc (ih.mp h)
      | error e w =>
        rw [hc] at h
        cases h
    · intro h
      cases h with
      | succ hc hs =>
        rw [hc]
        exact ih.mpr hs

/-- A run that fails. -/
theorem run_eq_error_iff {e : Error} (n : Nat) : ∀ {m : Machine}, run n m = .error e m' ↔
    ∃ k, k < n ∧ ∃ w, Completes k m w ∧ cycle w = .error e m' := by
  induction n with
  | zero =>
    intro m
    constructor
    · rintro ⟨⟩
    · rintro ⟨k, hk, -⟩
      exact absurd hk (Nat.not_lt_zero k)
  | succ n ih =>
    intro m
    rw [run_succ]
    constructor
    · intro h
      cases hc : cycle m with
      | ok entry w =>
        rw [hc] at h
        obtain ⟨k, hk, w', hs, hfail⟩ := ih.mp h
        exact ⟨k + 1, Nat.succ_lt_succ hk, w', .succ hc hs, hfail⟩
      | error e' w =>
        rw [hc] at h
        cases h
        exact ⟨0, Nat.succ_pos n, m, .zero m, hc⟩
    · rintro ⟨k, hk, w', hs, hfail⟩
      cases hs with
      | zero => rw [hfail]
      | succ hc hs =>
        rw [hc]
        exact ih.mpr ⟨_, Nat.lt_of_succ_lt_succ hk, w', hs, hfail⟩

/-! ## What comes before the cycles -/

/-- The keys of a machine with some more held down. -/
def pressed (pins : List Nat) (keys : Array Bool) : Array Bool :=
  pins.foldl (fun keys pin => keys.setIfInBounds pin true) keys

theorem size_pressed (pins : List Nat) : ∀ keys : Array Bool,
    (pressed pins keys).size = keys.size := by
  induction pins with
  | nil => exact fun _ => rfl
  | cons pin pins ih => exact fun keys => (ih _).trans Array.size_setIfInBounds

theorem holdKeys_apply (pins : List Nat) : ∀ {m : Machine}, m.state.Valid →
    (∀ pin ∈ pins, pin < keyCount) →
      holdKeys pins m =
        .ok () { m with state := { m.state with keys := pressed pins m.state.keys } } := by
  induction pins with
  | nil =>
    intro m _ _
    rfl
  | cons pin pins ih =>
    intro m hv hpins
    obtain ⟨hpin, hpins⟩ := List.forall_mem_cons.mp hpins
    have hset := setKey_of_mem hv ⟨Int.natCast_nonneg pin, Int.ofNat_lt.mpr hpin⟩ true
    rw [holdKeys, bind_of_ok hset, Int.toNat_natCast]
    have hsize : (m.state.keys.setIfInBounds pin true).size = keyCount := by
      rw [Array.size_setIfInBounds, hv.keys_size]
    exact ih { hv with keys_size := hsize } hpins

theorem getElem?_pressed (pins : List Nat) (i : Nat) : ∀ keys : Array Bool,
    (pressed pins keys)[i]? = if i ∈ pins ∧ i < keys.size then some true else keys[i]? := by
  induction pins with
  | nil =>
    intro keys
    rw [if_neg (by simp)]
    rfl
  | cons pin pins ih =>
    intro keys
    have hstep : pressed (pin :: pins) keys = pressed pins (keys.setIfInBounds pin true) := rfl
    rw [hstep, ih, Array.size_setIfInBounds, Array.getElem?_setIfInBounds]
    by_cases hsize : i < keys.size
    · by_cases hpin : pin = i
      · subst hpin
        simp [hsize]
      · simp [hsize, hpin, Ne.symm hpin]
    · simp +contextual [hsize]

/-- Which keys are held down matters, and nothing else about the list of them. -/
theorem pressed_congr {pins pins' : List Nat} (h : ∀ pin, pin ∈ pins ↔ pin ∈ pins')
    (keys : Array Bool) : pressed pins keys = pressed pins' keys := by
  refine Array.ext_getElem? fun i => ?_
  rw [getElem?_pressed, getElem?_pressed]
  simp only [h i]

/-- The machine with a program loaded and keys held down, before the first cycle. -/
def started (program : Array UInt8) (pins : List Nat) (m : Machine) : Machine :=
  { m with
    state := { m.state.loaded program with keys := pressed pins m.state.keys } }

variable {program : Array UInt8} {pins : List Nat}

theorem started_valid (hv : m.state.Valid) (hroom : program.size ≤ maxProgramSize)
    (pins : List Nat) : (m.started program pins).state.Valid :=
  { loaded_valid hv hroom with keys_size := (size_pressed pins _).trans hv.keys_size }

theorem play_of_room (hv : m.state.Valid) (hpins : ∀ pin ∈ pins, pin < keyCount)
    (hroom : program.size ≤ maxProgramSize) (cycles : Int) :
    play program pins cycles m = run cycles.toNat (m.started program pins) := by
  have hload : load program m =
      .ok program.size { m with state := m.state.loaded program } := by
    rw [load, onState, load_of_room m.state hroom]
  have hhold := holdKeys_apply pins (m := { m with state := m.state.loaded program })
    (loaded_valid hv hroom) hpins
  rw [play, bind_of_ok hload, bind_of_ok hhold]
  rfl

theorem play_of_no_room (hroom : maxProgramSize < program.size) (cycles : Int) :
    play program pins cycles m =
      .error (.fault (.programTooLarge program.size maxProgramSize)) m := by
  have hload : load program m =
      .error (.fault (.programTooLarge program.size maxProgramSize)) m := by
    rw [load, onState, load_of_no_room m.state hroom]
  rw [play, bind_of_error hload]

/-- Whether anyone listens makes no difference. -/
theorem runLogged_fst (n : Nat) : ∀ (log : Array LogRecord) (m : Machine),
    (runLogged log m n).1 = run n m := by
  induction n with
  | zero => exact fun _ _ => rfl
  | succ n ih =>
    intro log m
    rw [run_succ, runLogged]
    cases cycle m with
    | ok entry w => exact ih _ w
    | error e w => rfl

theorem playLogged_fst (program : Array UInt8) (pins : List Nat) (cycles : Int) (m : Machine) :
    (playLogged program pins cycles m).1 = play program pins cycles m := by
  rw [playLogged, play, bind_apply]
  cases load program m with
  | error e w => rfl
  | ok size w =>
    dsimp only
    rw [bind_apply]
    cases holdKeys pins w with
    | error e w => rfl
    | ok _ w => exact runLogged_fst _ _ w

/-- The same keys, in whatever order and however often they are named, make the same run. -/
theorem playLogged_congr {pins' : List Nat} (hv : m.state.Valid)
    (hpins : ∀ pin ∈ pins, pin < keyCount) (h : ∀ pin, pin ∈ pins ↔ pin ∈ pins') (cycles : Int) :
    playLogged program pins cycles m = playLogged program pins' cycles m := by
  have hpins' : ∀ pin ∈ pins', pin < keyCount := fun pin hpin => hpins pin ((h pin).mpr hpin)
  unfold playLogged
  by_cases hroom : program.size ≤ maxProgramSize
  · have hhold := holdKeys_apply pins (m := { m with state := m.state.loaded program })
      (loaded_valid hv hroom) hpins
    have hhold' := holdKeys_apply pins' (m := { m with state := m.state.loaded program })
      (loaded_valid hv hroom) hpins'
    rw [load, onState, load_of_room m.state hroom]
    dsimp only
    rw [hhold, hhold', pressed_congr h]
  · rw [load, onState, load_of_no_room m.state (Nat.lt_of_not_le hroom)]

/-! ## How it can end -/

/-- What can come of a program that is to run for a number of cycles with some keys held down. -/
inductive Played (program : Array UInt8) (pins : List Nat) (n : Nat) (m : Machine) :
    EStateM.Result Error Machine Unit → Prop
  | tooLarge (hroom : maxProgramSize < program.size) :
      Played program pins n m (.error (.fault (.programTooLarge program.size maxProgramSize)) m)
  | failed {k : Nat} {w : Machine} {f : Fault} (hroom : program.size ≤ maxProgramSize) (hk : k < n)
      (hbefore : Completes k (m.started program pins) w) (hf : cycle w = .error (.fault f) w) :
      Played program pins n m (.error (.fault f) w)
  | completed {w : Machine} (hroom : program.size ≤ maxProgramSize)
      (hall : Completes n (m.started program pins) w) : Played program pins n m (.ok () w)

/-- **Playing a program ends in one of three ways.** -/
theorem played (hv : m.state.Valid) (program : Array UInt8)
    (hpins : ∀ pin ∈ pins, pin < keyCount) (cycles : Int) :
    Played program pins cycles.toNat m (play program pins cycles m) := by
  by_cases hroom : program.size ≤ maxProgramSize
  · rw [play_of_room hv hpins hroom]
    cases hrun : run cycles.toNat (m.started program pins) with
    | ok _ w => exact .completed hroom ((run_eq_ok_iff _).mp hrun)
    | error e w =>
      obtain ⟨k, hk, w', hbefore, hfail⟩ := (run_eq_error_iff _).mp hrun
      have hv' := hbefore.valid (started_valid hv hroom pins)
      obtain ⟨f, -, rfl, rfl⟩ := of_cycle_error hv' hfail
      exact .failed hroom hk hbefore hfail
  · rw [play_of_no_room (Nat.lt_of_not_le hroom)]
    exact .tooLarge (Nat.lt_of_not_le hroom)

/-- The outcome that leaves a machine, with an error or without one. -/
def outcome (failure : Option Error) (m : Machine) : EStateM.Result Error Machine Unit :=
  match failure with
  | none => .ok () m
  | some e => .error e m

end Chip8.Machine
