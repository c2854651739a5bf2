import Chip8.Proofs.Host.Sound
import Chip8.Proofs.Screen.Drawing

/-!
# When the host has to look at the screen

A host that polls the machine wants to know whether the screen has changed since it last asked, and
wants to be told neither too little nor too much. `Unseen` says it of a history, by comparing the
screen before and after each completed cycle; the mark in the state says the same
(`Machine.redraw_accurate`). What happens on the screen and is undone before the host asks still
counts, cycle by cycle; within one cycle there is nothing to undo, because an instruction flips no
pixel twice.
-/

set_option autoImplicit false

namespace Chip8

open State Outcome

/-! ## Changes and questions -/

/-- A cycle after which the screen is another one than before. -/
def Event.Repaints : Event → Prop
  | .completed m m' => m'.state.pixels ≠ m.state.pixels
  | .failed _ _ _ | .acted _ _ _ => False

/-- The host asks whether the screen has changed. -/
def Event.takes : Event → Bool
  | .acted a _ _ => a.takes
  | .completed _ _ | .failed _ _ _ => false

/-- The host does not ask. -/
def Unasked (evs : List Event) : Prop := ∀ ev ∈ evs, ev.takes = false

/-- A cycle has changed the screen, and since then the host has not asked. -/
def Unseen (evs : List Event) : Prop :=
  ∃ before ev after, evs = before ++ ev :: after ∧ ev.Repaints ∧ Unasked after

theorem unasked_cons {ev : Event} {evs : List Event} :
    Unasked (ev :: evs) ↔ ev.takes = false ∧ Unasked evs :=
  List.forall_mem_cons

theorem unseen_cons {ev : Event} {evs : List Event} :
    Unseen (ev :: evs) ↔ Unseen evs ∨ ev.Repaints ∧ Unasked evs := by
  constructor
  · rintro ⟨before, ev', after, heq, hpaint, hafter⟩
    cases before with
    | nil =>
      injection heq with hev hevs
      subst hev hevs
      exact Or.inr ⟨hpaint, hafter⟩
    | cons ev'' before =>
      injection heq with hev hevs
      exact Or.inl ⟨before, ev', after, hevs, hpaint, hafter⟩
  · rintro (⟨before, ev', after, rfl, hpaint, hafter⟩ | ⟨hpaint, hafter⟩)
    · exact ⟨ev :: before, ev', after, rfl, hpaint, hafter⟩
    · exact ⟨[], ev, evs, rfl, hpaint, hafter⟩

theorem Unseen.of_unasked {ev : Event} {evs : List Event} (hmem : ev ∈ evs) (hpaint : ev.Repaints)
    (h : Unasked evs) : Unseen evs := by
  obtain ⟨before, after, rfl⟩ := List.append_of_mem hmem
  refine ⟨before, ev, after, rfl, hpaint, ?_⟩
  intro ev' hev'
  exact h ev' (List.mem_append_right _ (List.mem_cons_of_mem _ hev'))

namespace Machine

variable {m m' : Machine} {ev : Event} {evs : List Event}

/-! ## One event -/

theorem carried_redraw_iff (hv : m.state.Valid) (hf : m.fault? = none) :
    m.carried.state.redraw = true ↔
      m.carried.state.pixels ≠ m.state.pixels ∨ m.state.redraw = true := by
  rw [or_comm]
  rcases carried_cases hf with ⟨i, -, -, heq⟩ | ⟨-, -, reason, heq⟩
  · rw [heq]
    exact i.redraw_iff hv
  · rw [heq]
    simp [behind]

/-- A completed cycle leaves the mark set just if it was, or if the cycle has changed the screen. -/
theorem next_redraw_iff (hv : m.state.Valid) (hf : m.fault? = none) :
    m.next.state.redraw = true ↔ m.next.state.pixels ≠ m.state.pixels ∨ m.state.redraw = true := by
  obtain ⟨_, _, _, _, heq⟩ := next_frame m
  rw [heq]
  exact carried_redraw_iff hv hf

theorem next_pixels_of_draw {x y n : Nibble}
    (hw : m.state.word = (Instruction.draw x y n).encode.word) :
    m.next.state.pixels = (m.state.drawing x y n).pixels := by
  obtain ⟨_, _, _, _, heq⟩ := next_frame_of_word hw
  rw [heq]
  rfl

theorem Step.redraw_iff (hs : Step m ev m') (hv : m.state.Valid) :
    m'.state.redraw = true ↔ ev.Repaints ∨ m.state.redraw = true ∧ ev.takes = false := by
  cases hs with
  | completed hc =>
    obtain ⟨hf, -, rfl⟩ := of_cycle_ok hv hc
    rw [next_redraw_iff hv hf]
    simp [Event.Repaints, Event.takes]
  | failed hc =>
    obtain ⟨-, -, -, rfl⟩ := of_cycle_error hv hc
    simp [Event.Repaints, Event.takes]
  | acted a =>
    obtain ⟨memory, keys, -, -, heq⟩ := act_frame hv a
    rw [heq]
    simp [Event.Repaints, Event.takes, and_comm]

/-- Nobody else touches the screen. -/
theorem Step.pixels_eq (hs : Step m ev m') (hv : m.state.Valid) (h : ¬ ev.Repaints) :
    m'.state.pixels = m.state.pixels := by
  cases hs with
  | completed hc => exact Decidable.not_not.mp h
  | failed hc =>
    obtain ⟨-, -, -, rfl⟩ := of_cycle_error hv hc
    rfl
  | acted a =>
    obtain ⟨memory, keys, -, -, heq⟩ := act_frame hv a
    rw [heq]

/-! ## Histories -/

/-- At the end of a history the mark is set if the screen has changed unseen, or if the mark was set
at the start and nobody asked. -/
theorem Steps.redraw_iff (hs : Steps m evs m') (hv : m.state.Valid) :
    m'.state.redraw = true ↔ Unseen evs ∨ m.state.redraw = true ∧ Unasked evs := by
  induction hs with
  | nil m => simp [Unseen, Unasked]
  | @cons m m₁ m' ev evs hstep _ ih =>
    -- whether the first event set the mark or only left it, a later question takes it all the same
    rw [ih (valid_step hv hstep), hstep.redraw_iff hv, unseen_cons, unasked_cons, or_and_right,
      and_assoc, or_assoc]

theorem Steps.exists_repaints (hs : Steps m evs m') (hv : m.state.Valid)
    (h : m'.state.pixels ≠ m.state.pixels) : ∃ ev ∈ evs, ev.Repaints := by
  induction hs with
  | nil m => exact absurd rfl h
  | @cons m m₁ m' ev evs hstep _ ih =>
    by_cases hpaint : ev.Repaints
    · exact ⟨ev, List.mem_cons_self, hpaint⟩
    · rw [← hstep.pixels_eq hv hpaint] at h
      obtain ⟨ev', hmem, hpaint'⟩ := ih (valid_step hv hstep) h
      exact ⟨ev', List.mem_cons_of_mem _ hmem, hpaint'⟩

/-- Whoever finds another screen than at the last question has a mark to find as well. -/
theorem Steps.redraw_of_pixels_ne (hs : Steps m evs m') (hv : m.state.Valid) (h : Unasked evs)
    (hne : m'.state.pixels ≠ m.state.pixels) : m'.state.redraw = true := by
  obtain ⟨ev, hmem, hpaint⟩ := hs.exists_repaints hv hne
  exact (hs.redraw_iff hv).mpr (Or.inl (.of_unasked hmem hpaint h))

/-- Without a cycle there is nothing new. -/
theorem Steps.redraw_of_no_cycle (hs : Steps m evs m') (hv : m.state.Valid)
    (hm : m.state.redraw = false) (h : ∀ w w', .completed w w' ∉ evs) :
    m'.state.redraw = false := by
  rw [← Bool.not_eq_true, hs.redraw_iff hv, hm]
  rintro (⟨before, ev, after, rfl, hpaint, -⟩ | ⟨hfalse, -⟩)
  · cases ev with
    | completed w w' => exact h w w' (List.mem_append_right _ List.mem_cons_self)
    | failed | acted => exact hpaint
  · cases hfalse

/-! ## Polling -/

theorem takeRedraw_of_redraw {b : Bool} (h : m.state.redraw = b) :
    ∃ m', takeRedraw m = .ok b m' := by
  subst h
  exact ⟨_, rfl⟩

/-- **The mark for a changed screen is accurate.** It is set just if a completed cycle has changed
the screen since the host last asked. So a host that finds another screen than at its last question
is told so, and one that asks twice without a cycle in between is told that there is nothing new. -/
theorem redraw_accurate {c : Config} {m : Machine} (h : ofConfig c = .ok m) :
    (∀ calls, (m.afterCalls calls).state.redraw = true ↔ Unseen (m.events calls)) ∧
    (∀ calls calls', Unasked ((m.afterCalls calls).events calls') →
      (m.afterCalls (calls ++ calls')).state.pixels ≠ (m.afterCalls calls).state.pixels →
      ∃ m', takeRedraw (m.afterCalls (calls ++ calls')) = .ok true m') ∧
    ∀ calls calls', (∀ w w', .completed w w' ∉
        (m.afterCalls (calls ++ [.act .takeRedraw])).events calls') →
      ∃ m', takeRedraw (m.afterCalls (calls ++ [.act .takeRedraw] ++ calls')) = .ok false m' := by
  have hnew := (Sound.of_ofConfig h).valid
  have hvalid : ∀ calls, (m.afterCalls calls).state.Valid := fun calls =>
    (steps_events calls m).valid hnew
  refine ⟨?_, ?_, ?_⟩
  · intro calls
    have hunmarked : m.state.redraw = false := by
      obtain ⟨-, policy, limit, rfl⟩ := ofConfig_ok h
      rfl
    simp [(steps_events calls m).redraw_iff hnew, hunmarked]
  · intro calls calls' hunasked hne
    rw [afterCalls_append] at hne ⊢
    exact takeRedraw_of_redraw
      ((steps_events calls' _).redraw_of_pixels_ne (hvalid calls) hunasked hne)
  · intro calls calls' hnone
    have htaken : (m.afterCalls (calls ++ [.act .takeRedraw])).state.redraw = false := by
      rw [afterCalls_append]
      rfl
    rw [afterCalls_append]
    exact takeRedraw_of_redraw
      ((steps_events calls' _).redraw_of_no_cycle (hvalid _) htaken hnone)

/-- A program that draws its own first byte. -/
def sketch : Array UInt8 := #[0xA2, 0x00, 0xD0, 0x01]

def sketched : Machine := { standard with state := standard.state.loaded sketch }

def sketchCalls : List HostCall := [.act (.load sketch), .cycle, .cycle]

theorem sketch_fits : sketch.size ≤ maxProgramSize := by decide

theorem sketched_valid : sketched.state.Valid := loaded_valid standard_valid sketch_fits

theorem sketched_word :
    sketched.state.word = (Instruction.address .loadIndex 0x200).encode.word := by
  have hword : sketched.state.word = 256 * 0xA2 + 0x00 :=
    word_loaded sketch 0 standard_valid.memory_size sketch_fits (by decide) rfl rfl
  rw [hword]
  decide

theorem cycle_sketched : cycle sketched = .ok sketched.entry? sketched.next :=
  cycle_of_word sketched_valid (by decide) sketched_word rfl

theorem sketched_next_valid : sketched.next.state.Valid :=
  next_valid sketched_valid (of_cycle_ok sketched_valid cycle_sketched).1

/-- The first cycle has put the start of the program into the index. -/
theorem sketched_next : sketched.next.state.memory = sketched.state.memory ∧
    sketched.next.state.pc = 0x202 ∧ sketched.next.state.index = 0x200 := by
  obtain ⟨_, _, _, _, heq⟩ := next_frame_of_word sketched_word
  rw [heq]
  exact ⟨rfl, rfl, rfl⟩

theorem sketched_next_word :
    sketched.next.state.word = (Instruction.draw 0 0 1).encode.word := by
  obtain ⟨hmem, hpc, -⟩ := sketched_next
  have hword : sketched.next.state.word = 256 * 0xD0 + 0x01 :=
    word_loaded sketch 2 standard_valid.memory_size sketch_fits (by decide) hmem hpc
  rw [hword]
  decide

theorem cycle_sketched_next :
    cycle sketched.next = .ok sketched.next.entry? sketched.next.next := by
  obtain ⟨-, hpc, -⟩ := sketched_next
  refine cycle_of_word sketched_next_valid ?_ sketched_next_word ?_
  · rw [hpc]
    decide
  · show overrun? (sketched.next.state.pc + 2) = none
    rw [hpc]
    rfl

theorem sketch_repaints : (Event.completed sketched.next sketched.next.next).Repaints := by
  obtain ⟨hmem, -, hindex⟩ := sketched_next
  have hbyte : sketched.next.state.byte 0x200 = 0xA2 := by
    rw [byte, hmem]
    exact loaded_byte standard_valid.memory_size sketch_fits (k := 0) (by decide)
  have hsprite : sketched.next.state.spriteAt sketched.next.state.index (1 : Nibble) = [0xA2] := by
    rw [hindex]
    exact congrArg (fun b => [b]) hbyte
  have hchanged : (sketched.next.state.drawing (0 : Nibble) (0 : Nibble) (1 : Nibble)).changed =
      true := by
    rw [drawing, Drawing.flipAll_changed, hsprite]
    exact Or.inr (List.cons_ne_nil _ _)
  rw [Event.Repaints, next_pixels_of_draw sketched_next_word]
  exact (drawing_changed sketched_next_valid.pixels_size (by decide)).mp hchanged

/-- A sketch that the host has not seen, and that it has seen. -/
theorem redraw_accurate_sketch :
    (standard.afterCalls sketchCalls).state.redraw = true ∧
      ∃ m', takeRedraw (standard.afterCalls
        (sketchCalls ++ [.act .takeRedraw] ++ [.act .releaseKeys])) = .ok false m' := by
  have hleft : left (HostAct.action (.load sketch) standard) = sketched := left_load _ sketch_fits
  have hload : standard.afterCall (.act (.load sketch)) = sketched := hleft
  have hevents : standard.events sketchCalls =
      [.acted (.load sketch) standard sketched, .completed sketched sketched.next] ++
        .completed sketched.next sketched.next.next :: [] := by
    rw [sketchCalls, events, hload, callEvents, hleft, events, callEvents_cycle cycle_sketched,
      afterCall_cycle cycle_sketched, events, callEvents_cycle cycle_sketched_next, events]
    -- `rfl` would look for the answer in the machines
    simp only [List.cons_append, List.nil_append]
  obtain ⟨hmark, -, hnone⟩ := redraw_accurate ofConfig_default
  constructor
  · refine (hmark sketchCalls).mpr ⟨_, _, [], hevents, sketch_repaints, ?_⟩
    intro ev hev
    exact absurd hev List.not_mem_nil
  · refine hnone sketchCalls [.act .releaseKeys] ?_
    intro w w' hmem
    have hacted := List.mem_singleton.mp hmem
    cases hacted

end Machine

end Chip8
