import Chip8.Proofs.Pair.Tandem

/-!
# The two policies at words that are no instructions

Two machines that differ in nothing but what they do at a word that is no instruction do the same
until one is fetched. There the one that refuses fails, and has not changed; the one that skips goes
on behind the word and takes note of it, unless the word is the last that memory has room for. After
that they are two different machines, and nothing can be said of both.

A machine that skips has exactly one note for each word that it has stepped over
(`Machine.Steps.skips_eq`), whatever its trace has kept, and it never fails because of a word.
-/

set_option autoImplicit false

namespace Chip8

open State Outcome

/-! ## Faults that come from words -/

/-- No instruction fails for being none. -/
theorem Instruction.fault?_ne_unknownOpcode (i : Instruction) (s : State) (w pc : Int)
    (reason : String) : i.fault? s ≠ some (.unknownOpcode w pc reason) := by
  fun_cases fault? i s
  case case9 x f ho =>
    -- a glyph, with no room behind the instruction
    obtain ⟨-, rfl⟩ := overrun?_eq_some.mp ho
    simp
  all_goals simp [*, overrun?]

namespace Machine

variable {m m' : Machine}

/-- The machine with another policy. -/
def withPolicy (policy : InvalidPolicy) (m : Machine) : Machine := { m with onInvalid := policy }

theorem fault?_ne_unknownOpcode (hskip : m.onInvalid = .skip) (w pc : Int) (reason : String) :
    m.fault? ≠ some (.unknownOpcode w pc reason) := by
  unfold fault?
  split
  · simp
  · cases m.state.opcode.decode with
    | ok i => exact i.fault?_ne_unknownOpcode m.state w pc reason
    | error why => simp [refusal?, hskip, overrun?]

/-! ## Notes of words stepped over -/

/-- What a cycle does that steps over a word, the trace apart: it notes the word, goes on behind it,
and lets time go on. -/
structure SteppedOver (k : Skip) (m m' : Machine) : Prop where
  state : m'.state =
    { m.state with
      pc := m.state.pc + 2
      delayTimer := m.ranDown m.state.delayTimer
      soundTimer := m.ranDown m.state.soundTimer
      sinceTick := if m.ticks then 0 else m.state.sinceTick + 1
      cycleCount := m.state.cycleCount + 1 }
  skips : m'.skips = m.skips.push k
  timerResolution : m'.timerResolution = m.timerResolution
  onInvalid : m'.onInvalid = m.onInvalid
  tracing : m'.tracing = m.tracing

theorem steppedOver {reason : InvalidReason} (hv : m.state.Valid) (hf : m.fault? = none)
    (hd : m.state.opcode.decode = .error reason) :
    SteppedOver ⟨m.state.opcode, reason⟩ m m.next := by
  have hcarried : m.carried = m.behind reason := by rw [carried, hd]
  obtain ⟨honInvalid, htracing, -, hskips⟩ := next_settings m
  rw [hcarried] at honInvalid htracing hskips
  refine ⟨?_, hskips, next_timerResolution m, honInvalid, htracing⟩
  have hdelay := next_value hv hf .delay
  have hsound := next_value hv hf .sound
  have hsince := next_sinceTick hf
  have hcount := next_cycleCount hf
  obtain ⟨delay, sound, since, count, heq⟩ := next_frame m
  rw [hcarried] at heq hdelay hsound
  rw [heq] at hdelay hsound hsince hcount ⊢
  subst hdelay hsound hsince hcount
  rfl

theorem next_skips (m : Machine) :
    m.next.skips.toList = m.skips.toList ++ m.skip?.toList := by
  obtain ⟨-, -, -, hskips⟩ := next_settings m
  rw [hskips, carried, skip?]
  cases m.state.opcode.decode with
  | ok i => simp
  | error reason => simp [behind]

theorem Step.skips_eq {ev : Event} (hs : Step m ev m') (hv : m.state.Valid) :
    m'.skips.toList = m.skips.toList ++ (completions [ev]).filterMap fun c => c.1.skip? := by
  rcases hs.cases_completions hv with ⟨-, rfl, hone⟩ | ⟨hnone, memory, keys, redraw, rfl⟩
  · rw [next_skips, hone]
    cases h : m.skip? with
    | none | some => simp [h]
  · simp [hnone]

/-- A machine has a note for each word that it has stepped over, in order, and no other. -/
theorem Steps.skips_eq {evs : List Event} (hs : Steps m evs m') (hv : m.state.Valid) :
    m'.skips.toList = m.skips.toList ++ (completions evs).filterMap fun c => c.1.skip? := by
  induction hs with
  | nil m => simp [completions]
  | @cons m m₁ m' ev evs hstep _ ih =>
    rw [ih (valid_step hv hstep), hstep.skips_eq hv, completions_cons ev evs,
      List.filterMap_append, List.append_assoc]

theorem Step.onInvalid_eq {ev : Event} (hs : Step m ev m') (hv : m.state.Valid) :
    m'.onInvalid = m.onInvalid := by
  rcases hs.cases_completions hv with ⟨-, rfl, -⟩ | ⟨-, memory, keys, redraw, rfl⟩
  · exact m.next_onInvalid
  · rfl

theorem Steps.onInvalid_eq {evs : List Event} (hs : Steps m evs m') (hv : m.state.Valid) :
    m'.onInvalid = m.onInvalid := by
  have hkept := hs.preserves (P := fun w => w.state.Valid ∧ w.onInvalid = m.onInvalid)
    (fun ⟨hv, hp⟩ hstep => ⟨valid_step hv hstep, (hstep.onInvalid_eq hv).trans hp⟩) ⟨hv, rfl⟩
  exact hkept.2

/-- A machine that skips fails for many things, but not for a word. -/
theorem Steps.not_unknownOpcode {evs : List Event} (hs : Steps m evs m') (hv : m.state.Valid)
    (hskip : m.onInvalid = .skip) (word pc : Int) (reason : String) (w w' : Machine) :
    .failed (.fault (.unknownOpcode word pc reason)) w w' ∉ evs := by
  intro hmem
  obtain ⟨before, _, _, hbefore, hstep⟩ := hs.of_mem hmem
  cases hstep with
  | failed hc =>
    obtain ⟨f, hf, herror, -⟩ := of_cycle_error (hbefore.valid hv) hc
    cases herror
    exact fault?_ne_unknownOpcode ((hbefore.onInvalid_eq hv).trans hskip) _ _ _ hf

/-! ## The same machine with either policy -/

@[simp] theorem withPolicy_state (policy : InvalidPolicy) (m : Machine) :
    (m.withPolicy policy).state = m.state := rfl

theorem carried_withPolicy (policy : InvalidPolicy) (m : Machine) :
    (m.withPolicy policy).carried = m.carried.withPolicy policy := by
  unfold carried withPolicy
  cases m.state.opcode.decode with
  | ok i => rfl
  | error reason => rfl

/-- Where a cycle leads to does not depend on the policy, but only whether it is completed. -/
theorem next_withPolicy (policy : InvalidPolicy) (m : Machine) :
    (m.withPolicy policy).next = m.next.withPolicy policy := by
  have hentry : (m.withPolicy policy).entry = m.entry := by
    simp only [entry, carried_withPolicy]
    rfl
  have htracing : (m.withPolicy policy).tracing = m.tracing := rfl
  unfold next
  rw [hentry, carried_withPolicy, htracing]
  cases m.tracing with
  | false | true => rfl

/-- Two machines that are the same, but that one refuses and the other skips what is no
instruction. -/
structure Agree (m m' : Machine) : Prop where
  valid : m.state.Valid
  refuses : m.onInvalid = .refuse
  same : m' = m.withPolicy .skip

theorem Agree.next (h : Agree m m') (hf : m.fault? = none) : Agree m.next m'.next where
  valid := next_valid h.valid hf
  refuses := (next_onInvalid m).trans h.refuses
  same := by rw [h.same, next_withPolicy]

end Machine

/-- If the event is a cycle that fetches a word, that word is an instruction. -/
def Event.Decodes : Event → Prop
  | .completed m _ | .failed _ m _ =>
    m.state.pc ≤ memorySize - 2 → ∃ i : Instruction, m.state.word = i.encode.word
  | .acted _ _ _ => True

/-- The two cycles with a word that is no instruction. One machine refuses it. The other cannot go
on behind the word either, because memory ends there, or it steps over the word and notes it. -/
inductive Event.Parts : Event → Event → Prop
  | intro {m m' : Machine} {k : Skip} {ev : Event} (agree : m.Agree m')
      (fetched : m.state.pc ≤ memorySize - 2) (word : k.opcode.word = m.state.word)
      (invalid : ∀ i : Instruction, m.state.word ≠ i.encode.word)
      (reason : k.opcode.decode = .error k.reason)
      (text : k.text = "Skipped " ++ Text.Hex.word m.state.word ++ ": " ++ k.reason.text)
      (goesOn :
        memorySize ≤ m.state.pc + 2 ∧ ev = .failed (.fault (.pcOutOfRange (m.state.pc + 2))) m' m' ∨
        m.state.pc + 2 < memorySize ∧ ∃ w, ev = .completed m' w ∧ Machine.SteppedOver k m' w) :
      Parts (.failed (.fault (.unknownOpcode m.state.word m.state.pc k.reason.text)) m m) ev

namespace Machine

variable {m m' : Machine}

theorem fault?_of_no_room (h : memorySize - 2 < m.state.pc) :
    m.fault? = some (.pcOutOfRange m.state.pc) := if_pos h

theorem fault?_of_invalid {reason : InvalidReason} (hpc : m.state.pc ≤ memorySize - 2)
    (hd : m.state.opcode.decode = .error reason) : m.fault? = m.refusal? reason := by
  rw [fault?, if_neg (by omega), hd]

theorem Agree.of_instruction {i : Instruction} (h : Agree m m') (hpc : m.state.pc ≤ memorySize - 2)
    (hi : m.state.instruction? = some i) : m.cycleEvent.Matches Agree m'.cycleEvent := by
  have hv' : m'.state.Valid := h.same ▸ h.valid
  have hf : m'.fault? = m.fault? := by
    rw [h.same, fault?_of_instruction hpc hi]
    exact fault?_of_instruction hpc hi
  rw [cycleEvent_eq h.valid, cycleEvent_eq hv', hf]
  cases hnone : m.fault? with
  | none => exact .completed h (h.next hnone)
  | some f => exact .failed (.fault f) h h

theorem Agree.of_invalid {reason : InvalidReason} (h : Agree m m')
    (hpc : m.state.pc ≤ memorySize - 2) (hd : m.state.opcode.decode = .error reason) :
    m.cycleEvent.Parts m'.cycleEvent := by
  have hv' : m'.state.Valid := h.same ▸ h.valid
  have hd' : m'.state.opcode.decode = .error reason := h.same ▸ hd
  have hrefused : m.fault? = some (.unknownOpcode m.state.word m.state.pc reason.text) := by
    rw [fault?_of_invalid hpc hd, refusal?, h.refuses]
  have hskipped : m'.fault? = overrun? (m.state.pc + 2) := by
    rw [h.same]
    exact fault?_of_invalid hpc hd
  have hinvalid : m.state.instruction? = none := by
    rw [State.instruction?, hd]
    rfl
  have hword : m.state.opcode.word = m.state.word := opcode_word m.state
  rw [cycleEvent_eq h.valid, cycleEvent_eq hv', hrefused, hskipped]
  refine .intro (k := ⟨m.state.opcode, reason⟩) h hpc hword (instruction?_eq_none_iff.mp hinvalid)
    hd ?_ ?_
  · simp only [Skip.text, Opcode.text, hword]
  · rcases Int.lt_or_le (m.state.pc + 2) memorySize with hroom | hroom
    · have hnone := overrun?_of_room hroom
      have hover := steppedOver hv' (hskipped.trans hnone) hd'
      rw [h.same] at hover
      rw [hnone, h.same]
      exact Or.inr ⟨hroom, _, rfl, hover⟩
    · rw [overrun?_of_no_room hroom]
      exact Or.inl ⟨hroom, rfl⟩

theorem decodes_cycleEvent : m.cycleEvent.Decodes ↔
    (m.state.pc ≤ memorySize - 2 → ∃ i : Instruction, m.state.word = i.encode.word) := by
  unfold cycleEvent
  cases cycle m with
  | ok | error => exact Iff.rfl

theorem Agree.cycle (h : Agree m m') :
    (m.cycleEvent.Matches Agree m'.cycleEvent ∧ m.cycleEvent.Decodes) ∨
      m.cycleEvent.Parts m'.cycleEvent := by
  rcases Int.lt_or_le (memorySize - 2) m.state.pc with hpc | hpc
  · have hf := fault?_of_no_room hpc
    have hf' : m'.fault? = some (.pcOutOfRange m.state.pc) := by
      rw [h.same]
      exact fault?_of_no_room hpc
    refine Or.inl ⟨?_, decodes_cycleEvent.mpr fun hle => absurd hle (by omega)⟩
    rw [cycleEvent_eq h.valid, cycleEvent_eq (h.same ▸ h.valid), hf, hf']
    exact .failed _ h h
  · cases hd : m.state.opcode.decode with
    | ok i =>
      have hi := instruction?_eq_some.mpr hd
      exact Or.inl ⟨h.of_instruction hpc hi,
        decodes_cycleEvent.mpr fun _ => ⟨i, instruction?_iff_word.mp hi⟩⟩
    | error reason => exact Or.inr (h.of_invalid hpc hd)

theorem Agree.act (h : Agree m m') (a : HostAct) :
    Alike Eq Agree (a.action m) (a.action m') := by
  obtain ⟨hv, hrefuses, rfl⟩ := h
  have hsame : Alike Eq (fun w w' => w.onInvalid = .refuse ∧ w' = w.withPolicy .skip)
      (a.action m) (a.action (m.withPolicy .skip)) := by
    rw [a.action_eq, a.action_eq]
    refine Alike.onState (.refl _) ?_
    rintro s _ rfl
    exact ⟨hrefuses, rfl⟩
  exact hsame.mono fun ⟨hrefuses, hsame⟩ => ⟨valid_step hv (.acted a m), hrefuses, hsame⟩

theorem lockstep_agree :
    Lockstep Agree (fun ev ev' => ev.Matches Agree ev' ∧ ev.Decodes) Event.Parts where
  sound := And.left
  cycle := Agree.cycle
  act h a := ⟨.acted a h (h.act a), trivial⟩

/-- **The two policies agree up to the first word that is no instruction.** Two machines that are
the same, but that one refuses and the other skips such words, match in every event as long as each
word they fetch is an instruction, and stay the same. At the first word that is none they part, as
`Event.Parts` says. Whatever is called, the machine that skips never fails because of a word, and
notes each word that it has stepped over, once and in order. -/
theorem policies_agree {m : Machine} (hv : m.state.Valid) (calls : List HostCall) :
    Tandem Agree (fun ev ev' => ev.Matches Agree ev' ∧ ev.Decodes) Event.Parts
      ((m.withPolicy .refuse).events calls) ((m.withPolicy .refuse).afterCalls calls)
      ((m.withPolicy .skip).events calls) ((m.withPolicy .skip).afterCalls calls) ∧
    (∀ word pc reason w w', .failed (.fault (.unknownOpcode word pc reason)) w w' ∉
      (m.withPolicy .skip).events calls) ∧
    ((m.withPolicy .skip).afterCalls calls).skips.toList =
      m.skips.toList ++
        (completions ((m.withPolicy .skip).events calls)).filterMap fun c => c.1.skip? := by
  have hs := steps_events calls (m.withPolicy .skip)
  refine ⟨lockstep_agree.events calls ⟨hv, rfl, rfl⟩, ?_, hs.skips_eq hv⟩
  exact hs.not_unknownOpcode hv rfl

theorem blank_invalid : blank.state.instruction? = none := by
  rw [instruction?, blank_opcode]
  rfl

theorem skip?_blank : blank.skip? = some ⟨.ofBytes 0 0, .machineRoutine⟩ := by
  rw [skip?, blank_opcode]
  rfl

/-- Two empty words before the end of memory the two policies part at once. -/
theorem policies_agree_blank :
    (blank.withPolicy .refuse).cycleEvent.Parts blank.cycleEvent ∧
    (blank.afterCalls [.cycle]).skips.toList = [⟨.ofBytes 0 0, .machineRoutine⟩] := by
  have hsame : blank.withPolicy .skip = blank := rfl
  have hevents : blank.events [.cycle] = [.completed blank blank.next] := by
    rw [events, callEvents_cycle cycle_blank, events, List.append_nil]
  obtain ⟨htandem, -, hskips⟩ := policies_agree blank_valid [.cycle]
  constructor
  · rw [hsame, events_cycle, events_cycle] at htandem
    refine htandem.head.resolve_left fun hboth => ?_
    rw [decodes_cycleEvent, withPolicy_state] at hboth
    obtain ⟨i, hi⟩ := hboth.2 (by decide)
    exact absurd hi (instruction?_eq_none_iff.mp blank_invalid i)
  · rw [hsame, hevents] at hskips
    have hnone : blank.skips.toList = [] := rfl
    rw [hskips, hnone, completions]
    simp [skip?_blank]

end Machine

end Chip8
