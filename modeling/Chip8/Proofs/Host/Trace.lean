import Mathlib.Data.List.Chain
import Mathlib.Data.List.DropRight
import Chip8.Proofs.Host.Sound

/-!
# The trace is what has happened

A trace with a limit forgets. What it must not do is to be wrong about what it still holds, and the
trace of a machine that was switched on with one is not:

> **it is the end of the list of all entries that the history asks for**
> (`Machine.trace_faithful`),

one entry for each completed cycle, in order, and of these the last ones, as many as the limit
allows. Which entry a cycle asks for is said by `TraceEntry.Records`, from the machine before and
after the cycle and without the code that makes entries.

Between two cycles a host may load programs, move keys and try cycles that fail. Nothing of that is
in a snapshot, so the end of one entry is the beginning of the next.
-/

set_option autoImplicit false

namespace Chip8

open State Outcome

/-! ## What a trace has to hold -/

/-- The entry tells of cycle number `i`, which took `w` to `w'`. -/
structure TraceEntry.Records (e : TraceEntry) (i : Nat) (w w' : Machine) : Prop where
  cycle : e.cycle = i
  pc : e.pc = e.before.pc
  /-- The opcode is the two bytes that stood at the program counter. -/
  word : e.opcode.word =
    256 * (w.state.byte w.state.pc).toNat + (w.state.byte (w.state.pc + 1)).toNat
  decoded : e.decoded = .ofOpcode e.opcode
  /-- A word is noted as stepped over unless it is an instruction. -/
  skipped : e.skipped = none ↔ ∃ i : Instruction, e.opcode.word = i.encode.word
  before : e.before = w.state.snapshot
  after : e.after = w'.state.snapshot
  before_count : e.before.cycleCount = i
  after_count : e.after.cycleCount = i + 1

/-- The last entries of a list, as many as a limit allows. -/
def latest {α : Type} (limit : Option Nat) (l : List α) : List α :=
  match limit with
  | none => l
  | some n => l.rtake n

/-! ## Adding an entry -/

/-- What the last entries of a longer list are can be told without those that are gone. -/
theorem latest_latest_concat {α : Type} (limit : Option Nat) (l : List α) (x : α) :
    latest limit (latest limit l ++ [x]) = latest limit (l ++ [x]) := by
  cases limit with
  | none => rfl
  | some n =>
    show (l.rtake n ++ [x]).rtake n = (l ++ [x]).rtake n
    cases n with
    | zero => rw [List.rtake_zero, List.rtake_zero]
    | succ n =>
      rw [List.rtake_concat_succ, List.rtake_concat_succ]
      simp only [List.rtake, List.length_drop, List.drop_drop]
      congr 2
      omega

theorem latest_map {α β : Type} (limit : Option Nat) (f : α → β) (l : List α) :
    latest limit (l.map f) = (latest limit l).map f := by
  cases limit with
  | none => rfl
  | some n => simp only [latest, List.rtake, List.length_map, List.map_drop]

theorem latest_suffix {α : Type} (limit : Option Nat) (l : List α) : latest limit l <:+ l := by
  cases limit with
  | none => exact List.suffix_refl l
  | some n => exact List.drop_suffix _ l

theorem Trace.push_entries (t : Trace) (e : TraceEntry) :
    (t.push e).entries.toList = latest t.limit (t.entries.toList ++ [e]) := by
  obtain ⟨limit, entries⟩ := t
  cases limit with
  | none => exact Array.toList_push
  | some n =>
    have hsize : (entries.push e).size = (entries.toList ++ [e]).length := by simp
    unfold push latest List.rtake
    rw [← hsize, ← Array.toList_push]
    dsimp only
    by_cases hroom : (entries.push e).size ≤ n
    · rw [if_pos hroom, Nat.sub_eq_zero_of_le hroom, List.drop_zero]
    · rw [if_neg hroom, Array.toList_extract, List.extract_eq_take_drop, List.take_of_length_le]
      rw [List.length_drop, Array.length_toList]

namespace Machine

variable {m m' : Machine} {ev : Event} {evs : List Event}

theorem next_state_eq_count (m : Machine) : m.next.state = m.carried.count.state := by
  unfold next
  split <;> rfl

theorem entry_after (m : Machine) : m.entry.after = m.next.state.snapshot := by
  rw [next_state_eq_count]
  rfl

theorem skip?_eq_none_iff (m : Machine) :
    m.skip? = none ↔ ∃ i : Instruction, m.state.opcode.word = i.encode.word := by
  simp only [Opcode.word_inj, ← Opcode.decode_eq_ok_iff, skip?]
  cases m.state.opcode.decode with
  | ok i => simp
  | error reason => simp

/-- The entry of a completed cycle tells of that cycle. -/
theorem entry_records (hf : m.fault? = none) {i : Nat} (hi : m.state.cycleCount = i) :
    m.entry.Records i m m.next := by
  have hcount : m.entry.after.cycleCount = i + 1 := by
    rw [entry_after, ← hi]
    exact next_cycleCount hf
  have hcycle : m.entry.cycle = m.entry.after.cycleCount - 1 := rfl
  exact {
    cycle := by rw [hcycle, hcount]; omega
    pc := rfl
    word := opcode_word m.state
    decoded := rfl
    skipped := skip?_eq_none_iff m
    before := rfl
    after := entry_after m
    before_count := hi
    after_count := hcount }

/-! ## One event, and all of them -/

/-- The entries that a history asks for. -/
def chronicle (evs : List Event) : List TraceEntry := (completions evs).map fun c => c.1.entry

theorem chronicle_cons (ev : Event) (evs : List Event) :
    chronicle (ev :: evs) = chronicle [ev] ++ chronicle evs := by
  cases ev with
  | completed | failed | acted => rfl

/-- The machine keeps a trace with a limit, and the trace holds the end of a list. -/
structure Holds (limit : Option Nat) (l : List TraceEntry) (m : Machine) : Prop where
  tracing : m.tracing = true
  trace_limit : m.trace.limit = limit
  entries : m.trace.entries.toList = latest limit l

theorem Holds.next {limit : Option Nat} {l : List TraceEntry} (h : m.Holds limit l) :
    m.next.Holds limit (l ++ [m.entry]) := by
  obtain ⟨-, htracing, htrace⟩ := m.carried_settings
  have hnext : m.next = record m.entry m.carried.count := by
    rw [Machine.next, if_pos h.tracing]
  have hpush : m.next.trace = m.trace.push m.entry := by
    rw [hnext, ← htrace]
    rfl
  refine ⟨?_, ?_, ?_⟩
  · rw [hnext]
    exact htracing.trans h.tracing
  · rw [hpush, Trace.push_limit, h.trace_limit]
  · rw [hpush, Trace.push_entries, h.trace_limit, h.entries, latest_latest_concat]

theorem Step.holds {limit : Option Nat} {l : List TraceEntry} (hs : Step m ev m')
    (hv : m.state.Valid) (h : m.Holds limit l) : m'.Holds limit (l ++ chronicle [ev]) := by
  unfold chronicle
  rcases hs.cases_completions hv with ⟨-, rfl, hone⟩ | ⟨hnone, memory, keys, redraw, rfl⟩
  · rw [hone]
    exact h.next
  · rw [hnone, List.map_nil, List.append_nil]
    exact { h with }

theorem Steps.holds {limit : Option Nat} {l : List TraceEntry} (hs : Steps m evs m')
    (hv : m.state.Valid) (h : m.Holds limit l) : m'.Holds limit (l ++ chronicle evs) := by
  induction hs generalizing l with
  | nil m =>
    rw [chronicle, completions, List.filterMap_nil, List.map_nil, List.append_nil]
    exact h
  | @cons m m₁ m' ev evs hstep _ ih =>
    rw [chronicle_cons, ← List.append_assoc]
    exact ih (valid_step hv hstep) (hstep.holds hv h)

/-- The cycles of a history are numbered in order, and the entry of each tells of it. -/
theorem Steps.records (hs : Steps m evs m') (hv : m.state.Valid) {k : Nat}
    (hk : m.state.cycleCount = k) :
    ∀ {i : Nat} {w w' : Machine}, (completions evs)[i]? = some (w, w') →
      w.entry.Records (k + i) w w' := by
  induction hs generalizing k with
  | nil m =>
    intro i w w' h
    cases h
  | @cons m m₁ m' ev evs hstep _ ih =>
    have hv₁ := valid_step hv hstep
    intro i w w' h
    rw [completions_cons] at h
    rcases hstep.cases_completions hv with ⟨hf, rfl, hone⟩ | ⟨hnone, memory, keys, redraw, rfl⟩
    · have hk₁ : m.next.state.cycleCount = (k + 1 : Nat) := by
        rw [next_cycleCount hf, hk]
        rfl
      rw [hone] at h
      cases i with
      | zero =>
        cases h
        exact entry_records hf hk
      | succ i =>
        rw [Nat.add_comm i 1, ← Nat.add_assoc]
        exact ih hv₁ hk₁ h
    · rw [hnone] at h
      exact ih hv₁ hk h

/-- An entry begins where the one before it has ended, and the first one where the history does. -/
theorem Steps.chained (hs : Steps m evs m') (hv : m.state.Valid) :
    (chronicle evs).IsChain (fun e e' => e.after = e'.before) ∧
      ∀ e ∈ (chronicle evs).head?, e.before = m.state.snapshot := by
  induction hs with
  | nil m => exact ⟨List.isChain_nil, by simp [chronicle, completions]⟩
  | @cons m m₁ m' ev evs hstep _ ih =>
    obtain ⟨hchain, hhead⟩ := ih (valid_step hv hstep)
    rw [chronicle_cons]
    rcases hstep.cases_completions hv with ⟨hf, rfl, hone⟩ | ⟨hnone, memory, keys, redraw, rfl⟩
    · rw [chronicle, hone]
      refine ⟨List.isChain_cons.mpr ⟨?_, hchain⟩, ?_⟩
      · intro e he
        rw [entry_after, hhead e he]
      · rintro e ⟨⟩
        rfl
    · -- a snapshot shows nothing of what a host can reach
      rw [chronicle, hnone]
      exact ⟨hchain, hhead⟩

/-! ## The answer to a run -/

/-- A run with no cycle that fails answers with the trace as it is at the end. -/
theorem runTraced_eq (m : Machine) (n : Int) :
    (∃ e w w', .failed e w w' ∈ m.callEvents (.run n)) ∨
      runTraced n m = .ok (m.afterCall (.run n)).trace.entries (m.afterCall (.run n)) := by
  rw [runTraced, bind_apply, afterCall, HostCall.action]
  cases hrun : run n.toNat m with
  | ok u m' => exact Or.inr rfl
  | error e m' =>
    obtain ⟨w, hw⟩ := failed_of_run_error n.toNat hrun
    exact Or.inl ⟨e, w, m', hw⟩

theorem Holds.of_ofConfig {c : Config} (h : ofConfig c = .ok m) (ht : c.tracing = true) :
    m.Holds (c.traceLimit.map Int.toNat) [] := by
  obtain ⟨-, policy, rfl⟩ := ofConfig_eq_new h
  refine ⟨ht, rfl, ?_⟩
  cases c.traceLimit.map Int.toNat with
  | none => rfl
  | some n => exact List.rtake_nil n |>.symm

/-- **The trace is what has happened.** Of the entries that the completed cycles of a history ask
for, one for each in order, the trace of a machine that began as a new one holds the last, as many
as its limit allows; and each entry begins as the one before it ends. A cycle that fails adds
nothing, and a run answers with the trace as it is at its end, unless one of its cycles fails. -/
theorem trace_faithful {c : Config} {m : Machine} (h : ofConfig c = .ok m) (ht : c.tracing = true)
    (calls : List HostCall) :
    (∃ entries : List TraceEntry,
      (m.afterCalls calls).trace.entries.toList =
        latest (c.traceLimit.map Int.toNat) entries ∧
      entries.length = (completions (m.events calls)).length ∧
      (∀ (i : Nat) (e : TraceEntry), entries[i]? = some e → ∃ w w',
        (completions (m.events calls))[i]? = some (w, w') ∧ e.Records i w w') ∧
      entries.IsChain fun e e' => e.after = e'.before) ∧
    (∀ e w w', .failed e w w' ∈ m.events calls → w'.trace = w.trace) ∧
    ∀ n, (∃ e w w', .failed e w w' ∈ (m.afterCalls calls).callEvents (.run n)) ∨
      runTraced n (m.afterCalls calls) =
        .ok (m.afterCalls (calls ++ [.run n])).trace.entries
          (m.afterCalls (calls ++ [.run n])) := by
  have hv := (Sound.of_ofConfig h).valid
  have hs := steps_events calls m
  have hstart : m.state.cycleCount = (0 : Nat) := by
    obtain ⟨-, policy, rfl⟩ := ofConfig_eq_new h
    rfl
  refine ⟨⟨chronicle (m.events calls), ?_, List.length_map .., ?_, (hs.chained hv).1⟩, ?_, ?_⟩
  · exact (hs.holds hv (.of_ofConfig h ht)).entries
  · intro i e he
    obtain ⟨⟨w, w'⟩, hw, rfl⟩ := Option.map_eq_some_iff.mp (List.getElem?_map .. ▸ he)
    have hrecords := hs.records hv hstart hw
    rw [Nat.zero_add] at hrecords
    exact ⟨w, w', hw, hrecords⟩
  · intro e w w' hmem
    rw [hs.failed_same hv hmem]
  · intro n
    rw [afterCalls_append]
    exact runTraced_eq _ n

/-- A machine without a program, with room for one entry. -/
def forgetful : Machine := .new defaultTimerResolution .skip true (some 1) (.ofBytes #[])

theorem forgetful_opcode : forgetful.state.opcode = .ofBytes 0 0 :=
  opcode_of_initialMemory rfl (by decide)

theorem forgetful_next : forgetful.next.state.opcode = .ofBytes 0 0 := by
  rw [next, carried, forgetful_opcode]
  exact opcode_of_initialMemory rfl (by decide)

theorem events_forgetful : forgetful.events [.cycle, .cycle] =
    [.completed forgetful forgetful.next, .completed forgetful.next forgetful.next.next] := by
  have hv : forgetful.state.Valid := initial_valid _
  have hfault := fault?_of_empty_word (m := forgetful) rfl forgetful_opcode (by decide)
  have hfault' : forgetful.next.fault? = none := by
    refine fault?_of_empty_word (next_onInvalid _) forgetful_next ?_
    rw [next_pc, carried, forgetful_opcode]
    decide
  have hcycle : cycle forgetful = .ok forgetful.entry? forgetful.next := by
    rw [cycle_eq hv, hfault, settled_none]
  have hcycle' : cycle forgetful.next = .ok forgetful.next.entry? forgetful.next.next := by
    rw [cycle_eq (next_valid hv hfault), hfault', settled_none]
  rw [events, callEvents_cycle hcycle, afterCall_cycle hcycle, events, callEvents_cycle hcycle',
    events, List.append_nil, List.singleton_append]

/-- Of two cycles it remembers the second. -/
theorem trace_faithful_forgetful :
    ∃ e : TraceEntry, (forgetful.afterCalls [.cycle, .cycle]).trace.entries.toList = [e] ∧
      e.Records 1 forgetful.next forgetful.next.next := by
  have h : ofConfig { onInvalid := "skip", tracing := true, traceLimit := some 1 } =
      .ok forgetful := rfl
  obtain ⟨⟨entries, hlast, hlength, hrecords, -⟩, -⟩ := trace_faithful h rfl [.cycle, .cycle]
  rw [events_forgetful] at hlength hrecords
  obtain ⟨e₀, e₁, rfl⟩ := List.length_eq_two.mp hlength
  obtain ⟨w, w', hw, hrec⟩ := hrecords 1 e₁ rfl
  obtain ⟨rfl, rfl⟩ := Prod.mk.inj (Option.some.inj hw)
  exact ⟨e₁, hlast, hrec⟩

end Machine

end Chip8
