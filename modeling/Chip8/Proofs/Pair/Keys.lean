import Chip8.Proofs.Machine.Flow
import Chip8.Proofs.Pair.Lookalike
import Chip8.Proofs.Pair.Policy

/-!
# Where the keys come in

Three instructions ask for the keys. Two skip on whether one key is held, the one with the number in
a register, and the third waits until some key is held and takes the lowest. `State.keyAnswer?` is
what such an instruction gets to know, read off the word at the program counter.

Two hosts run the same program on machines that differ in nothing but the keys, and each presses and
releases keys as it likes.

> **The machines stay the same, keys apart, up to a cycle in which both ask and the answers differ**
> (`Machine.keys_confined`).

So keys have no part in a cycle that does not ask, and in one that asks no part but the answer. What
comes after two different answers is two different runs.
-/

set_option autoImplicit false

namespace Chip8

open State Outcome

/-! ## Questions and answers -/

/-- What an instruction gets to know of the keys. -/
inductive KeyAnswer
  /-- Whether the key with a given number is held. -/
  | single (held : Bool)
  /-- The lowest of the keys that are held, if any is. -/
  | lowest (pin : Option Nat)
deriving DecidableEq

/-- The answer for the word at the program counter, if it is one that asks for keys. -/
def State.keyAnswer? (s : State) : Option KeyAnswer :=
  match s.word / 0x1000, s.word % 0x100 with
  | 0xE, 0x9E | 0xE, 0xA1 =>
    some (.single (s.held ((s.reg (s.word / 0x100 % 0x10)).toNat % 16)))
  | 0xF, 0x0A => some (.lowest s.heldKey?)
  | _, _ => none

/-- Whether a word asks does not depend on the keys. -/
theorem State.keyAnswer?_isSome {s t : State} (hword : t.word = s.word) :
    t.keyAnswer?.isSome = s.keyAnswer?.isSome := by
  simp only [keyAnswer?, hword]
  split <;> rfl

theorem State.keyAnswer?_skip {s : State} {op : RegisterOp} {x : Nibble}
    (hop : op = .skipPressed ∨ op = .skipReleased)
    (h : s.word = (Instruction.register op x).encode.word) :
    s.keyAnswer? = some (.single (s.held (s.keyIn x))) := by
  obtain ⟨hg, hx, hselector⟩ := digits_of_immediate h
  rcases hop with rfl | rfl
  all_goals
    simp only [keyAnswer?, hg, hx, hselector]
    rfl

theorem State.keyAnswer?_waitKey {s : State} {x : Nibble}
    (h : s.word = (Instruction.register .waitKey x).encode.word) :
    s.keyAnswer? = some (.lowest s.heldKey?) := by
  obtain ⟨hg, -, hselector⟩ := digits_of_immediate h
  simp only [keyAnswer?, hg, hselector]
  rfl

/-- Of the keys an instruction gets to know no more than the answer. -/
theorem Instruction.KeysAlike.of_answer {s t : State} {i : Instruction}
    (hs : s.word = i.encode.word) (ht : t.word = i.encode.word)
    (h : t.keyAnswer? = s.keyAnswer?) : i.KeysAlike s t := by
  cases i with
  | register op x =>
    cases op with
    | skipPressed =>
      rw [keyAnswer?_skip (Or.inl rfl) hs, keyAnswer?_skip (Or.inl rfl) ht] at h
      exact KeyAnswer.single.inj (Option.some_inj.mp h)
    | skipReleased =>
      rw [keyAnswer?_skip (Or.inr rfl) hs, keyAnswer?_skip (Or.inr rfl) ht] at h
      exact KeyAnswer.single.inj (Option.some_inj.mp h)
    | waitKey =>
      rw [keyAnswer?_waitKey hs, keyAnswer?_waitKey ht] at h
      exact KeyAnswer.lowest.inj (Option.some_inj.mp h)
    | readDelay | setDelay | setSound | addIndex | loadGlyph | storeDecimal | storeRegisters
    | loadRegisters => trivial
  | clear | ret | address | immediate | pair | draw => trivial

/-! ## Machines with other keys -/

def heldKeys : Blur where
  keys := true

namespace Machine

/-- Two valid machines with the same settings and the same notes that agree on everything in the
state but the keys. -/
structure AllButKeys (m m' : Machine) : Prop where
  valid : m.state.Valid
  valid' : m'.state.Valid
  state : m'.state = { m.state with keys := m'.state.keys }
  timerResolution : m'.timerResolution = m.timerResolution
  onInvalid : m'.onInvalid = m.onInvalid
  skips : m'.skips = m.skips

variable {m m' : Machine}

namespace AllButKeys

theorem lookalike (h : AllButKeys m m') : Lookalike heldKeys m m' := by
  refine ⟨h.valid, h.valid', ?_, h.timerResolution, h.onInvalid⟩
  rw [h.state]
  exact { Blur.Same.refl heldKeys m.state with keys := fun hb => absurd hb (by decide) }

theorem of_lookalike (h : Lookalike heldKeys m m') (hskips : m'.skips = m.skips) :
    AllButKeys m m' := by
  have hstate := h.same.eq_with
  rw [h.same.index rfl, h.same.stack rfl, h.same.soundTimer rfl, h.same.redraw rfl,
    h.same.cycleCount rfl] at hstate
  exact ⟨h.valid, h.valid', hstate, h.timerResolution, h.onInvalid, hskips⟩

theorem word (h : AllButKeys m m') : m'.state.word = m.state.word := by
  rw [← opcode_word, ← opcode_word, h.lookalike.same.opcode]

theorem keysAlike (h : AllButKeys m m') (hanswer : m'.state.keyAnswer? = m.state.keyAnswer?) :
    KeysAlike m m' := by
  intro i hi
  have hword := instruction?_iff_word.mp hi
  exact .of_answer hword (h.word.trans hword) hanswer

theorem next (h : AllButKeys m m') (hk : KeysAlike m m') (hf : m.fault? = none) :
    AllButKeys m.next m'.next := by
  refine of_lookalike (h.lookalike.next hk hf) ?_
  have hskip : m'.skip? = m.skip? := by rw [skip?, skip?, h.lookalike.same.opcode]
  rw [← Array.toList_inj, next_skips, next_skips, h.skips, hskip]

theorem cycle (h : AllButKeys m m') (hk : KeysAlike m m') :
    Alike (fun _ _ => True) AllButKeys (Machine.cycle m) (Machine.cycle m') := by
  rw [cycle_eq h.valid, cycle_eq h.valid', h.lookalike.fault? hk]
  exact .settled trivial h (h.next hk)

theorem act (h : AllButKeys m m') (a : HostAct) :
    Alike Eq AllButKeys (a.action m) (a.action m') := by
  refine (h.lookalike.act a).mono fun halike => of_lookalike halike ?_
  obtain ⟨memory, keys, -, -, heq⟩ := act_frame h.valid a
  obtain ⟨memory', keys', -, -, heq'⟩ := act_frame h.valid' a
  rw [heq, heq']
  exact h.skips

end AllButKeys

@[simp] theorem cycleEvent_before (m : Machine) : m.cycleEvent.before = m := by
  rw [cycleEvent]
  cases Machine.cycle m with
  | ok | error => rfl

end Machine

/-- Two cycles with a word that asks for keys. The machines have been the same, keys apart, and the
answers differ. -/
structure Event.AnswersDiffer (ev ev' : Event) : Prop where
  cycle : ev = ev.before.cycleEvent
  cycle' : ev' = ev'.before.cycleEvent
  before : ev.before.AllButKeys ev'.before
  fetched : ev.before.state.pc ≤ memorySize - 2
  answers : ∃ a a', ev.before.state.keyAnswer? = some a ∧ ev'.before.state.keyAnswer? = some a' ∧
    a ≠ a'

namespace Machine

variable {m m' : Machine}

/-- A cycle with no whole word at the program counter does not ask, and one that does not ask
has the same answer. -/
theorem AllButKeys.cycleEvent (h : AllButKeys m m') :
    m.cycleEvent.Matches AllButKeys m'.cycleEvent ∨ m.cycleEvent.AnswersDiffer m'.cycleEvent := by
  rcases Int.lt_or_le (memorySize - 2) m.state.pc with hpc | hpc
  · have hpc' : memorySize - 2 < m'.state.pc := by rw [h.lookalike.same.pc]; exact hpc
    rw [cycleEvent_eq h.valid, cycleEvent_eq h.valid', fault?_of_no_room hpc,
      fault?_of_no_room hpc', h.lookalike.same.pc]
    exact Or.inl (.failed _ h h)
  · by_cases hanswer : m'.state.keyAnswer? = m.state.keyAnswer?
    · exact Or.inl (Event.matches_ended h (h.cycle (h.keysAlike hanswer)))
    · refine Or.inr ⟨?_, ?_, ?_, ?_, ?_⟩
      · rw [cycleEvent_before]
      · rw [cycleEvent_before]
      · rw [cycleEvent_before, cycleEvent_before]
        exact h
      · rw [cycleEvent_before]
        exact hpc
      · -- the word is the same, so either both ask or neither does
        have hasks := keyAnswer?_isSome h.word
        rw [cycleEvent_before, cycleEvent_before]
        cases ha : m.state.keyAnswer? with
        | none =>
          rw [ha, Option.isSome_none, Option.isSome_eq_false_iff, Option.isNone_iff_eq_none]
            at hasks
          exact absurd (hasks.trans ha.symm) hanswer
        | some a =>
          rw [ha, Option.isSome_some] at hasks
          obtain ⟨a', ha'⟩ := Option.isSome_iff_exists.mp hasks
          refine ⟨a, a', rfl, ha', ?_⟩
          rintro rfl
          exact hanswer (ha'.trans ha.symm)

theorem lockstep_allButKeys :
    Lockstep AllButKeys (Event.Matches AllButKeys) Event.AnswersDiffer where
  sound h := h
  cycle h := h.cycleEvent
  act h a := .acted a h (h.act a)

end Machine

/-! ## Two hosts -/

/-- What a host does to the keys. -/
inductive KeyAct
  | set (pin : Int) (held : Bool)
  | release

def KeyAct.act : KeyAct → HostAct
  | .set pin held => .setKey pin held
  | .release => .releaseKeys

namespace Machine

/-- The machine after its host has reached for the keys. -/
def handled (k : KeyAct) (m : Machine) : Machine := left (k.act.action m)

variable {m m' : Machine}

theorem handled_eq (hv : m.state.Valid) (k : KeyAct) : ∃ keys : Array Bool,
    keys.size = keyCount ∧ handled k m = { m with state := { m.state with keys := keys } } := by
  cases k with
  | set pin held =>
    rcases setKey_frame hv pin held with hfail | ⟨keys, hsize, hset⟩
    · -- there is no such key, and nothing is done
      refine ⟨m.state.keys, hv.keys_size, ?_⟩
      rw [handled, KeyAct.act, HostAct.action, hfail]
      rfl
    · refine ⟨keys, hsize, ?_⟩
      rw [handled, KeyAct.act, HostAct.action, hset]
      rfl
  | release => exact ⟨_, Array.size_replicate, rfl⟩

theorem AllButKeys.handled_left (h : AllButKeys m m') (k : KeyAct) :
    AllButKeys (handled k m) m' := by
  obtain ⟨keys, hsize, heq⟩ := handled_eq h.valid k
  rw [heq]
  exact { h with valid := { h.valid with keys_size := hsize } }

theorem AllButKeys.handled_right (h : AllButKeys m m') (k : KeyAct) :
    AllButKeys m (handled k m') := by
  obtain ⟨keys, hsize, heq⟩ := handled_eq h.valid' k
  rw [heq]
  exact { h with
    valid' := { h.valid' with keys_size := hsize }
    state := by rw [h.state] }

/-- **What keys can reach.** Two valid machines that are the same, keys apart, are given the same
calls by two hosts, each of which presses and releases keys in between as it likes. They match in
every cycle and every act, with the same errors, and stay the same, keys apart, until both fetch a
word that asks for keys and the answers differ. A word that asks and gets the same answer twice does
not part them. -/
theorem keys_confined (h : AllButKeys m m') (ms ms' : List (Move KeyAct))
    (hcalls : sharedCalls ms = sharedCalls ms') :
    Tandem AllButKeys (Event.Matches AllButKeys) Event.AnswersDiffer
      (m.moveEvents handled ms) (m.afterMoves handled ms)
      (m'.moveEvents handled ms') (m'.afterMoves handled ms') :=
  lockstep_allButKeys.moves AllButKeys.handled_left AllButKeys.handled_right hcalls h

/-- A program that asks whether key 0 is held, and no key is. -/
def asking : Machine := { standard with state := standard.state.loaded #[0xE0, 0x9E] }

def askingHeld : Machine :=
  { asking with
    state := { asking.state with keys := (Array.replicate keyCount false).setIfInBounds 5 true } }

theorem asking_valid : asking.state.Valid := loaded_valid standard_valid (by decide)

theorem asking_allButKeys : AllButKeys asking askingHeld :=
  ⟨asking_valid, { asking_valid with keys_size := rfl }, rfl, rfl, rfl, rfl⟩

theorem asking_word {s : State} (hmem : s.memory = asking.state.memory) (hpc : s.pc = 0x200) :
    s.word = (Instruction.register .skipPressed 0).encode.word := by
  have hword : s.word = 256 * 0xE0 + 0x9E :=
    word_loaded #[0xE0, 0x9E] 0 standard_valid.memory_size (by decide) (by decide) hmem hpc
  rw [hword]
  decide

/-- A third key is pressed on the one side, and still the cycles match. -/
theorem keys_confined_asking :
    asking.cycleEvent.Matches AllButKeys (handled (.set 7 true) askingHeld).cycleEvent := by
  have hleft : asking.moveEvents handled [.shared .cycle] = [asking.cycleEvent] := events_cycle _
  have hright : askingHeld.moveEvents handled [.own (.set 7 true), .shared .cycle] =
      [(handled (.set 7 true) askingHeld).cycleEvent] := events_cycle _
  have htandem := keys_confined asking_allButKeys [.shared .cycle]
    [.own (.set 7 true), .shared .cycle] rfl
  rw [hleft, hright] at htandem
  refine htandem.head.resolve_right fun hdiffer => ?_
  -- on both sides the answer is about key 0, which nobody has pressed
  obtain ⟨a, a', ha, ha', hne⟩ := hdiffer.answers
  have hword := asking_word (s := asking.state) rfl rfl
  have hword' := asking_word (s := (handled (.set 7 true) askingHeld).state) rfl rfl
  rw [cycleEvent_before, keyAnswer?_skip (Or.inl rfl) hword] at ha
  rw [cycleEvent_before, keyAnswer?_skip (Or.inl rfl) hword'] at ha'
  exact hne (Option.some_inj.mp (ha.symm.trans ha'))

end Machine

end Chip8
