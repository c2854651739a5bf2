import Chip8.Proofs.Host.Sound

/-!
# Calls and returns pair up

The stack is an array of sixteen entries and a pointer, and entries above the pointer are whatever
earlier calls have left there. What a reader has in mind is a list: a call puts the place behind
itself at its end, and a return takes the last one off. `owed` is that list, computed from the
history alone. That the stack below the pointer is always this list (`Owes.step`) is the invariant,
and it does not matter what the program does to its own code on the way.

A return goes to two behind the address it finds, and so to four behind the call that it belongs to.
Which call that is follows from the list: as long as the stack is deeper than it was before a call,
the list begins with what it was then and the place behind that call (`Owes.under`).
-/

set_option autoImplicit false

namespace Chip8

open State Outcome

/-- The return addresses in use, oldest first. -/
def State.inUse (s : State) : List Int := s.stack.toList.take s.sp.toNat

/-- What an instruction at `pc` does to the list of open calls. -/
def Instruction.settle (pc : Int) (owed : List Int) : Instruction → List Int
  | .address .call _ => owed ++ [pc + 2]
  | .ret => owed.dropLast
  | _ => owed

/-- What an event does to it: only an instruction that completes does anything. -/
def Event.settle (owed : List Int) : Event → List Int
  | .completed m _ =>
    match m.state.instruction? with
    | some i => i.settle m.state.pc owed
    | none => owed
  | .failed _ _ _ | .acted _ _ _ => owed

/-- The places that calls are still to come back behind, after a history that begins with none. -/
def owed (evs : List Event) : List Int := evs.foldl Event.settle []

/-- The call at `call` and the return at `ret`, which leads to `back`, belong together: the return
is the first after the call to bring the stack to where it was before. -/
structure Returns (evs : List Event) (call ret back : Machine) : Prop where
  is_call : ∃ addr, call.state.instruction? = some (.address .call addr)
  is_ret : ret.state.instruction? = some .ret
  sp : back.state.sp = call.state.sp
  between : ∃ first within last after,
    evs = first ++ .completed call after :: (within ++ .completed ret back :: last) ∧
      ∀ ev ∈ within, ev.before.state.sp ≠ call.state.sp

/-! ## The list is the stack -/

theorem take_set_succ {α : Type} {l : List α} {n : Nat} (h : n < l.length) (v : α) :
    (l.set n v).take (n + 1) = l.take n ++ [v] := by
  have hset : n < (l.set n v).length := by rw [List.length_set]; exact h
  rw [List.take_succ_eq_append_getElem hset, List.take_set_of_le (Nat.le_refl n),
    List.getElem_set_self]

theorem dropLast_take_of_le {α : Type} {l : List α} {n : Nat} (h : n ≤ l.length) :
    (l.take n).dropLast = l.take (n - 1) := by
  rw [List.dropLast_eq_take, List.length_take, Nat.min_eq_left h, List.take_take,
    Nat.min_eq_left (Nat.sub_le n 1)]

theorem State.inUse_push {s : State} (hs : s.Valid) (hfull : s.sp ≠ stackSize) (v : Int) :
    { s with stack := s.stack.setIfInBounds s.sp.toNat v, sp := s.sp + 1 }.inUse =
      s.inUse ++ [v] := by
  obtain ⟨hnonneg, hle⟩ := hs.sp_mem
  have htop : s.sp.toNat < s.stack.toList.length := by
    rw [Array.length_toList, hs.stack_size]
    omega
  have hsucc : (s.sp + 1).toNat = s.sp.toNat + 1 := by omega
  simp only [inUse, hsucc, Array.toList_setIfInBounds, take_set_succ htop]

theorem State.inUse_pop {s : State} (hs : s.Valid) :
    { s with sp := s.sp - 1 }.inUse = s.inUse.dropLast := by
  have htop : s.sp.toNat ≤ s.stack.toList.length := by
    have hle := hs.sp_mem.2
    rw [Array.length_toList, hs.stack_size]
    omega
  have hpred : (s.sp - 1).toNat = s.sp.toNat - 1 := by omega
  simp only [inUse, hpred, dropLast_take_of_le htop]

namespace Machine

/-- The stack of a machine holds a list of return addresses, and no more. -/
structure Owes (owed : List Int) (m : Machine) : Prop where
  sound : m.Sound
  sp : m.state.sp = owed.length
  inUse : m.state.inUse = owed

theorem Owes.of_ofConfig {c : Config} {m : Machine} (h : ofConfig c = .ok m) : m.Owes [] := by
  have hsound := Sound.of_ofConfig h
  obtain ⟨-, policy, limit, rfl⟩ := ofConfig_ok h
  exact ⟨hsound, rfl, rfl⟩

/-- What is owed depends on the stack and its pointer alone. -/
theorem Owes.congr {owed : List Int} {m m' : Machine} (h : m.Owes owed) (hsound : m'.Sound)
    (hstack : m'.state.stack = m.state.stack) (hsp : m'.state.sp = m.state.sp) :
    m'.Owes owed := by
  refine ⟨hsound, hsp.trans h.sp, ?_⟩
  rw [State.inUse, hstack, hsp]
  exact h.inUse

theorem Owes.next_call {owed : List Int} {m : Machine} (h : m.Owes owed) (hf : m.fault? = none)
    {addr : Fin 4096} (hi : Instruction.fault? (.address .call addr) m.state = none)
    (hcarried : m.carried = { m with state := Instruction.effect (.address .call addr) m.state }) :
    m.next.Owes (owed ++ [m.state.pc + 2]) := by
  have hsp := h.sp
  obtain ⟨hfull, -⟩ := Instruction.of_fault?_call hi
  refine ⟨h.sound.next hf, ?_, ?_⟩
  · rw [next_sp, hcarried, List.length_append]
    show m.state.sp + 1 = _
    rw [hsp]
    rfl
  · rw [State.inUse, next_sp, next_stack, hcarried, ← h.inUse]
    exact inUse_push h.sound.valid hfull (m.state.pc + 2)

theorem Owes.next_ret {owed : List Int} {m : Machine} (h : m.Owes owed) (hf : m.fault? = none)
    (hi : Instruction.fault? .ret m.state = none)
    (hcarried : m.carried = { m with state := Instruction.effect .ret m.state }) :
    m.next.Owes owed.dropLast := by
  have hsp := h.sp
  obtain ⟨hempty, -⟩ := Instruction.of_fault?_ret hi
  refine ⟨h.sound.next hf, ?_, ?_⟩
  · rw [next_sp, hcarried, List.length_dropLast]
    show m.state.sp - 1 = _
    omega
  · rw [State.inUse, next_sp, next_stack, hcarried, ← h.inUse]
    exact inUse_pop h.sound.valid

theorem settle_ret (pc : Int) (owed : List Int) :
    Instruction.settle pc owed .ret = owed.dropLast := rfl

theorem settle_call (pc : Int) (owed : List Int) (addr : Fin 4096) :
    Instruction.settle pc owed (.address .call addr) = owed ++ [pc + 2] := rfl

/-- An instruction that moves no stack is neither of the two that the list looks for. -/
theorem settle_of_not_movesStack {i : Instruction} (hi : i.movesStack = false) (pc : Int)
    (owed : List Int) : i.settle pc owed = owed := by
  cases i with
  | ret => exact absurd hi (by decide)
  | address op addr =>
    cases op with
    | call => exact absurd hi (by simp [Instruction.movesStack])
    | jump | loadIndex | jumpOffset => rfl
  | clear | immediate | pair | draw | register => rfl

theorem Owes.next {owed : List Int} {m : Machine} (h : m.Owes owed) (hf : m.fault? = none) :
    m.next.Owes (Event.settle owed (.completed m m.next)) := by
  have hsound := h.sound.next hf
  rcases carried_cases hf with ⟨i, hinstr, hi, hcarried⟩ | ⟨hinstr, -, reason, hcarried⟩
  · rcases i.movesStack_cases with rfl | ⟨addr, rfl⟩ | hmoves
    · rw [Event.settle, hinstr]
      exact h.next_ret hf hi hcarried
    · rw [Event.settle, hinstr]
      exact h.next_call hf hi hcarried
    · have hkeeps := Instruction.write_keeps hmoves m.state
      rw [Event.settle, hinstr]
      dsimp only
      rw [settle_of_not_movesStack hmoves]
      refine h.congr hsound ?_ ?_
      · rw [next_stack, hcarried]
        exact hkeeps.stack
      · rw [next_sp, hcarried]
        exact hkeeps.sp
  · rw [Event.settle, hinstr]
    refine h.congr hsound ?_ ?_
    · rw [next_stack, hcarried]
      rfl
    · rw [next_sp, hcarried]
      rfl

theorem Owes.step {owed : List Int} {m m' : Machine} {ev : Event} (h : m.Owes owed)
    (hs : Step m ev m') : m'.Owes (ev.settle owed) := by
  cases hs with
  | completed hc =>
    obtain ⟨hf, -, rfl⟩ := of_cycle_ok h.sound.valid hc
    exact h.next hf
  | failed hc =>
    obtain ⟨-, -, -, rfl⟩ := of_cycle_error h.sound.valid hc
    exact h
  | acted a =>
    have hsound := h.sound.step (.acted a m)
    obtain ⟨memory, keys, -, -, heq⟩ := act_frame h.sound.valid a
    rw [heq] at hsound ⊢
    exact h.congr hsound rfl rfl

theorem Owes.steps {owed : List Int} {m m' : Machine} {evs : List Event} (h : m.Owes owed)
    (hs : Steps m evs m') : m'.Owes (evs.foldl Event.settle owed) :=
  hs.invariant (P := fun owed m => m.Owes owed) Owes.step h

/-! ## Which call a return belongs to -/

theorem Owes.returnAddress {owed : List Int} {a : Int} {m : Machine} (h : m.Owes (owed ++ [a])) :
    m.state.returnAddress = a := by
  have hsp : m.state.sp = owed.length + 1 := by
    rw [h.sp, List.length_append]
    rfl
  have hplace : (m.state.sp - 1).toNat = owed.length := by omega
  have hlast : m.state.inUse[owed.length]? = some a := by
    rw [h.inUse]
    exact List.getElem?_concat_length
  rw [State.inUse, List.getElem?_take_of_lt (by omega)] at hlast
  rw [State.returnAddress, hplace, Array.getD_eq_getD_getElem?, ← Array.getElem?_toList, hlast,
    Option.getD_some]

/-- An event that leaves the list longer than it was before a call leaves its beginning alone. -/
theorem settle_under {owed more : List Int} {a : Int} {ev : Event}
    (h : (ev.settle (owed ++ a :: more)).length ≠ owed.length) :
    ∃ more', ev.settle (owed ++ a :: more) = owed ++ a :: more' := by
  cases ev with
  | failed | acted => exact ⟨more, rfl⟩
  | completed m m' =>
    rw [Event.settle] at h ⊢
    cases hi : m.state.instruction? with
    | none => exact ⟨more, rfl⟩
    | some i =>
      rw [hi] at h
      dsimp only at h ⊢
      rcases i.movesStack_cases with rfl | ⟨addr, rfl⟩ | hmoves
      · cases more with
        | nil =>
          -- this is the return from the call itself
          rw [settle_ret, List.dropLast_concat] at h
          exact absurd rfl h
        | cons b more =>
          refine ⟨(b :: more).dropLast, ?_⟩
          rw [settle_ret, List.dropLast_append_cons]
          rfl
      · refine ⟨more ++ [m.state.pc + 2], ?_⟩
        rw [settle_call, List.append_assoc, List.cons_append]
      · exact ⟨more, settle_of_not_movesStack hmoves _ _⟩

theorem Steps.start_ne {m m' : Machine} {evs : List Event} {n : Int} (h : Steps m evs m')
    (hne : ∀ ev ∈ evs, ev.before.state.sp ≠ n) (hne' : m'.state.sp ≠ n) : m.state.sp ≠ n := by
  cases h with
  | nil => exact hne'
  | cons hstep hs =>
    rw [← hstep.before_eq]
    exact hne _ (List.mem_cons_self ..)

/-- As long as the stack does not come back to where it was before a call, what was owed then, and
the place behind the call, are owed still. -/
theorem Owes.under {owed : List Int} {a : Int} {m m' : Machine} {evs : List Event}
    (hs : Steps m evs m') (hne' : m'.state.sp ≠ owed.length) :
    ∀ {more}, m.Owes (owed ++ a :: more) → (∀ ev ∈ evs, ev.before.state.sp ≠ owed.length) →
      ∃ more', m'.Owes (owed ++ a :: more') := by
  induction hs with
  | nil => intro more h _; exact ⟨more, h⟩
  | cons hstep hs ih =>
    intro more h hne
    have htail := fun ev hev => hne ev (List.mem_cons_of_mem _ hev)
    have h₁ := h.step hstep
    -- what comes next starts deeper than before the call, so the first event did not return from it
    have hlen := hs.start_ne htail hne'
    rw [h₁.sp] at hlen
    obtain ⟨more₁, heq⟩ := settle_under (fun hl => hlen (congrArg Int.ofNat hl))
    rw [heq] at h₁
    exact ih hne' h₁ htail

theorem of_ret_completed {m : Machine} (hf : m.fault? = none)
    (hret : m.state.instruction? = some .ret) :
    m.state.sp ≠ 0 ∧ m.next.state.pc = m.state.returnAddress + 2 := by
  rcases carried_cases hf with ⟨i, hinstr, hi, hcarried⟩ | ⟨hinstr, -, -, -⟩
  · rw [hret] at hinstr
    injection hinstr with hinstr
    subst hinstr
    refine ⟨(Instruction.of_fault?_ret hi).1, ?_⟩
    rw [next_pc, hcarried]
    rfl
  · rw [hret] at hinstr
    exact absurd hinstr (by simp)

theorem Owes.completed_ret {owed : List Int} {m m' : Machine} (h : m.Owes owed)
    (hs : Step m (.completed m m') m') (hret : m.state.instruction? = some .ret) :
    m'.Owes owed.dropLast ∧ m.state.sp ≠ 0 ∧ m'.state.pc = m.state.returnAddress + 2 := by
  have h' := h.step hs
  rw [Event.settle, hret] at h'
  cases hs with
  | completed hc =>
    obtain ⟨hf, -, rfl⟩ := of_cycle_ok h.sound.valid hc
    exact ⟨h', of_ret_completed hf hret⟩

theorem Owes.returns {m m' : Machine} {evs : List Event} (h : m.Owes []) (hs : Steps m evs m')
    {call ret back : Machine} (hr : Returns evs call ret back) :
    back.state.pc = call.state.pc + 4 ∧ back.state.inUse = call.state.inUse := by
  obtain ⟨first, within, last, after, rfl, hwithin⟩ := hr.between
  obtain ⟨addr, hcall⟩ := hr.is_call
  obtain ⟨m₁, hfirst, hs⟩ := Steps.of_append first hs
  obtain ⟨m₂, hin, hs⟩ := Steps.of_cons hs
  obtain ⟨m₃, hbetween, hs⟩ := Steps.of_append within hs
  obtain ⟨m₄, hout, -⟩ := Steps.of_cons hs
  obtain rfl : call = m₁ := hin.before_eq
  obtain rfl : after = m₂ := hin.after_eq
  obtain rfl : ret = m₃ := hout.before_eq
  obtain rfl : back = m₄ := hout.after_eq
  generalize howed : first.foldl Event.settle [] = before at *
  have hbefore : call.Owes before := howed ▸ h.steps hfirst
  have hopen : after.Owes (before ++ [call.state.pc + 2]) := by
    have hstep := hbefore.step hin
    rw [Event.settle, hcall] at hstep
    exact hstep
  -- the return leaves the stack one shorter, so it was deeper than before the call until then
  have hdeep : ret.state.sp ≠ before.length := by
    obtain ⟨hback, hempty, -⟩ := (hopen.steps hbetween).completed_ret hout hr.is_ret
    have hsp := hback.sp
    rw [hr.sp, hbefore.sp, List.length_dropLast] at hsp
    rw [(hopen.steps hbetween).sp] at hempty ⊢
    omega
  have hwithin' : ∀ ev ∈ within, ev.before.state.sp ≠ before.length := by
    rw [← hbefore.sp]
    exact hwithin
  obtain ⟨more, hlast⟩ := Owes.under hbetween hdeep hopen hwithin'
  obtain ⟨hback, -, hpc⟩ := hlast.completed_ret hout hr.is_ret
  -- and the list after it is one shorter, so the list before it ended in the place behind the call
  obtain rfl : more = [] := by
    have hsp := hback.sp
    rw [hr.sp, hbefore.sp, List.length_dropLast, List.length_append, List.length_cons] at hsp
    exact List.eq_nil_of_length_eq_zero (by omega)
  constructor
  · rw [hpc, hlast.returnAddress]
    omega
  · rw [hback.inUse, hbefore.inUse, List.dropLast_concat]

/-- **The stack is the list of open calls.** Whatever host and program do, the stack of a machine
that began as a new one holds, below its pointer, the places that the calls made and not yet
returned from are to come back behind. So a return goes to two behind the end of the call it belongs
to, and leaves the stack as it was before that call. -/
theorem call_stack_discipline {c : Config} {m : Machine} (h : ofConfig c = .ok m)
    (calls : List HostCall) :
    ((m.afterCalls calls).state.sp = (owed (m.events calls)).length ∧
      (m.afterCalls calls).state.inUse = owed (m.events calls) ∧
      0 ≤ (m.afterCalls calls).state.sp ∧ (m.afterCalls calls).state.sp ≤ 16) ∧
    ∀ {call ret back : Machine}, Returns (m.events calls) call ret back →
      back.state.pc = call.state.pc + 4 ∧ back.state.sp = call.state.sp ∧
        back.state.inUse = call.state.inUse := by
  have hnew := Owes.of_ofConfig h
  have hsteps := steps_events calls m
  have hend := hnew.steps hsteps
  constructor
  · exact ⟨hend.sp, hend.inUse, hend.sound.valid.sp_mem⟩
  · intro call ret back hr
    obtain ⟨hpc, hinUse⟩ := hnew.returns hsteps hr
    exact ⟨hpc, hr.sp, hinUse⟩

/-- A program that calls over a gap of two words, and returns at once. -/
def detour : Array UInt8 := #[0x22, 0x06, 0x00, 0x00, 0x00, 0x00, 0x00, 0xEE]

def detoured : Machine := { standard with state := standard.state.loaded detour }

def detourCalls : List HostCall := [.act (.load detour), .cycle, .cycle]

theorem detour_fits : detour.size ≤ maxProgramSize := by decide

theorem detoured_valid : detoured.state.Valid := loaded_valid standard_valid detour_fits

theorem left_load_detour : left (HostAct.action (.load detour) standard) = detoured :=
  left_load _ detour_fits

theorem detoured_word : detoured.state.word = (Instruction.address .call 0x206).encode.word := by
  have hword : detoured.state.word = 256 * 0x22 + 0x06 :=
    word_loaded detour 0 standard_valid.memory_size detour_fits (by decide) rfl rfl
  rw [hword]
  decide

/-- The call has left memory alone and gone to the return. -/
theorem detoured_next : detoured.next.state.memory = detoured.state.memory ∧
    detoured.next.state.pc = 0x206 ∧ detoured.next.state.sp = 1 ∧
    detoured.next.state.stack = detoured.state.stack.setIfInBounds 0 0x202 := by
  obtain ⟨_, _, _, _, heq⟩ := next_frame_of_word detoured_word
  rw [heq]
  exact ⟨rfl, rfl, rfl, rfl⟩

theorem detoured_next_word : detoured.next.state.word = Instruction.ret.encode.word := by
  obtain ⟨hmem, hpc, -⟩ := detoured_next
  have hword : detoured.next.state.word = 256 * 0x00 + 0xEE :=
    word_loaded detour 6 standard_valid.memory_size detour_fits (by decide) hmem hpc
  rw [hword]
  decide

theorem cycle_detoured : cycle detoured = .ok detoured.entry? detoured.next ∧
    cycle detoured.next = .ok detoured.next.entry? detoured.next.next := by
  obtain ⟨-, hpc, hsp, hstack⟩ := detoured_next
  have hfirst : cycle detoured = .ok detoured.entry? detoured.next :=
    cycle_of_word detoured_valid (by decide) detoured_word rfl
  refine ⟨hfirst, cycle_of_word ?_ ?_ detoured_next_word ?_⟩
  · exact next_valid detoured_valid (of_cycle_ok detoured_valid hfirst).1
  · rw [hpc]
    decide
  · rw [Instruction.fault?, hsp, returnAddress, hsp, hstack]
    rfl

theorem returns_detour :
    Returns (standard.events detourCalls) detoured detoured.next detoured.next.next where
  is_call := ⟨0x206, instruction?_iff_word.mpr detoured_word⟩
  is_ret := instruction?_iff_word.mpr detoured_next_word
  sp := by
    obtain ⟨_, _, _, _, heq⟩ := next_frame_of_word detoured_next_word
    rw [heq]
    show detoured.next.state.sp - 1 = 0
    rw [detoured_next.2.2.1]
    rfl
  between := by
    obtain ⟨hcall, hret⟩ := cycle_detoured
    have hload : standard.afterCall (.act (.load detour)) = detoured := left_load_detour
    refine ⟨[.acted (.load detour) standard detoured], [], [], detoured.next, ?_, ?_⟩
    · rw [detourCalls, events, hload, callEvents, left_load_detour, events, callEvents_cycle hcall,
        afterCall_cycle hcall, events, callEvents_cycle hret]
      rfl
    · intro ev hev
      exact absurd hev (by simp)

theorem call_stack_discipline_detour :
    (standard.afterCalls detourCalls).state.inUse = owed (standard.events detourCalls) ∧
      detoured.next.next.state.pc = detoured.state.pc + 4 :=
  have h := call_stack_discipline ofConfig_default detourCalls
  ⟨h.1.2.1, (h.2 returns_detour).1⟩

end Machine

end Chip8
