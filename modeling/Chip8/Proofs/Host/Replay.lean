import Chip8.Proofs.Host.Trace
import Chip8.Proofs.Machine.Changes

/-!
# The text of a trace can be replayed

With the text of a trace and no machine the registers can be followed: the text is cut into lines,
those that are not lines of changes are passed over, and the value after each change is taken up
(`RegisterFile.replay`). That this leads to where the program has led the machine takes three
things. A line of changes is read back, however many digits the index takes; each entry lists all
that its cycle has changed; and each entry begins as the one before it has ended, whatever the host
has done between the two. A trace with a limit forgets its beginning, and so what is left of it is
to be followed from where its first entry begins:

> **the text leads from the registers before the first entry to those after the last**
> (`Machine.trace_replayed`).
-/

set_option autoImplicit false

namespace Chip8

open Text Text.Numeral Mnemonic

/-! ## Reading a text -/

namespace RegisterFile

/-- Stores a value in the place with a name, as a line of changes has them. -/
def assign (f : RegisterFile) (name value : List Char) : RegisterFile :=
  match name, hex? value with
  | ['V', d, ':'], some n =>
    { f with registers := f.registers.setIfInBounds (digitValue d) (UInt8.ofNat n.toNat) }
  | ['I', ':'], some n => { f with index := n }
  | _, _ => f

/-- Takes up changes of four words each: a name, the value before, an arrow, and the value after. -/
def assignAll (f : RegisterFile) : List (List Char) → RegisterFile
  | name :: _ :: _ :: value :: words => (f.assign name value).assignAll words
  | _ => f

theorem assign_register (f : RegisterFile) (d : Char) {value : List Char} {n : Int}
    (h : hex? value = some n) : f.assign ['V', d, ':'] value =
      { f with
        registers := f.registers.setIfInBounds (digitValue d) (UInt8.ofNat n.toNat) } := by
  simp only [assign, h]

theorem assign_index (f : RegisterFile) {value : List Char} {n : Int} (h : hex? value = some n) :
    f.assign ['I', ':'] value = { f with index := n } := by
  simp only [assign, h]

theorem assignAll_cons (f : RegisterFile) (name before arrow value : List Char)
    (words : List (List Char)) :
    f.assignAll (name :: before :: arrow :: value :: words) =
      (f.assign name value).assignAll words := rfl

/-- Follows one line. Other lines than those of changes say nothing of the registers. -/
def follow (f : RegisterFile) (line : List Char) : RegisterFile :=
  match fields isGap line with
  | word :: words => if word = "Changes:".toList then f.assignAll words else f
  | [] => f

/-- Follows the lines of a text. -/
def replay (f : RegisterFile) (text : String) : RegisterFile :=
  (splitAt '\n' text.toList).foldl follow f

end RegisterFile

/-! ## Lines of changes are read back -/

theorem words_padded (width : Nat) (n : Int) :
    words (Hex.padded width n) = [(Hex.padded width n).toList] := by
  have hwritten := written_padded width n
  exact words_of_isField
    ⟨hwritten.ne_nil, fun c hc => not_gap_of_inside (hwritten.inside c hc)⟩

/-- The words of a change with this name. -/
theorem words_change (name : String) (width : Nat) (i j : Int) :
    words (name ++ ": " ++ Hex.padded width i ++ " -> " ++ Hex.padded width j) =
      words (name ++ ":") ++
        [(Hex.padded width i).toList, "->".toList, (Hex.padded width j).toList] := by
  have htext : name ++ ": " ++ Hex.padded width i ++ " -> " ++ Hex.padded width j =
      name ++ ":" ++ " " ++ Hex.padded width i ++ " " ++ "->" ++ " " ++ Hex.padded width j := by
    have hcolon : (": " : String) = ":" ++ " " := by decide
    have harrow : (" -> " : String) = " " ++ "->" ++ " " := by decide
    simp only [hcolon, harrow, String.append_assoc]
  have harrow : words "->" = ["->".toList] := by decide
  rw [htext, words_append_gap _ (by decide) (by decide), words_append_gap _ (by decide) (by decide),
    words_append_gap _ (by decide) (by decide), words_padded, words_padded, harrow]
  simp only [List.append_assoc, List.cons_append, List.nil_append]

theorem words_registerName {x : Nat} (hx : x < registerCount) :
    words (registerName x ++ ":") = [['V', Hex.digit x, ':']] ∧
      digitValue (Hex.digit x) = x := by
  have hread : ∀ x < registerCount,
      fields isGap ['V', Hex.digit x, ':'] = [['V', Hex.digit x, ':']] ∧
        digitValue (Hex.digit x) = x := by decide
  rw [words, String.toList_append, toList_registerName hx]
  exact hread x hx

/-- The change is one of a register that there is, or of the index. -/
def Change.Named : Change → Prop
  | .register x _ _ => x < registerCount
  | .index _ _ => True

theorem Lists.named {cs : List Change} {f g : RegisterFile} (h : Lists cs f g)
    (hsize : f.registers.size = registerCount) : ∀ c ∈ cs, c.Named := by
  intro c hc
  cases c with
  | register x v w =>
    obtain ⟨hx, -⟩ := Array.getElem?_eq_some_iff.mp ((h.register x v w).mp hc).1
    rw [hsize] at hx
    exact hx
  | index i j => trivial

variable {cs : List Change} {e : TraceEntry}

theorem words_register {x : Nat} (hx : x < registerCount) (v w : UInt8) :
    words (Change.text (.register x v w)) =
      [['V', Hex.digit x, ':'], (Hex.byte v).toList, "->".toList, (Hex.byte w).toList] := by
  rw [Change.text, Hex.byte, Hex.byte, words_change, (words_registerName hx).1,
    List.singleton_append]

theorem words_index (i j : Int) : words (Change.text (.index i j)) =
    [['I', ':'], (Hex.padded 3 i).toList, "->".toList, (Hex.padded 3 j).toList] := by
  have hname : ("I: " : String) = "I" ++ ": " := by decide
  have hword : words ("I" ++ ":") = [['I', ':']] := by decide
  rw [Change.text, hname, words_change, hword, List.singleton_append]

/-- The words of a change, read, make the change. -/
theorem assignAll_change {c : Change} (hc : c.Named) (f : RegisterFile)
    (rest : List (List Char)) :
    f.assignAll (words c.text ++ rest) = (c.make f).assignAll rest := by
  cases c with
  | register x v w =>
    have hvalue : hex? (Hex.byte w).toList = some (w.toNat : Int) :=
      hex?_of_written (written_padded 2 _)
    rw [words_register hc, List.cons_append, List.cons_append, List.cons_append,
      List.singleton_append, RegisterFile.assignAll_cons, RegisterFile.assign_register f _ hvalue,
      (words_registerName hc).2, Int.toNat_natCast, UInt8.ofNat_toNat, Change.make]
  | index i j =>
    have hvalue : hex? (Hex.padded 3 j).toList = some j := hex?_of_written (written_padded 3 j)
    rw [words_index, List.cons_append, List.cons_append, List.cons_append,
      List.singleton_append, RegisterFile.assignAll_cons, RegisterFile.assign_index f hvalue,
      Change.make]

theorem words_intercalate : ∀ ts : List String, words (", ".intercalate ts) = ts.flatMap words
  | [] => rfl
  | [t] => by
    rw [String.intercalate_singleton, List.flatMap_singleton]
  | t :: t' :: ts => by
    rw [String.intercalate_cons_cons, words_append_gap _ (by decide) (by decide),
      words_intercalate (t' :: ts)]
    rfl

theorem assignAll_changes (hcs : ∀ c ∈ cs, c.Named) : ∀ f : RegisterFile,
    f.assignAll ((cs.map Change.text).flatMap words) = cs.foldl Change.make f := by
  induction cs with
  | nil => exact fun _ => rfl
  | cons c cs ih =>
    intro f
    obtain ⟨hc, hcs⟩ := List.forall_mem_cons.mp hcs
    rw [List.map_cons, List.flatMap_cons, assignAll_change hc, ih hcs]
    rfl

/-- **A line of changes makes the changes.** -/
theorem follow_changesLine (hcs : ∀ c ∈ cs, c.Named) (f : RegisterFile) :
    f.follow (changesLine cs).toList = cs.foldl Change.make f := by
  have hstart : words "    Changes: " = ["Changes:".toList] := by decide
  have hwords : fields isGap (changesLine cs).toList =
      "Changes:".toList :: (cs.map Change.text).flatMap words := by
    show words ("    Changes: " ++ ", ".intercalate (cs.map Change.text)) = _
    rw [words_append_of_getLast (by decide), hstart, words_intercalate, List.singleton_append]
  rw [RegisterFile.follow, hwords]
  dsimp only
  rw [if_pos rfl, assignAll_changes hcs]

/-- The first line of an entry begins with the number of the cycle. -/
theorem follow_header (e : TraceEntry) (f : RegisterFile) : f.follow e.header.toList = f := by
  have hstart : words "[Cycle " = ["[Cycle".toList] := by decide
  obtain ⟨tail, htail⟩ : ∃ tail, e.header = "[Cycle " ++ tail := by
    unfold TraceEntry.header
    simp only [String.append_assoc]
    exact ⟨_, rfl⟩
  have hwords : fields isGap e.header.toList = "[Cycle".toList :: words tail := by
    show words e.header = _
    rw [htail, words_append_of_getLast (by decide), hstart, List.singleton_append]
  rw [RegisterFile.follow, hwords]
  dsimp only
  rw [if_neg (by decide)]

/-! ## Entry by entry -/

/-- The lines of an entry lead from what was before it to what was after it. -/
theorem TraceEntry.Shown.follow {ls : List String} (h : e.Shown ls) (hsized : e.Sized) :
    (ls.map String.toList).foldl RegisterFile.follow e.before.file = e.after.file := by
  cases h with
  | still hsame => rw [hsame, List.map_singleton, List.foldl_cons, List.foldl_nil, follow_header]
  | moved _ hcs =>
    rw [List.map_cons, List.map_singleton, List.foldl_cons, List.foldl_cons, List.foldl_nil,
      follow_header, follow_changesLine (hcs.named hsized.before),
      hcs.made (hsized.before.trans hsized.after.symm)]

/-- The lines of entries that begin where the ones before them end lead from the first beginning to
the last end. -/
theorem follow_entries {es : List TraceEntry} (hsized : ∀ e ∈ es, e.Sized)
    (hchain : es.IsChain fun e e' => e.after = e'.before) :
    ∀ first ∈ es.head?, ∀ last ∈ es.getLast?,
      ((es.flatMap TraceEntry.lines).map String.toList).foldl RegisterFile.follow
        first.before.file = last.after.file := by
  induction es with
  | nil => rintro first ⟨⟩
  | cons e es ih =>
    obtain ⟨he, hes⟩ := List.forall_mem_cons.mp hsized
    intro first hfirst last hlast
    obtain rfl : e = first := Option.some.inj hfirst
    rw [List.flatMap_cons, List.map_append, List.foldl_append, he.shown.follow he]
    cases es with
    | nil =>
      obtain rfl : e = last := Option.some.inj hlast
      rfl
    | cons e' es =>
      obtain ⟨hlink, hrest⟩ := List.isChain_cons_cons.mp hchain
      rw [List.getLast?_cons_cons] at hlast
      rw [hlink]
      exact ih hes hrest e' rfl last hlast

/-! ## Traces -/

/-- What the text of a trace is. -/
structure Trace.Printed (t : Trace) : Prop where
  /-- It has lines for each entry, in order, and no others. -/
  sections : ∃ sections, List.Forall₂ TraceEntry.Shown t.entries.toList sections ∧
    t.text = "\n".intercalate sections.flatten ∧ ∀ line ∈ sections.flatten, OneLine line
  /-- It leads from the file before the first entry to the file after the last. -/
  replayed : ∀ first ∈ t.entries.toList.head?, ∀ last ∈ t.entries.toList.getLast?,
    first.before.file.replay t.text = last.after.file

theorem Trace.printed {t : Trace} (hsized : ∀ e ∈ t.entries.toList, e.Sized)
    (hchain : t.entries.toList.IsChain fun e e' => e.after = e'.before) : t.Printed := by
  have hshown : List.Forall₂ TraceEntry.Shown t.entries.toList
      (t.entries.toList.map TraceEntry.lines) :=
    List.forall₂_map_right_iff.mpr (List.forall₂_same.mpr fun e he => (hsized e he).shown)
  have hlines : ∀ line ∈ t.entries.toList.flatMap TraceEntry.lines, OneLine line := by
    intro line hline
    obtain ⟨e, he, hmem⟩ := List.mem_flatMap.mp hline
    exact (hsized e he).shown.oneLine line hmem
  refine ⟨⟨_, hshown, rfl, hlines⟩, fun first hfirst last hlast => ?_⟩
  have hne : t.entries.toList.flatMap TraceEntry.lines ≠ [] := by
    have hmem := List.mem_of_mem_head? hfirst
    obtain ⟨line, hline⟩ := first.exists_mem_lines
    exact List.ne_nil_of_mem (List.mem_flatMap.mpr ⟨first, hmem, hline⟩)
  rw [RegisterFile.replay, splitAt_eq_splitOn, Trace.text, splitOn_intercalate_lines hne hlines]
  exact follow_entries hsized hchain first hfirst last hlast

namespace Machine

open State

variable {m m' : Machine} {evs : List Event}

/-- The entries of a history are of machines with all their registers. -/
theorem Steps.sized (hs : Steps m evs m') (hv : m.state.Valid) : ∀ e ∈ chronicle evs, e.Sized := by
  intro e he
  obtain ⟨⟨w, w'⟩, hmem, rfl⟩ := List.mem_map.mp he
  obtain ⟨rfl, hbefore, hafter⟩ := hs.completed_valid hv hmem
  refine ⟨hbefore.registers_size, ?_⟩
  rw [entry_after]
  exact hafter.registers_size

/-- **The text of a trace can be replayed.** The trace of a machine that began as a new one keeps
the entries of the last completed cycles, as many as its limit allows, whatever the host has done
between them. Its text has for each of them a header, and a line with all that the cycle has changed
of the registers and the index if that is anything. And whoever starts with the registers and the
index before the first of these cycles and takes up the values in the lines of changes has in the
end the registers and the index after the last. -/
theorem trace_replayed {c : Config} {m : Machine} (h : ofConfig c = .ok m) (ht : c.tracing = true)
    (calls : List HostCall) :
    List.Forall₂ (fun (e : TraceEntry) (w : Machine × Machine) =>
        e.before = w.1.state.snapshot ∧ e.after = w.2.state.snapshot)
      (m.afterCalls calls).trace.entries.toList
      (latest (c.traceLimit.map Int.toNat) (completions (m.events calls))) ∧
    (m.afterCalls calls).trace.Printed := by
  have hv := (Sound.of_ofConfig h).valid
  have hs := steps_events calls m
  have hentries := (hs.holds hv (.of_ofConfig h ht)).entries
  rw [List.nil_append] at hentries
  have hkept := latest_suffix (c.traceLimit.map Int.toNat) (chronicle (m.events calls))
  constructor
  · rw [hentries, chronicle, latest_map, List.forall₂_map_left_iff, List.forall₂_same]
    rintro ⟨w, w'⟩ hmem
    obtain ⟨rfl, -⟩ := hs.completed_valid hv ((latest_suffix _ _).mem hmem)
    exact ⟨rfl, entry_after w⟩
  · apply Trace.printed
    · rw [hentries]
      exact fun e he => hs.sized hv e (hkept.mem he)
    · rw [hentries]
      exact (hs.chained hv).1.suffix hkept

/-- A program that sets a register and then the index. -/
def setting : Array UInt8 := #[0x6A, 0x2B, 0xA1, 0x23]

/-- A machine with a trace of all its cycles. -/
def noting : Machine := .new defaultTimerResolution .refuse true none (.ofBytes #[])

def noted : Machine := { noting with state := noting.state.loaded setting }

def settingCalls : List HostCall := [.act (.load setting), .cycle, .cycle]

theorem setting_fits : setting.size ≤ maxProgramSize := by decide

theorem noting_valid : noting.state.Valid := initial_valid (.ofBytes #[])

theorem noted_valid : noted.state.Valid := loaded_valid noting_valid setting_fits

theorem noted_word : noted.state.word = (Instruction.immediate .load 0xA 0x2B).encode.word := by
  have hword : noted.state.word = 256 * 0x6A + 0x2B :=
    word_loaded setting 0 noting_valid.memory_size setting_fits (by decide) rfl rfl
  rw [hword]
  decide

theorem noted_next : noted.next.state.memory = noted.state.memory ∧ noted.next.state.pc = 0x202 ∧
    noted.next.state.registers = (Array.replicate registerCount 0).setIfInBounds 0xA 0x2B := by
  obtain ⟨_, _, _, _, heq⟩ := next_frame_of_word noted_word
  rw [heq]
  exact ⟨rfl, rfl, rfl⟩

theorem noted_next_word :
    noted.next.state.word = (Instruction.address .loadIndex 0x123).encode.word := by
  obtain ⟨hmem, hpc, -⟩ := noted_next
  have hword : noted.next.state.word = 256 * 0xA1 + 0x23 :=
    word_loaded setting 2 noting_valid.memory_size setting_fits (by decide) hmem hpc
  rw [hword]
  decide

/-- Time does not touch the file. -/
theorem next_file_of_word {i : Instruction} (hw : m.state.word = i.encode.word) :
    m.next.state.snapshot.file = (i.effect m.state).snapshot.file := by
  obtain ⟨_, _, _, _, heq⟩ := next_frame_of_word hw
  rw [heq]
  rfl

theorem noted_next_next : noted.next.next.state.snapshot.file =
    ⟨(Array.replicate registerCount 0).setIfInBounds 0xA 0x2B, 0x123⟩ := by
  have heffect (s : State) : ((Instruction.address .loadIndex 0x123).effect s).snapshot.file =
      ⟨s.registers, 0x123⟩ := rfl
  obtain ⟨-, -, hregisters⟩ := noted_next
  rw [next_file_of_word noted_next_word, heffect, hregisters]

theorem completions_setting : completions (noting.events settingCalls) =
    [(noted, noted.next), (noted.next, noted.next.next)] := by
  have hload : left (HostAct.action (.load setting) noting) = noted := left_load _ setting_fits
  have hcall : noting.afterCall (.act (.load setting)) = noted := hload
  have hfirst : cycle noted = .ok noted.entry? noted.next :=
    cycle_of_word noted_valid (by decide) noted_word rfl
  have hsecond : cycle noted.next = .ok noted.next.entry? noted.next.next := by
    obtain ⟨-, hpc, -⟩ := noted_next
    refine cycle_of_word ?_ ?_ noted_next_word ?_
    · exact next_valid noted_valid (of_cycle_ok noted_valid hfirst).1
    · rw [hpc]
      decide
    · show overrun? (noted.next.state.pc + 2) = none
      rw [hpc]
      rfl
  rw [settingCalls, events, hcall, callEvents, hload, events, callEvents_cycle hfirst,
    afterCall_cycle hfirst, events, callEvents_cycle hsecond, events]
  -- `rfl` would look for the answer in the machines
  simp only [completions, List.cons_append, List.nil_append, List.filterMap_cons,
    List.filterMap_nil]

/-- From the text alone, zeros become what the program has set. -/
theorem trace_replayed_setting :
    (RegisterFile.mk (.replicate registerCount 0) 0).replay
        (noting.afterCalls settingCalls).trace.text =
      ⟨(Array.replicate registerCount 0).setIfInBounds 0xA 0x2B, 0x123⟩ := by
  have h : ofConfig { tracing := true, traceLimit := none } = .ok noting := rfl
  obtain ⟨hkept, hprinted⟩ := trace_replayed h rfl settingCalls
  have hlatest : latest (none : Option Nat) (completions (noting.events settingCalls)) =
      [(noted, noted.next), (noted.next, noted.next.next)] := completions_setting
  rw [Option.map_none, hlatest] at hkept
  obtain ⟨first, _, ⟨hbefore, -⟩, hrest, hentries⟩ := List.forall₂_cons_right_iff.mp hkept
  obtain ⟨last, _, ⟨-, hafter⟩, hnone, rfl⟩ := List.forall₂_cons_right_iff.mp hrest
  obtain rfl := List.forall₂_nil_right_iff.mp hnone
  have hreplayed := hprinted.replayed first (by rw [hentries]; rfl) last (by rw [hentries]; rfl)
  have hstart : first.before.file = ⟨.replicate registerCount 0, 0⟩ := by
    rw [hbefore]
    rfl
  rw [← hstart, hreplayed, hafter, noted_next_next]

end Machine

end Chip8
