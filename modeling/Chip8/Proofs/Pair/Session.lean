import Chip8.Session
import Chip8.Proofs.CommandLine.Report
import Chip8.Proofs.CommandLine.Settings
import Chip8.Proofs.Host.Trace
import Chip8.Proofs.Pair.Policy
import Chip8.Proofs.Pair.Watching

/-!
# A session and a command line show the same run

A session and the command line are two ways to the same machine: each has its own reader of
programs, its own table of keys and its own way to show what has happened, and they keep traces of
different lengths. `Session.Matches` says that for one program, some keys, a number of cycles and a
seed they show the same run, in all that both of them show, and it holds for all that the command
line can be asked for (`Session.matches_commandLine`).

What a session can be asked for and a command line cannot are numbers of cycles and seeds with more
decimal digits than a numeral may have (`Session.not_matches_of_long_seed`). Everything else about
the two is the same because their machines are twins and only forget at different times
(`Machine.Twin.play`).
-/

set_option autoImplicit false

namespace Chip8

open Text Outcome

namespace Machine

variable {m m' w : Machine} {limit limit' : Option Nat} {l : List TraceEntry}

/-! ## Twins with traces -/

theorem Twin.carried (h : Twin m m') : Twin m.carried m'.carried := by
  unfold Machine.carried behind
  rw [h.state]
  cases m.state.opcode.decode with
  | ok i => exact { h with state := rfl }
  | error reason =>
    exact { h with
      state := rfl
      skips := congrArg (·.push ⟨m.state.opcode, reason⟩) h.skips }

/-- Twins ask for the same entry. -/
theorem Twin.entry (h : Twin m m') : m'.entry = m.entry := by
  have hcount := h.carried.count.state
  unfold Machine.entry skip?
  rw [hcount, h.state]

/-- A cycle that fails on a machine fails on its twin, and changes neither. -/
theorem Twin.cycle_error {e : Error} (h : Twin m m') (hv : m.state.Valid)
    (hf : Machine.cycle m = .error e m) : Machine.cycle m' = .error e m' := by
  have hcycle := h.cycle
  rw [hf] at hcycle
  cases hc' : Machine.cycle m' with
  | ok entry v =>
    rw [hc'] at hcycle
    cases hcycle
  | error e' v =>
    rw [hc'] at hcycle
    cases hcycle
    obtain ⟨-, -, -, rfl⟩ := of_cycle_error (by rwa [h.state]) hc'
    rfl

/-- Cycles that complete on a machine complete on its twin, and whatever else their traces have
forgotten, they have been told the same. -/
theorem Completes.twin {n : Nat} (h : Completes n m w) : ∀ {m' : Machine} {l : List TraceEntry},
    m.state.Valid → Twin m m' → m.Holds limit l → m'.Holds limit' l →
      ∃ w' l', Completes n m' w' ∧ Twin w w' ∧ w.Holds limit l' ∧ w'.Holds limit' l' ∧
        l'.length = l.length + n := by
  induction h with
  | zero =>
    intro m' l _ ht hm hm'
    exact ⟨m', l, .zero m', ht, hm, hm', rfl⟩
  | @succ n m w₁ w entry hc _ ih =>
    intro m' l hv ht hm hm'
    obtain ⟨hf, -, rfl⟩ := of_cycle_ok hv hc
    have hcycle := ht.cycle
    rw [hc] at hcycle
    cases hc' : cycle m' with
    | error e w₁' =>
      rw [hc'] at hcycle
      cases hcycle
    | ok entry' w₁' =>
      rw [hc'] at hcycle
      have hv' : m'.state.Valid := by rwa [ht.state]
      obtain ⟨-, -, rfl⟩ := of_cycle_ok hv' hc'
      have htwin : Twin m.next m'.next := hcycle.left
      have hnext' := hm'.next
      rw [ht.entry] at hnext'
      obtain ⟨w', l', hs, hw, hl, hl', hlength⟩ := ih (next_valid hv hf) htwin hm.next hnext'
      refine ⟨w', l', .succ hc' hs, hw, hl, hl', ?_⟩
      rw [hlength, List.length_append, List.length_singleton]
      omega

/-- A machine that refuses words has none to note. -/
theorem skip?_of_refuse (hrefuse : m.onInvalid = .refuse) (hf : m.fault? = none) :
    m.skip? = none := by
  have hroom := room_of_fault? hf
  rw [fault?, if_neg (by omega)] at hf
  rw [skip?]
  cases hd : m.state.opcode.decode with
  | ok i => rfl
  | error reason =>
    rw [hd] at hf
    dsimp only at hf
    rw [refusal?, hrefuse] at hf
    cases hf

theorem Completes.skips {n : Nat} (h : Completes n m w) (hv : m.state.Valid)
    (hrefuse : m.onInvalid = .refuse) : w.skips = m.skips := by
  induction h with
  | zero => rfl
  | succ hc _ ih =>
    obtain ⟨hf, -, rfl⟩ := of_cycle_ok hv hc
    rw [ih (next_valid hv hf) ((next_onInvalid _).trans hrefuse), ← Array.toList_inj, next_skips,
      skip?_of_refuse hrefuse hf]
    exact List.append_nil _

/-- **Twins that play the same program come to the same end.** -/
theorem Twin.play (h : Twin m m') (hv : m.state.Valid) (hm : m.Holds limit [])
    (hm' : m'.Holds limit' []) (hrefuse : m.onInvalid = .refuse) (program : Array UInt8)
    {pins : List Nat} (hpins : ∀ pin ∈ pins, pin < keyCount) (cycles : Int) :
    ∃ failure w w' l, Machine.play program pins cycles m = outcome failure w ∧
      Machine.play program pins cycles m' = outcome failure w' ∧ w.state.Valid ∧ Twin w w' ∧
      w.Holds limit l ∧ w'.Holds limit' l ∧
      w.state.cycleCount = m.state.cycleCount + l.length ∧ w.skips = m.skips := by
  have hv' : m'.state.Valid := by rwa [h.state]
  have hstarted : Twin (m.started program pins) (m'.started program pins) :=
    { h with state := by rw [started, started, h.state] }
  have hstart : (m.started program pins).Holds limit [] := { hm with }
  have hstart' : (m'.started program pins).Holds limit' [] := { hm' with }
  have hend := played hv program hpins cycles
  generalize hplay : Machine.play program pins cycles m = r at hend
  cases hend with
  | tooLarge hroom =>
    exact ⟨some (.fault (.programTooLarge program.size maxProgramSize)), m, m', [], rfl,
      play_of_no_room hroom cycles, hv, h, hm, hm', (Int.add_zero _).symm, rfl⟩
  | @completed w hroom hall =>
    have hvs := started_valid hv hroom pins
    obtain ⟨w', l, hall', hw, hl, hl', hlength⟩ := hall.twin hvs hstarted hstart hstart'
    refine ⟨none, w, w', l, rfl, ?_, hall.valid hvs, hw, hl, hl', ?_, hall.skips hvs hrefuse⟩
    · rw [play_of_room hv' hpins hroom]
      exact (run_eq_ok_iff _).mpr hall'
    · rw [hall.cycleCount hvs, hlength, List.length_nil, Nat.zero_add]
      rfl
  | @failed k w f hroom hk hbefore hf =>
    have hvs := started_valid hv hroom pins
    obtain ⟨w', l, hbefore', hw, hl, hl', hlength⟩ := hbefore.twin hvs hstarted hstart hstart'
    have hf' := hw.cycle_error (hbefore.valid hvs) hf
    refine ⟨some (.fault f), w, w', l, rfl, ?_, hbefore.valid hvs, hw, hl, hl', ?_,
      hbefore.skips hvs hrefuse⟩
    · rw [play_of_room hv' hpins hroom]
      exact (run_eq_error_iff _).mpr ⟨k, hk, w', hbefore', hf'⟩
    · rw [hbefore.cycleCount hvs, hlength, List.length_nil, Nat.zero_add]
      rfl

end Machine

namespace Session

open CommandLine

/-! ## What it means to show the same run -/

/-- The command line that asks for what a session is asked for, and for the trace. -/
def commandLine (s : Session) : List String := [
  "--inline=" ++ s.listing,
  "--cycles=" ++ toString s.cycles,
  "--keys=" ++ ",".intercalate s.keys,
  "--seed=" ++ toString s.seed,
  "--trace"]

/-- The machine that this command line starts. -/
def lineMachine (seed : Int) : Machine :=
  .new defaultTimerResolution .refuse true (some defaultTraceLimit) (.ofSeed seed)

/-- The answer `r` of the command line and the report `p` of the session are of the same run. It
completed `k` cycles, ended in `failure` if it failed, and left the machine `m` on the command line
and `m'` in the session. -/
structure SameRun (r : Response) (p : Report) (size k : Nat) (failure : Option Error)
    (m m' : Machine) : Prop where
  state : m'.state = m.state
  count : m.state.cycleCount = k
  status : r.status = if failure.isSome then 1 else 0
  out : r.out = unlines (errorLines "Execution error: " failure ++ [m.trace.text, ""] ++
    screenLines m ++ [
      "",
      "Cycles: " ++ toString k,
      "PC: " ++ Hex.address m.state.pc ++ "  I: " ++ Hex.address m.state.index ++
        "  SP: " ++ toString m.state.sp,
      "DT: " ++ toString m.state.delayTimer ++ "  ST: " ++ toString m.state.soundTimer,
      "Registers: " ++ m.state.registersText])
  summary : p.summary = "\n".intercalate ([
      "EXECUTION SUMMARY",
      rule 40,
      "Program size: " ++ toString size ++ " bytes",
      "Cycles: " ++ toString k,
      "PC: " ++ Hex.address m.state.pc,
      "Pixels on: " ++ toString (m.state.pixels.countP id),
      "Sound: " ++ if m.sounding then "on" else "off"] ++ errorLines "\nRuntime: " failure)
  registers : p.registers = "\n".intercalate (["FINAL REGISTERS", rule 30] ++
    m.state.dumpRegisters.map (fun (name, v) => registerLine name v) ++ [
      "",
      "  I:  " ++ Hex.address m.state.index,
      "  SP: " ++ toString m.state.sp,
      "  DT: " ++ toString m.state.delayTimer,
      "  ST: " ++ toString m.state.soundTimer])
  /-- A pixel that is printed as on is a square of full brightness in the picture. -/
  pixels : ∀ x < screenWidth, ∀ y < screenHeight,
    ((screenLines m)[y]?.bind (·.toList[x]?) = some '#' ↔
      ∀ dx < scale, ∀ dy < scale, ∀ channel < 3,
        p.picture.rows[scale * y + dy]?.bind (·[3 * (scale * x + dx) + channel]?) = some 255)
  trace : p.trace = traceText m'
  /-- The session has forgotten more. -/
  entries : m'.trace.entries.toList = m.trace.entries.toList.rtake (min traceLimit k)

/-- The session and the command line play the same program with the same keys on their machines,
with the same outcome, and show the same of it. -/
def Matches (files : String → FileEntry) (unseeded : Random.Source) (s : Session) : Prop :=
  ∃ (program : List UInt8) (pins : List Nat) (failure : Option Error) (k : Nat) (m m' : Machine)
    (r : Response) (p : Report),
    Program.ofInline s.listing.toList = .ok program ∧ pinsOf s.keys = .ok pins ∧
      Machine.play program.toArray pins s.cycles (lineMachine s.seed) =
        Machine.outcome failure m ∧
      Machine.play program.toArray pins s.cycles (machine s.seed) = Machine.outcome failure m' ∧
      respond files s.commandLine unseeded = .ok r ∧ s.run = .ok p ∧
      SameRun r p program.length k failure m m'

/-! ## The command line -/

/-- Names of keys are the names of some keys. -/
theorem exists_keys {names : List String}
    (h : ∀ name ∈ names, ∃ k ∈ Keypad.layout, name = String.singleton k.1) :
    ∃ ks : List (Char × Nat), (∀ k ∈ ks, k ∈ Keypad.layout) ∧
      names = ks.map fun k => String.singleton k.1 := by
  induction names with
  | nil => exact ⟨[], List.forall_mem_nil _, rfl⟩
  | cons name names ih =>
    obtain ⟨⟨k, hk, hname⟩, hnames⟩ := List.forall_mem_cons.mp h
    obtain ⟨ks, hks, hmap⟩ := ih hnames
    exact ⟨k :: ks, List.forall_mem_cons.mpr ⟨hk, hks⟩, by rw [hname, hmap, List.map_cons]⟩

theorem pinsOf_singletons {ks : List (Char × Nat)} (h : ∀ k ∈ ks, k ∈ Keypad.layout) :
    pinsOf (ks.map fun k => String.singleton k.1) = .ok (ks.map (·.2)) := by
  induction ks with
  | nil => rfl
  | cons k ks ih =>
    obtain ⟨hk, hks⟩ := List.forall_mem_cons.mp h
    have hfind : Keypad.find? (String.singleton k.1).toList = some k.2 := by
      rw [String.toList_singleton]
      exact (Keypad.layout_normalized k hk).2.1
    rw [List.map_cons, pinsOf, hfind, ih hks]
    rfl

theorem commandLine_eq {s : Session} {ks : List (Char × Nat)}
    (hkeys : s.keys = ks.map fun k => String.singleton k.1) :
    s.commandLine.map String.toList = fullArguments s.listing.toList
      ([','].intercalate (ks.map fun k => [k.1])) s.cycles s.seed := by
  have hjoined (name text : String) :
      (name ++ "=" ++ text).toList = name.toList ++ '=' :: text.toList := by
    rw [String.toList_append, String.toList_append, List.append_assoc]
    rfl
  have hnames : (",".intercalate s.keys).toList = [','].intercalate (ks.map fun k => [k.1]) := by
    rw [String.toList_intercalate, hkeys, List.map_map]
    simp only [Function.comp_def, String.toList_singleton]
    rfl
  have hkeysArg := hjoined "--keys" (",".intercalate s.keys)
  rw [hnames] at hkeysArg
  exact List.cons_eq_cons.mpr ⟨hjoined "--inline" s.listing, List.cons_eq_cons.mpr
    ⟨hjoined "--cycles" _, List.cons_eq_cons.mpr ⟨hkeysArg, List.cons_eq_cons.mpr
      ⟨hjoined "--seed" _, rfl⟩⟩⟩⟩

/-- What the command line asks for. -/
def settings (s : Session) (pins : List Nat) : Settings where
  inlineText := s.listing.toList
  cycles := some s.cycles
  keys := pins
  random := some (.ofSeed s.seed)
  trace := true

variable {s : Session} {ks : List (Char × Nat)} {program : List UInt8}

theorem respond_commandLine (files : String → FileEntry) (unseeded : Random.Source)
    (hprogram : Program.ofInline s.listing.toList = .ok program) (hlisting : s.listing.toList ≠ [])
    (hkeys : s.keys = ks.map fun k => String.singleton k.1) (hks : ∀ k ∈ ks, k ∈ Keypad.layout)
    (hcycles : s.cycles.natAbs < 10 ^ Numeral.maxDecimalDigits)
    (hseed : s.seed.natAbs < 10 ^ Numeral.maxDecimalDigits) :
    respond files s.commandLine unseeded =
      runProgram (s.settings (ks.map (·.2))) [] program.toArray := by
  have hdashes : s.listing.toList ≠ ['-', '-'] := by
    intro heq
    have hnone : (Program.ofInline ['-', '-']).toOption = none := by decide +kernel
    rw [← heq, hprogram] at hnone
    cases hnone
  have hsettings : Settings.ofArguments (s.commandLine.map String.toList) unseeded =
      .ok (s.settings (ks.map (·.2))) := by
    rw [commandLine_eq hkeys]
    exact Settings.ofArguments_full hlisting hdashes hks hcycles hseed
  have hinline : Program.ofInline (s.settings (ks.map (·.2))).inlineText = .ok program := hprogram
  have hrom : (s.settings (ks.map (·.2))).rom.isEmpty = true := rfl
  rw [respond, hsettings]
  dsimp only
  rw [if_pos hrom, runInline, hinline]

/-! ## The session -/

theorem run_of_play {pins : List Nat} {failure : Option Error} {m : Machine}
    (himage : s.image = none) (hblank : ∃ c ∈ s.listing.toList, isBlank c = false)
    (hprogram : Program.ofListing s.listing.toList = .ok program)
    (hpins : pinsOf s.keys = .ok pins)
    (hplay : Machine.play program.toArray pins s.cycles (machine s.seed) =
      Machine.outcome failure m) : s.run = finished program.length m failure := by
  have hshown : s.listing.toList.all isBlank = false := by
    obtain ⟨c, hc, hsolid⟩ := hblank
    exact List.all_eq_false.mpr ⟨c, hc, by rw [hsolid]; decide⟩
  have hran : s.program = .ok program.toArray := by
    rw [Session.program, himage]
    dsimp only
    rw [hshown, hprogram]
    rfl
  rw [run, hran]
  dsimp only
  rw [runImage, hpins]
  dsimp only
  rw [hplay]
  cases failure with
  | none => rfl
  | some e => rfl

/-- A picture shows the screen that is printed. -/
theorem picture_of_valid {m : Machine} (hv : m.state.Valid) :
    ∃ shown, picture m = .ok shown ∧ ∀ x < screenWidth, ∀ y < screenHeight,
      ((screenLines m)[y]?.bind (·.toList[x]?) = some '#' ↔
        ∀ dx < scale, ∀ dy < scale, ∀ channel < 3,
          shown.rows[scale * y + dy]?.bind (·[3 * (scale * x + dx) + channel]?) = some 255) := by
  have hscale : 0 < scale := by decide
  obtain ⟨shown, himage, hpoint⟩ := Screen.image_point hv.pixels_size hscale
  refine ⟨shown, by rw [picture, himage]; rfl, ?_⟩
  intro x hx y hy
  have hchar : (screenLines m)[y]?.bind (·.toList[x]?) =
      some (if Screen.lit m.state.pixels x y then '#' else '.') := by
    rw [screenLines, List.getElem?_map, List.getElem?_range hy]
    exact Screen.line_char '#' '.' m.state.pixels hx y
  rw [hchar]
  cases hlit : Screen.lit m.state.pixels x y with
  | true =>
    refine iff_of_true rfl ?_
    intro dx hdx dy hdy channel hchannel
    rw [hpoint x hx y hy dx hdx dy hdy channel hchannel, hlit]
    rfl
  | false =>
    refine iff_of_false (by decide) ?_
    intro hbright
    have hdark := hpoint x hx y hy 0 (by decide) 0 (by decide) 0 (by decide)
    rw [hbright 0 (by decide) 0 (by decide) 0 (by decide), hlit] at hdark
    exact absurd hdark (by decide)

theorem rtake_rtake {α : Type} (l : List α) {a b : Nat} (h : b ≤ a) :
    (l.rtake a).rtake (min b l.length) = l.rtake b := by
  simp only [List.rtake, List.length_drop, List.drop_drop]
  congr 1
  omega

/-! ## Both -/

theorem figures_of_no_skips {m : Machine} (h : m.skips = #[]) {k : Nat}
    (hk : m.state.cycleCount = k) : figures m = [
      "",
      "Cycles: " ++ toString k,
      "PC: " ++ Hex.address m.state.pc ++ "  I: " ++ Hex.address m.state.index ++
        "  SP: " ++ toString m.state.sp,
      "DT: " ++ toString m.state.delayTimer ++ "  ST: " ++ toString m.state.soundTimer,
      "Registers: " ++ m.state.registersText] := by
  have herrors : m.summary.errors.isEmpty = true := by
    rw [Machine.summary, h]
    rfl
  have hcycles : m.summary.cycles = k := hk
  rw [figures, if_pos herrors, hcycles]
  rfl

/-- The report of a session in figures of the machine on the command line. -/
theorem summaryText_eq {m m' : Machine} (hstate : m'.state = m.state) {k : Nat}
    (hk : m.state.cycleCount = k) (size : Nat) (failure : Option Error) :
    summaryText size m' failure = "\n".intercalate ([
      "EXECUTION SUMMARY",
      rule 40,
      "Program size: " ++ toString size ++ " bytes",
      "Cycles: " ++ toString k,
      "PC: " ++ Hex.address m.state.pc,
      "Pixels on: " ++ toString (m.state.pixels.countP id),
      "Sound: " ++ if m.sounding then "on" else "off"] ++ errorLines "\nRuntime: " failure) := by
  have hcycles : m'.summary.cycles = k := by rw [Machine.summary, hstate, hk]
  have hsounding : m'.sounding = m.sounding := by rw [Machine.sounding, hstate, Machine.sounding]
  unfold summaryText
  dsimp only
  rw [hcycles, hsounding, Machine.summary, hstate]
  cases failure with
  | none => rfl
  | some e => rfl

theorem registersText_eq {m m' : Machine} (hstate : m'.state = m.state) :
    registersText m' = "\n".intercalate (["FINAL REGISTERS", rule 30] ++
      m.state.dumpRegisters.map (fun (name, v) => registerLine name v) ++ [
        "",
        "  I:  " ++ Hex.address m.state.index,
        "  SP: " ++ toString m.state.sp,
        "  DT: " ++ toString m.state.delayTimer,
        "  ST: " ++ toString m.state.soundTimer]) := by
  rw [registersText, Machine.summary, hstate]

theorem unlines_screen {m : Machine} (hv : m.state.Valid) (before after : List String) :
    unlines (before ++ [screenText m] ++ after) = unlines (before ++ screenLines m ++ after) := by
  have hlines : screenLines m ≠ [] := by
    intro hnil
    have hlength := congrArg List.length hnil
    simp [screenLines, screenHeight] at hlength
  rw [screenText_eq hv, unlines_append, unlines_append, unlines_intercalate hlines,
    unlines_append, unlines_append]

theorem settings_machine (s : Session) (pins : List Nat) :
    (s.settings pins).machine = .ok (lineMachine s.seed) := rfl

theorem twin_machine (seed : Int) : Machine.Twin (lineMachine seed) (machine seed) :=
  ⟨rfl, rfl, rfl, rfl⟩

theorem lineMachine_holds (seed : Int) : (lineMachine seed).Holds (some defaultTraceLimit) [] :=
  ⟨rfl, rfl, rfl⟩

theorem machine_holds (seed : Int) : (machine seed).Holds (some traceLimit) [] := ⟨rfl, rfl, rfl⟩

/-- What the two print of twins that have been told the same. -/
theorem sameRun {m m' : Machine} {l : List TraceEntry} (hv : m.state.Valid)
    (ht : Machine.Twin m m') (hm : m.Holds (some defaultTraceLimit) l)
    (hm' : m'.Holds (some traceLimit) l) (hcount : m.state.cycleCount = l.length)
    (hskips : m.skips = #[]) (size : Nat) (failure : Option Error) (log : Array LogRecord)
    (pins : List Nat) {p : Report} (hreport : finished size m' failure = .ok p) :
    SameRun (report (s.settings pins) [] (Machine.outcome failure m) log) p size l.length failure
      m m' := by
  have hv' : m'.state.Valid := by rwa [ht.state]
  obtain ⟨shown, hshown, hpixels⟩ := picture_of_valid hv'
  have hlines : screenLines m' = screenLines m := by rw [screenLines, ht.state, screenLines]
  rw [finished, hshown] at hreport
  obtain rfl : (⟨shown, summaryText size m' failure, traceText m', registersText m'⟩ : Report) =
      p := Except.ok.inj hreport
  rw [report_outcome]
  constructor
  · exact ht.state
  · exact hcount
  · rfl
  · show unlines (errorLines "Execution error: " failure ++ [m.trace.text, ""] ++ [screenText m] ++
      figures m) = _
    rw [unlines_screen hv, figures_of_no_skips hskips hcount]
  · dsimp only
    rw [summaryText_eq ht.state hcount]
  · dsimp only
    rw [registersText_eq ht.state]
  · rw [← hlines]
    exact hpixels
  · rfl
  · rw [hm'.entries, hm.entries]
    have hforgotten : traceLimit ≤ defaultTraceLimit := by decide
    show l.rtake traceLimit = (l.rtake defaultTraceLimit).rtake (min traceLimit l.length)
    rw [rtake_rtake l hforgotten]

/-- **A session and a command line show the same run.** For every program in words without commas
and semicolons, all keys of the keypad, and all numbers of cycles and seeds that a numeral can be
written for, the machines end in the same state, after as many cycles and with the same error, if
there is one; the figures are the same; the pixels that are printed are those of the picture; and
the session still has the last entries of the trace that is printed, as many as it has room for. -/
theorem matches_commandLine (himage : s.image = none)
    (hblank : ∃ c ∈ s.listing.toList, isBlank c = false)
    (hcomma : ',' ∉ s.listing.toList) (hsemicolon : ';' ∉ s.listing.toList)
    (hprogram : Program.ofInline s.listing.toList = .ok program)
    (hkeys : ∀ name ∈ s.keys, ∃ k ∈ Keypad.layout, name = String.singleton k.1)
    (hcycles : s.cycles.natAbs < 10 ^ Numeral.maxDecimalDigits)
    (hseed : s.seed.natAbs < 10 ^ Numeral.maxDecimalDigits)
    (files : String → FileEntry) (unseeded : Random.Source) : s.Matches files unseeded := by
  obtain ⟨ks, hks, hnames⟩ := exists_keys hkeys
  have hlt : ∀ pin ∈ ks.map (·.2), pin < keyCount :=
    List.forall_mem_map.mpr fun k hk => Keypad.layout_lt k (hks k hk)
  have hpins : pinsOf s.keys = .ok (ks.map (·.2)) := by
    rw [hnames]
    exact pinsOf_singletons hks
  obtain ⟨failure, m, m', l, hplay, hplay', hv, ht, hm, hm', hcount, hskips⟩ :=
    (twin_machine s.seed).play (State.initial_valid _) (lineMachine_holds s.seed)
      (machine_holds s.seed) rfl program.toArray hlt s.cycles
  have hlisting : s.listing.toList ≠ [] := by
    rintro heq
    obtain ⟨c, hc, -⟩ := hblank
    rw [heq] at hc
    cases hc
  have hanswer := respond_commandLine files unseeded hprogram hlisting hnames hks hcycles hseed
  obtain ⟨log, hlog⟩ := runProgram_of_play [] (s.settings_machine (ks.map (·.2))) hplay
    (by rintro ⟨⟩)
  rw [hlog] at hanswer
  have hrun := run_of_play himage hblank
    ((Program.ofListing_eq_ok_iff hcomma hsemicolon).mpr hprogram) hpins hplay'
  have hv' : m'.state.Valid := by rwa [ht.state]
  obtain ⟨shown, hshown, -⟩ := picture_of_valid hv'
  have hreport : ∃ p, finished program.length m' failure = .ok p := by
    rw [finished, hshown]
    exact ⟨_, rfl⟩
  obtain ⟨p, hp⟩ := hreport
  exact ⟨program, _, failure, l.length, m, m', _, p, hprogram, hpins, hplay, hplay', hanswer,
    hrun.trans hp, sameRun hv ht hm hm' (hcount.trans (Int.zero_add _)) hskips _ _ log _ hp⟩

/-- A glyph is drawn with two keys held down, and the program goes on to wait in a loop. -/
def drawing : Session where
  listing := "A050 D015 1204"
  image := none
  keys := ["q", "1"]
  cycles := 5
  seed := -7

theorem matches_commandLine_drawing : drawing.Matches (fun _ => .absent) (.ofBytes #[]) := by
  have hbound : 10 ^ 1 ≤ 10 ^ Numeral.maxDecimalDigits :=
    Nat.pow_le_pow_right (by decide) (by decide)
  have hcycles : drawing.cycles.natAbs < 10 ^ 1 := by decide
  have hseed : drawing.seed.natAbs < 10 ^ 1 := by decide
  have hprogram : Program.ofInline drawing.listing.toList =
      .ok [0xA0, 0x50, 0xD0, 0x15, 0x12, 0x04] := by decide
  exact matches_commandLine rfl ⟨'A', by decide, by decide⟩ (by decide) (by decide) hprogram
    (by decide) (Nat.lt_of_lt_of_le hcycles hbound) (Nat.lt_of_lt_of_le hseed hbound) _ _

/-- With a seed of too many digits the session runs and the command line is refused. -/
theorem not_matches_of_long_seed (hdashes : s.listing.toList ≠ ['-', '-'])
    (hkeys : s.keys = ks.map fun k => String.singleton k.1) (hks : ∀ k ∈ ks, k ∈ Keypad.layout)
    (hcycles : s.cycles.natAbs < 10 ^ Numeral.maxDecimalDigits)
    (hseed : ¬ s.seed.natAbs < 10 ^ Numeral.maxDecimalDigits) (files : String → FileEntry)
    (unseeded : Random.Source) : ¬ s.Matches files unseeded := by
  rintro ⟨program, pins, failure, k, m, m', r, p, -, -, -, -, hanswer, -, hsame⟩
  have hrefused : Settings.ofArguments (s.commandLine.map String.toList) unseeded =
      .error (.arguments (.misused ["--seed"] (.invalidInteger (toString s.seed).toList))) := by
    rw [commandLine_eq hkeys]
    exact Settings.ofArguments_long_seed hdashes hks hcycles hseed
  rw [respond, hrefused] at hanswer
  have hstatus : r.status = 2 := by
    cases hanswer
    rfl
  rw [hsame.status] at hstatus
  split at hstatus
  · cases hstatus
  · cases hstatus

/-- A seed with one digit more than a numeral may have. -/
def longSeed : Session where
  listing := "1200"
  image := none
  keys := []
  cycles := 1
  seed := 10 ^ Numeral.maxDecimalDigits

theorem not_matches_longSeed : longSeed.image = none ∧
    (∃ c ∈ longSeed.listing.toList, isBlank c = false) ∧
    ',' ∉ longSeed.listing.toList ∧ ';' ∉ longSeed.listing.toList ∧
    Program.ofInline longSeed.listing.toList = .ok [0x12, 0x00] ∧
    (∀ name ∈ longSeed.keys, ∃ k ∈ Keypad.layout, name = String.singleton k.1) ∧
    ∀ files unseeded, ¬ longSeed.Matches files unseeded := by
  refine ⟨rfl, ⟨'1', by decide, by decide⟩, by decide, by decide, by decide,
    List.forall_mem_nil _, ?_⟩
  intro files unseeded
  have hcycles : longSeed.cycles.natAbs < 10 ^ Numeral.maxDecimalDigits :=
    Nat.one_lt_pow (by decide) (by decide)
  have hseed : ¬ longSeed.seed.natAbs < 10 ^ Numeral.maxDecimalDigits := by
    have hsize (n : Nat) : ((10 : Int) ^ n).natAbs = 10 ^ n := Int.natAbs_pow 10 n
    rw [longSeed, hsize]
    exact Nat.lt_irrefl _
  have hkeys : longSeed.keys = ([] : List (Char × Nat)).map fun k => String.singleton k.1 := rfl
  exact not_matches_of_long_seed (by decide) hkeys (List.forall_mem_nil _) hcycles hseed _ _

end Session

end Chip8
