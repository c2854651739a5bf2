import Chip8.Proofs.CommandLine.Report
import Chip8.Proofs.CommandLine.Settings
import Chip8.Proofs.Machine.Fresh

/-!
# What the status says

A script that runs the program sees its status and nothing else, so the status has to be right. It
is 2 if and only if the command line is refused, 1 if and only if there is no such file, or no room
for the program, or a cycle has failed, and 0 if and only if every cycle has completed that was
asked for (`Honest`). If the program was played, or there was no room for it, the screen that is
printed is the one that the completed cycles have left (`Shows`).

> **A command line has an honest answer, unless what it takes to run the program is missing**
> (`respond_honest`).

That is the seed, the policy, or the number of cycles. It is missing if its option is used last with
`--` joined to it, which stands for no value, and then there is no answer at all
(`respond_of_stuck`).
-/

set_option autoImplicit false

namespace Chip8.CommandLine

open Text Machine

/-! ## What a command line comes to -/

/-- The arguments are read, and these are the settings that they ask for. -/
def Reads (unseeded : Random.Source) (args : List String) (s : Settings) : Prop :=
  Settings.ofOptions (args.map String.toList) unseeded = .ok s

/-- The user asks how the program is used. -/
def AsksForHelp (unseeded : Random.Source) (args : List String) : Prop :=
  Settings.ofOptions (args.map String.toList) unseeded = .error .helpRequested

/-- The arguments are refused: as arguments, or since there is no program in them, or since what
stands for one is none. -/
inductive Refused (unseeded : Random.Source) (args : List String) : Prop
  | arguments {r : Refusal} (h : Settings.ofOptions (args.map String.toList) unseeded = .error r)
  | noProgram {s : Settings} (hs : Reads unseeded args s) (hrom : s.rom = [])
      (hinline : s.inlineText = [])
  | badProgram {s : Settings} {e : Program.SourceError} (hs : Reads unseeded args s)
      (hrom : s.rom = []) (hinline : s.inlineText ≠ [])
      (hwords : Program.ofInline s.inlineText = .error e)

/-- The program that the settings ask for, or that there is no such file. A file that is named
counts before words. -/
inductive Asks (files : String → FileEntry) (s : Settings) : Option (Array UInt8) → Prop
  | rom {bytes : Array UInt8} (hrom : s.rom ≠ [])
      (hfile : files (String.ofList s.rom) = .file bytes) : Asks files s (some bytes)
  | missing (hrom : s.rom ≠ []) (hfile : files (String.ofList s.rom) = .absent) :
      Asks files s none
  | inline {bytes : List UInt8} (hrom : s.rom = []) (hinline : s.inlineText ≠ [])
      (hwords : Program.ofInline s.inlineText = .ok bytes) : Asks files s (some bytes.toArray)

/-- A file that is named can be read, or is not there. -/
def Readable (files : String → FileEntry) (unseeded : Random.Source) (args : List String) : Prop :=
  ∀ s, Reads unseeded args s → s.rom ≠ [] → files (String.ofList s.rom) = .absent ∨
    ∃ bytes, files (String.ofList s.rom) = .file bytes

section

variable (files : String → FileEntry) (unseeded : Random.Source) (args : List String)

/-- The arguments are accepted, and what they ask for cannot be done. -/
inductive Fails : Prop
  | missing {s : Settings} (hs : Reads unseeded args s) (hasks : Asks files s none)
  | tooLarge {s : Settings} {program : Array UInt8} (hs : Reads unseeded args s)
      (hasks : Asks files s (some program)) (hroom : maxProgramSize < program.size)
  | cycle {s : Settings} {program : Array UInt8} {m w w' : Machine} {n : Int} {k : Nat} {f : Fault}
      (hs : Reads unseeded args s) (hasks : Asks files s (some program))
      (hroom : program.size ≤ maxProgramSize) (hm : s.machine = .ok m) (hn : s.cycles = some n)
      (hk : k < n.toNat) (hbefore : Completes k (m.started program s.keys) w)
      (hf : Machine.cycle w = .error (.fault f) w')

/-- The arguments are accepted, and every cycle that they ask for completes. -/
def Finishes : Prop :=
  ∃ s program m n w, Reads unseeded args s ∧ Asks files s (some program) ∧
    program.size ≤ maxProgramSize ∧ s.machine = .ok m ∧ s.cycles = some n ∧
      Completes n.toNat (m.started program s.keys) w

/-- There is a program, and what it takes to run it is missing. The number of cycles is looked at
when the program has been loaded. -/
def Stuck : Prop :=
  ∃ s program, Reads unseeded args s ∧ Asks files s (some program) ∧
    (s.random = none ∨ s.onInvalid = none ∨
      (program.size ≤ maxProgramSize ∧ s.cycles = none))

end

/-! ## What is printed -/

/-- What is printed before an image is run. -/
def loadingLines (s : Settings) (program : Array UInt8) : List String :=
  if s.rom = [] ∨ s.quiet = true then []
  else ["Loading ROM: " ++ String.ofList s.rom ++ " (" ++ toString program.size ++ " bytes)"]

/-- The machine after so many completed cycles of a program. Without room for it there are none. -/
inductive After (program : Array UInt8) (pins : List Nat) (m : Machine) : Nat → Machine → Prop
  | unloaded (hroom : maxProgramSize < program.size) : After program pins m 0 m
  | cycles {k : Nat} {w : Machine} (hroom : program.size ≤ maxProgramSize)
      (h : Completes k (m.started program pins) w) : After program pins m k w

/-- What is printed of a program: its error if one has ended it, the trace if it is asked for, the
screen of the machine that `k` completed cycles have left, and the figures. -/
structure Shows (s : Settings) (program : Array UInt8) (r : Response) (m w : Machine) (k : Nat)
    (failure : Option Error) (text : String) : Prop where
  machine : s.machine = .ok m
  ended : Played program s.keys (s.cycles.getD 0).toNat m (outcome failure w)
  after : After program s.keys m k w
  /-- Without a failure these are all the cycles that were asked for. -/
  all : r.status = 0 → s.cycles.map Int.toNat = some k
  screen : Screen.text w.state.pixels "#" "." = .ok text
  out : r.out = unlines (loadingLines s program ++ errorLines "Execution error: " failure ++
    (if s.trace then [w.trace.text, ""] else []) ++ [text] ++
      (if s.quiet then [] else figures w))
  cycles : (figures w)[1]? = some ("Cycles: " ++ toString k)

/-- The status says what has happened, and what is printed shows it. -/
structure Honest (files : String → FileEntry) (unseeded : Random.Source) (args : List String)
    (r : Response) : Prop where
  refused : r.status = 2 ↔ Refused unseeded args
  failed : r.status = 1 ↔ Fails files unseeded args
  finished : r.status = 0 ↔ Finishes files unseeded args
  shown : ∀ s program, Reads unseeded args s → Asks files s (some program) →
    ∃ m w k failure text, Shows s program r m w k failure text

variable {files : String → FileEntry} {unseeded : Random.Source} {args : List String}
  {s : Settings} {m : Machine} {program : Array UInt8}

/-! ## The answer, case by case -/

theorem Asks.given {asked : Option (Array UInt8)} (h : Asks files s asked) :
    s.rom ≠ [] ∨ s.inlineText ≠ [] := by
  cases h with
  | rom hrom | missing hrom => exact Or.inl hrom
  | inline _ hinline => exact Or.inr hinline

theorem Reads.unique {s' : Settings} (hs : Reads unseeded args s) (hs' : Reads unseeded args s') :
    s = s' := Except.ok.inj (hs.symm.trans hs')

/-- A file that is named counts before words. -/
theorem respond_of_reads (hs : Reads unseeded args s) (hgiven : s.rom ≠ [] ∨ s.inlineText ≠ []) :
    respond files args unseeded =
      if s.rom = [] then runInline s else runRom s (files (String.ofList s.rom)) := by
  rw [respond, ofArguments_eq_ok_iff.mpr ⟨hs, hgiven⟩]
  dsimp only
  simp only [List.isEmpty_iff]

theorem respond_of_asks (hs : Reads unseeded args s) (hasks : Asks files s (some program)) :
    respond files args unseeded = runProgram s (loadingLines s program) program := by
  rw [respond_of_reads hs hasks.given]
  cases hasks with
  | rom hrom hfile =>
    rw [if_neg hrom, hfile, runRom, loadingLines]
    simp only [hrom, false_or]
  | inline hrom _ hwords =>
    rw [if_pos hrom, runInline, hwords, loadingLines, if_pos (Or.inl hrom)]

theorem respond_of_missing (hs : Reads unseeded args s) (hasks : Asks files s none) :
    respond files args unseeded =
      .ok ⟨1, unlines ["Error: ROM file not found: " ++ String.ofList s.rom], ""⟩ := by
  rw [respond_of_reads hs hasks.given]
  cases hasks with
  | missing hrom hfile => rw [if_neg hrom, hfile, runRom]

theorem refuse_status {r : Rejection} (h : r ≠ .arguments .helpRequested) :
    (refuse r).status = 2 := by
  unfold refuse
  split
  · exact absurd rfl h
  · rfl

theorem respond_of_refused (h : Refused unseeded args) (hhelp : ¬ AsksForHelp unseeded args) :
    ∃ r, respond files args unseeded = .ok r ∧ r.status = 2 := by
  cases h with
  | @arguments r h =>
    have hne : r ≠ .helpRequested := by
      rintro rfl
      exact hhelp h
    refine ⟨refuse (.arguments r), ?_, refuse_status fun heq => hne (Rejection.arguments.inj heq)⟩
    rw [respond, Settings.ofArguments, h]
  | @noProgram s hs hrom hinline =>
    refine ⟨refuse .noProgram, ?_, rfl⟩
    have hread : Settings.ofOptions (args.map String.toList) unseeded = .ok s := hs
    have hnone : (s.rom.isEmpty && s.inlineText.isEmpty) = true := by
      rw [hrom, hinline]
      rfl
    rw [respond, Settings.ofArguments, hread]
    dsimp only
    rw [if_pos hnone]
  | @badProgram s e hs hrom hinline hwords =>
    refine ⟨refuse (.badProgram e), ?_, rfl⟩
    rw [respond_of_reads hs (Or.inr hinline), if_pos hrom, runInline, hwords]

/-! ## Machines -/

theorem Settings.machine_eq_ok_iff : s.machine = .ok m ↔ ∃ random policy,
    s.random = some random ∧ s.onInvalid = some policy ∧
      m = .new defaultTimerResolution policy s.trace (some defaultTraceLimit) random := by
  unfold Settings.machine
  cases s.random with
  | none => exact ⟨by rintro ⟨⟩, by rintro ⟨random, policy, ⟨⟩, -⟩⟩
  | some random =>
    cases s.onInvalid with
    | none => exact ⟨by rintro ⟨⟩, by rintro ⟨random, policy, -, ⟨⟩, -⟩⟩
    | some policy =>
      constructor
      · intro h
        exact ⟨random, policy, rfl, rfl, (Except.ok.inj h).symm⟩
      · rintro ⟨random, policy, ⟨⟩, ⟨⟩, rfl⟩
        rfl

theorem machine_valid (hm : s.machine = .ok m) : m.state.Valid := by
  obtain ⟨random, policy, -, -, rfl⟩ := Settings.machine_eq_ok_iff.mp hm
  exact State.initial_valid random

theorem machine_fresh (hm : s.machine = .ok m) : m.state.cycleCount = 0 := by
  obtain ⟨random, policy, -, -, rfl⟩ := Settings.machine_eq_ok_iff.mp hm
  rfl

/-- A program that is not stuck has a machine to run on, and cycles to run for if there is room. -/
theorem exists_machine (hs : Reads unseeded args s) (hasks : Asks files s (some program))
    (hstuck : ¬ Stuck files unseeded args) :
    (∃ m, s.machine = .ok m) ∧
      (program.size ≤ maxProgramSize → ∃ n, s.cycles = some n) := by
  have hfree : ¬ (s.random = none ∨ s.onInvalid = none ∨
      (program.size ≤ maxProgramSize ∧ s.cycles = none)) :=
    fun h => hstuck ⟨s, program, hs, hasks, h⟩
  rw [not_or, not_or, not_and] at hfree
  obtain ⟨hrandom, hpolicy, hcycles⟩ := hfree
  obtain ⟨random, hrandom⟩ := Option.ne_none_iff_exists'.mp hrandom
  obtain ⟨policy, hpolicy⟩ := Option.ne_none_iff_exists'.mp hpolicy
  exact ⟨⟨_, Settings.machine_eq_ok_iff.mpr ⟨random, policy, hrandom, hpolicy, rfl⟩⟩,
    fun hroom => Option.ne_none_iff_exists'.mp (hcycles hroom)⟩

/-- What it takes to run the program being missing, there is no answer. -/
theorem respond_of_stuck (h : Stuck files unseeded args) :
    ∃ abort, respond files args unseeded = .error abort := by
  obtain ⟨s, program, hs, hasks, hmissing⟩ := h
  rw [respond_of_asks hs hasks, runProgram]
  cases hm : s.machine with
  | error abort => exact ⟨abort, rfl⟩
  | ok m =>
    -- there is a machine, so what is missing is the number of cycles, and the program is loaded
    obtain ⟨random, policy, hrandom, hpolicy, -⟩ := Settings.machine_eq_ok_iff.mp hm
    obtain ⟨hroom, hcycles⟩ : program.size ≤ maxProgramSize ∧ s.cycles = none := by
      rw [hrandom, hpolicy] at hmissing
      obtain ⟨⟨⟩⟩ | ⟨⟨⟩⟩ | h := hmissing
      exact h
    have hkeys := Settings.keys_lt hs
    have hlogged := playLogged_fst program s.keys (s.cycles.getD 0) m
    rw [play_of_room (machine_valid hm) hkeys hroom, hcycles] at hlogged
    obtain ⟨log, hlog⟩ : ∃ log, m.playLogged program s.keys (s.cycles.getD 0) =
        (.ok () (m.started program s.keys), log) := by
      rw [hcycles]
      exact ⟨_, Prod.ext hlogged rfl⟩
    refine ⟨.noCycles, ?_⟩
    dsimp only [bind, Except.bind]
    rw [hlog, hcycles]
    rfl

/-! ## The end of a run -/

theorem After.valid {pins : List Nat} {k : Nat} {w : Machine} (h : After program pins m k w)
    (hv : m.state.Valid) : w.state.Valid := by
  cases h with
  | unloaded => exact hv
  | cycles hroom h => exact h.valid (started_valid hv hroom pins)

theorem After.cycleCount {pins : List Nat} {k : Nat} {w : Machine} (h : After program pins m k w)
    (hv : m.state.Valid) : w.state.cycleCount = m.state.cycleCount + k := by
  cases h with
  | unloaded => exact (Int.add_zero _).symm
  | cycles hroom h => exact h.cycleCount (started_valid hv hroom pins)

/-- However a program ends, so many of its cycles have completed before, and all of them if it has
not failed. -/
theorem exists_end (hv : m.state.Valid) (program : Array UInt8) {pins : List Nat}
    (hpins : ∀ pin ∈ pins, pin < keyCount) (cycles : Int) :
    ∃ failure w k, play program pins cycles m = outcome failure w ∧
      Played program pins cycles.toNat m (outcome failure w) ∧ After program pins m k w ∧
      (failure = none → program.size ≤ maxProgramSize ∧ k = cycles.toNat) := by
  have hend := played hv program hpins cycles
  generalize hplay : play program pins cycles m = result at hend
  cases hend with
  | tooLarge hroom =>
    exact ⟨some _, m, 0, rfl, .tooLarge hroom, .unloaded hroom, by rintro ⟨⟩⟩
  | @failed k w f hroom hk hbefore hf =>
    exact ⟨some _, w, k, rfl, .failed hroom hk hbefore hf, .cycles hroom hbefore, by rintro ⟨⟩⟩
  | @completed w hroom hall =>
    exact ⟨none, w, _, rfl, .completed hroom hall, .cycles hroom hall, fun _ => ⟨hroom, rfl⟩⟩

/-- What is answered when a program has been played. -/
theorem respond_of_play (hs : Reads unseeded args s) (hasks : Asks files s (some program))
    (hm : s.machine = .ok m) {failure : Option Error} {w : Machine}
    (hplay : play program s.keys (s.cycles.getD 0) m = outcome failure w)
    (hcycles : s.cycles = none → failure ≠ none) :
    ∃ r, respond files args unseeded = .ok r ∧ r.status = (if failure.isSome then 1 else 0) ∧
      r.out = unlines (loadingLines s program ++ errorLines "Execution error: " failure ++
        (if s.trace then [w.trace.text, ""] else []) ++ [screenText w] ++
          (if s.quiet then [] else figures w)) := by
  obtain ⟨log, hlog⟩ := runProgram_of_play (loadingLines s program) hm hplay hcycles
  rw [report_outcome] at hlog
  exact ⟨_, (respond_of_asks hs hasks).trans hlog, rfl, rfl⟩

theorem respond_of_finishes (h : Finishes files unseeded args) :
    ∃ r, respond files args unseeded = .ok r ∧ r.status = 0 := by
  obtain ⟨s, program, m, n, w, hs, hasks, hroom, hm, hn, hall⟩ := h
  have hkeys := Settings.keys_lt hs
  have hplay : play program s.keys (s.cycles.getD 0) m = outcome none w := by
    rw [play_of_room (machine_valid hm) hkeys hroom, hn]
    exact (run_eq_ok_iff _).mpr hall
  obtain ⟨r, hr, hstatus, -⟩ := respond_of_play hs hasks hm hplay (by rw [hn]; rintro ⟨⟩)
  exact ⟨r, hr, hstatus⟩

theorem respond_of_fails (h : Fails files unseeded args) (hstuck : ¬ Stuck files unseeded args) :
    ∃ r, respond files args unseeded = .ok r ∧ r.status = 1 := by
  cases h with
  | missing hs hasks => exact ⟨_, respond_of_missing hs hasks, rfl⟩
  | @tooLarge s program hs hasks hroom =>
    obtain ⟨⟨m, hm⟩, -⟩ := exists_machine hs hasks hstuck
    have hplay : play program s.keys (s.cycles.getD 0) m =
        outcome (some (.fault (.programTooLarge program.size maxProgramSize))) m :=
      play_of_no_room hroom _
    obtain ⟨r, hr, hstatus, -⟩ := respond_of_play hs hasks hm hplay (fun _ => by rintro ⟨⟩)
    exact ⟨r, hr, hstatus⟩
  | @cycle s program m w w' n k f hs hasks hroom hm hn hk hbefore hf =>
    have hkeys := Settings.keys_lt hs
    have hplay : play program s.keys (s.cycles.getD 0) m = outcome (some (.fault f)) w' := by
      rw [play_of_room (machine_valid hm) hkeys hroom, hn]
      exact (run_eq_error_iff _).mpr ⟨k, hk, w, hbefore, hf⟩
    obtain ⟨r, hr, hstatus, -⟩ := respond_of_play hs hasks hm hplay (fun _ => by rintro ⟨⟩)
    exact ⟨r, hr, hstatus⟩

/-! ## Nothing else can happen -/

theorem fails_or_finishes (hs : Reads unseeded args s) (hasks : Asks files s (some program))
    (hstuck : ¬ Stuck files unseeded args) :
    Fails files unseeded args ∨ Finishes files unseeded args := by
  obtain ⟨⟨m, hm⟩, hcycles⟩ := exists_machine hs hasks hstuck
  by_cases hroom : program.size ≤ maxProgramSize
  · obtain ⟨n, hn⟩ := hcycles hroom
    have hkeys := Settings.keys_lt hs
    have hend := played (machine_valid hm) program hkeys n
    generalize play program s.keys n m = result at hend
    cases hend with
    | tooLarge hlarge => exact absurd hroom (Nat.not_le_of_lt hlarge)
    | failed _ hk hbefore hf => exact Or.inl (.cycle hs hasks hroom hm hn hk hbefore hf)
    | @completed w _ hall => exact Or.inr ⟨s, program, m, n, w, hs, hasks, hroom, hm, hn, hall⟩
  · exact Or.inl (.tooLarge hs hasks (Nat.lt_of_not_le hroom))

theorem refused_or_fails_or_finishes (hreadable : Readable files unseeded args)
    (hstuck : ¬ Stuck files unseeded args) :
    Refused unseeded args ∨ Fails files unseeded args ∨ Finishes files unseeded args := by
  cases hread : Settings.ofOptions (args.map String.toList) unseeded with
  | error r => exact Or.inl (.arguments hread)
  | ok s =>
    by_cases hrom : s.rom = []
    · by_cases hinline : s.inlineText = []
      · exact Or.inl (.noProgram hread hrom hinline)
      · cases hwords : Program.ofInline s.inlineText with
        | error e => exact Or.inl (.badProgram hread hrom hinline hwords)
        | ok bytes => exact Or.inr (fails_or_finishes hread (.inline hrom hinline hwords) hstuck)
    · obtain hfile | ⟨bytes, hfile⟩ := hreadable s hread hrom
      · exact Or.inr (Or.inl (.missing hread (.missing hrom hfile)))
      · exact Or.inr (fails_or_finishes hread (.rom hrom hfile) hstuck)

/-! ## The answer is honest -/

theorem exists_shows {r : Response} (hs : Reads unseeded args s)
    (hasks : Asks files s (some program)) (hstuck : ¬ Stuck files unseeded args)
    (hr : respond files args unseeded = .ok r) :
    ∃ m w k failure text, Shows s program r m w k failure text := by
  obtain ⟨⟨m, hm⟩, hcycles⟩ := exists_machine hs hasks hstuck
  have hv := machine_valid hm
  have hkeys := Settings.keys_lt hs
  obtain ⟨failure, w, k, hplay, hend, hafter, hall⟩ := exists_end hv program hkeys (s.cycles.getD 0)
  have hgiven : failure = none → s.cycles.map Int.toNat = some k := by
    intro hfailure
    obtain ⟨hroom, rfl⟩ := hall hfailure
    obtain ⟨n, hn⟩ := hcycles hroom
    rw [hn]
    rfl
  obtain ⟨r', hr', hstatus, hout⟩ := respond_of_play hs hasks hm hplay (by
    intro hnone hfailure
    have hsome := hgiven hfailure
    rw [hnone] at hsome
    cases hsome)
  rw [hr] at hr'
  obtain rfl := Except.ok.inj hr'
  have hcount : w.summary.cycles = k := by
    rw [Machine.summary, hafter.cycleCount hv, machine_fresh hm, Int.zero_add]
  refine ⟨m, w, k, failure, screenText w, hm, hend, hafter, ?_, ?_, hout, ?_⟩
  · intro hzero
    cases failure with
    | none => exact hgiven rfl
    | some e =>
      rw [hstatus] at hzero
      cases hzero
  · rw [screenText_eq (hafter.valid hv)]
    exact Screen.text_eq (hafter.valid hv).pixels_size '#' '.'
  · rw [figures, hcount]
    rfl

/-- **The answer is honest.** There is an answer, and its status tells a refusal, a failure and a
run that has completed from one another. If there was a program, the screen is the one that the
completed cycles have left, and the figures say how many they were. -/
theorem respond_honest (hreadable : Readable files unseeded args)
    (hhelp : ¬ AsksForHelp unseeded args) (hstuck : ¬ Stuck files unseeded args) :
    ∃ r, respond files args unseeded = .ok r ∧ Honest files unseeded args r := by
  have hcases := refused_or_fails_or_finishes hreadable hstuck
  have hanswer : ∃ r, respond files args unseeded = .ok r := by
    obtain h | h | h := hcases
    · exact (respond_of_refused h hhelp).imp fun _ => And.left
    · exact (respond_of_fails h hstuck).imp fun _ => And.left
    · exact (respond_of_finishes h).imp fun _ => And.left
  obtain ⟨r, hr⟩ := hanswer
  have hstatus {n : Nat} (h : ∃ r, respond files args unseeded = .ok r ∧ r.status = n) :
      r.status = n := by
    obtain ⟨r', hr', hn⟩ := h
    rw [hr] at hr'
    rwa [Except.ok.inj hr']
  -- the three statuses are different, so each of the three cases excludes the others
  have hrefused (h : Refused unseeded args) := hstatus (respond_of_refused h hhelp)
  have hfails (h : Fails files unseeded args) := hstatus (respond_of_fails h hstuck)
  have hfinishes (h : Finishes files unseeded args) := hstatus (respond_of_finishes h)
  refine ⟨r, hr, ⟨?_, hrefused⟩, ⟨?_, hfails⟩, ⟨?_, hfinishes⟩, ?_⟩
  · intro h
    obtain hcase | hcase | hcase := hcases
    · exact hcase
    · exact absurd (h.symm.trans (hfails hcase)) (by decide)
    · exact absurd (h.symm.trans (hfinishes hcase)) (by decide)
  · intro h
    obtain hcase | hcase | hcase := hcases
    · exact absurd (h.symm.trans (hrefused hcase)) (by decide)
    · exact hcase
    · exact absurd (h.symm.trans (hfinishes hcase)) (by decide)
  · intro h
    obtain hcase | hcase | hcase := hcases
    · exact absurd (h.symm.trans (hrefused hcase)) (by decide)
    · exact absurd (h.symm.trans (hfails hcase)) (by decide)
    · exact hcase
  · exact fun s program hs hasks => exists_shows hs hasks hstuck hr

/-- A directory with one program, which returns from a call that there has not been. -/
def shelf : Directory where
  files := [("a.ch8", #[0x60, 0x05, 0x00, 0xEE])]

/-- This program, which fails in its second cycle. -/
def underflow : List String := ["--rom=a.ch8", "--trace"]

theorem respond_honest_underflow :
    Readable (fun path => shelf.lookUp path.toList) (.ofBytes #[]) underflow ∧
    ¬ AsksForHelp (.ofBytes #[]) underflow ∧
    ¬ Stuck (fun path => shelf.lookUp path.toList) (.ofBytes #[]) underflow ∧
    ∃ r, respond (fun path => shelf.lookUp path.toList) underflow (.ofBytes #[]) = .ok r ∧
      Honest (fun path => shelf.lookUp path.toList) (.ofBytes #[]) underflow r := by
  have hfull : List.Forall₂ (Full optionSpecs)
      ["--rom".toList ++ '=' :: "a.ch8".toList, "--trace".toList] [
      ⟨⟨.value .rom, ["--rom", "-r"]⟩, "--rom".toList, some "a.ch8".toList⟩,
      ⟨⟨.flag .trace, ["--trace", "-t"]⟩, "--trace".toList, none⟩] := by
    refine .cons (.value rfl ?_ (by decide) _) <| .cons (.flag rfl ?_) .nil
    all_goals rfl
  have hreads : Reads (.ofBytes #[]) underflow { rom := "a.ch8".toList, trace := true } :=
    read_full optionSpecs_plain hfull _
  have hfile : shelf.lookUp "a.ch8".toList = .file #[0x60, 0x05, 0x00, 0xEE] := by decide
  have hreadable : Readable (fun path => shelf.lookUp path.toList) (.ofBytes #[]) underflow := by
    intro s hs _
    obtain rfl := hs.unique hreads
    exact Or.inr ⟨_, hfile⟩
  have hhelp : ¬ AsksForHelp (.ofBytes #[]) underflow := by
    intro h
    cases hreads.symm.trans h
  have hstuck : ¬ Stuck (fun path => shelf.lookUp path.toList) (.ofBytes #[]) underflow := by
    rintro ⟨s, program, hs, -, hmissing⟩
    obtain rfl := hs.unique hreads
    obtain ⟨⟨⟩⟩ | ⟨⟨⟩⟩ | ⟨-, ⟨⟩⟩ := hmissing
  exact ⟨hreadable, hhelp, hstuck, respond_honest hreadable hhelp hstuck⟩

/-- A program that goes round and round, with the two dashes for a seed. -/
def seedless : List String := ["--inline=1200", "--quiet", "--seed=--"]

/-- Without a seed there is no answer, though every cycle would complete. -/
theorem no_answer_seedless :
    Readable (fun path => shelf.lookUp path.toList) (.ofBytes #[]) seedless ∧
    ¬ AsksForHelp (.ofBytes #[]) seedless ∧
    ¬ ∃ r, respond (fun path => shelf.lookUp path.toList) seedless (.ofBytes #[]) = .ok r := by
  have hfull : List.Forall₂ (Full optionSpecs) ["--inline".toList ++ '=' :: "1200".toList,
      "--quiet".toList, "--seed".toList ++ '=' :: "--".toList] [
      ⟨⟨.value .inline, ["--inline", "-i"]⟩, "--inline".toList, some "1200".toList⟩,
      ⟨⟨.flag .quiet, ["--quiet", "-q"]⟩, "--quiet".toList, none⟩,
      ⟨⟨.value .seed, ["--seed"]⟩, "--seed".toList, some "--".toList⟩] := by
    refine .cons (.value rfl ?_ (by decide) _) <| .cons (.flag rfl ?_) <|
      .cons (.value rfl ?_ (by decide) _) .nil
    all_goals rfl
  have hreads : Reads (.ofBytes #[]) seedless
      { inlineText := "1200".toList, quiet := true, random := none } :=
    read_full optionSpecs_plain hfull _
  have hwords : Program.ofInline "1200".toList = .ok [0x12, 0x00] := by decide
  refine ⟨?_, ?_, ?_⟩
  · intro s hs hrom
    obtain rfl := hs.unique hreads
    exact absurd rfl hrom
  · intro h
    cases hreads.symm.trans h
  · rintro ⟨r, hr⟩
    obtain ⟨abort, habort⟩ := respond_of_stuck
      ⟨_, _, hreads, .inline rfl (by decide) hwords, Or.inl rfl⟩
    rw [habort] at hr
    cases hr

end Chip8.CommandLine
