import Chip8.CommandLine.Respond
import Chip8.Proofs.Machine.Play
import Chip8.Proofs.Screen.Render

/-!
# What is printed of a run

The text that the program prints is put together from the machine that the run has left and the
error, if one has ended it (`runProgram_of_play`). The screen in it is that of the machine, line by
line (`screenText_eq`, `unlines_screen`).
-/

set_option autoImplicit false

namespace Chip8.CommandLine

open Text Machine

/-! ## Lines -/

theorem unlines_append (ls ls' : List String) :
    unlines (ls ++ ls') = unlines ls ++ unlines ls' := by
  rw [unlines, List.map_append, String.join_append]
  rfl

theorem unlines_cons (l : String) (ls : List String) :
    unlines (l :: ls) = l ++ "\n" ++ unlines ls := by
  rw [unlines, List.map_cons, String.join_cons]
  rfl

/-- Lines put together with line ends between them are printed as these lines. -/
theorem unlines_intercalate {ls : List String} (h : ls ≠ []) :
    unlines ["\n".intercalate ls] = unlines ls := by
  induction ls with
  | nil => exact absurd rfl h
  | cons l ls ih =>
    cases ls with
    | nil => rw [String.intercalate_singleton]
    | cons l' ls =>
      have hrest := ih (List.cons_ne_nil l' ls)
      rw [unlines_cons, String.append_assoc] at hrest
      rw [String.intercalate_cons_cons, unlines_cons, unlines_cons, String.append_assoc,
        String.append_assoc, hrest]

/-- The line that tells of an error, if there was one. -/
def errorLines (label : String) : Option Error → List String
  | none => []
  | some e => [label ++ e.message]

/-! ## Runs -/

/-- The lines of the screen. -/
def screenLines (m : Machine) : List String :=
  (List.range screenHeight).map (Screen.line '#' '.' m.state.pixels)

theorem screenText_eq {m : Machine} (hv : m.state.Valid) :
    screenText m = "\n".intercalate (screenLines m) := by
  have htext : Screen.text m.state.pixels "#" "." = .ok ("\n".intercalate (screenLines m)) :=
    Screen.text_eq hv.pixels_size '#' '.'
  rw [screenText, htext]

variable {s : Settings} {m m' : Machine}

theorem report_outcome (s : Settings) (before : List String) (failure : Option Error) (m : Machine)
    (log : Array LogRecord) : report s before (outcome failure m) log =
      ⟨if failure.isSome then 1 else 0,
        unlines (before ++ errorLines "Execution error: " failure ++
          (if s.trace then [m.trace.text, ""] else []) ++ [screenText m] ++
            (if s.quiet then [] else figures m)),
        logText s log⟩ := by
  cases failure with
  | none => rfl
  | some e => rfl

/-- A program is run on the machine of the settings, and what comes of that is reported. That the
number of cycles is missing does not matter if the run does not get so far. -/
theorem runProgram_of_play (before : List String) {program : Array UInt8} {failure : Option Error}
    (hm : s.machine = .ok m)
    (hplay : play program s.keys (s.cycles.getD 0) m = outcome failure m')
    (hcycles : s.cycles = none → failure ≠ none) :
    ∃ log, runProgram s before program = .ok (report s before (outcome failure m') log) := by
  have hlogged := playLogged_fst program s.keys (s.cycles.getD 0) m
  rw [hplay] at hlogged
  obtain ⟨log, hlog⟩ : ∃ log, m.playLogged program s.keys (s.cycles.getD 0) =
      (outcome failure m', log) := ⟨_, Prod.ext hlogged rfl⟩
  refine ⟨log, ?_⟩
  rw [runProgram, hm]
  dsimp only [bind, Except.bind]
  rw [hlog]
  dsimp only
  cases failure with
  | some e => rfl
  | none =>
    cases hn : s.cycles with
    | none => exact absurd rfl (hcycles hn)
    | some n => rfl

end Chip8.CommandLine
