import Chip8.CommandLine.Directory
import Chip8.CommandLine.Help
import Chip8.Machine.Play
import Chip8.Machine.Summary
import Chip8.Program.Source
import Chip8.Screen.Render

/-!
# What the program answers to a command line

The answer is what the program writes and the status it ends with: 0 if every cycle completed, 1 if
the program could not be found, did not fit or failed, 2 if the command line is not accepted. Files
are asked for by path through a function, so the answer is a function of the command line, of where
paths lead, and of the source of random bytes that is used when no seed is given.

Some mistakes are found too late for an answer, and the program aborts: a directory in place of an
image, a name that no file can have, and a seed, a policy or a number of cycles that is missing.
-/

set_option autoImplicit false

namespace Chip8.CommandLine

open Text

/-- What the program writes, and the status with which it ends. -/
structure Response where
  status : Nat
  out : String
  err : String
deriving DecidableEq, Repr

/-- Why the program stops without an answer. -/
inductive Abort
  /-- The path of the image leads to a directory. -/
  | directory (path : List Char)
  | nameTooLong (path : List Char)
  /-- The seed was asked for and is missing. -/
  | noSeed
  | noPolicy
  /-- There is no number of cycles for a program that has been loaded. -/
  | noCycles
deriving DecidableEq, Repr

def Abort.message : Abort → String
  | .directory path => "[Errno 21] Is a directory: " ++ quoted (Path.normal path)
  | .nameTooLong path => "[Errno 36] File name too long: " ++ quoted (Path.normal path)
  | .noSeed =>
    "The only supported seed types are: None,\nint, float, str, bytes, and bytearray."
  | .noPolicy => unknownPolicyMessage "[]"
  | .noCycles => "'list' object cannot be interpreted as an integer"

/-- Lines of text, each with its end. -/
def unlines (ls : List String) : String := String.join (ls.map (· ++ "\n"))

/-- The answer to a command line that is not accepted. -/
def refuse : Rejection → Response
  | .arguments .helpRequested => ⟨0, unlines Help.lines, ""⟩
  | r => ⟨2, "", "main.py: error: " ++ r.message ++ "\n"⟩

/-- The lines of the log that are written: warnings, and the rest if it is asked for. -/
def logText (s : Settings) (log : Array LogRecord) : String :=
  unlines ((log.toList.filter fun r => s.debug || r.isWarning).map fun r =>
    r.level ++ ":chip8_vm.cpu:" ++ r.message)

/-- A list of texts in quotes. -/
def quotedList (ss : List String) : String := "[" ++ ", ".intercalate (ss.map quote) ++ "]"

/-- The figures after the screen. -/
def figures (m : Machine) : List String :=
  let s := m.summary
  ["",
    "Cycles: " ++ toString s.cycles,
    "PC: " ++ Hex.address s.pc ++ "  I: " ++ Hex.address s.index ++ "  SP: " ++ toString s.sp,
    "DT: " ++ toString s.delayTimer ++ "  ST: " ++ toString s.soundTimer,
    "Registers: " ++ m.state.registersText] ++
  if s.errors.isEmpty then [] else ["Errors: " ++ quotedList s.errors]

/-- The screen of a machine; every machine that the program makes has one. -/
def screenText (m : Machine) : String :=
  match Screen.text m.state.pixels "#" "." with
  | .ok text => text
  | .error e => e.message

/-- The machine that the settings ask for. -/
def Settings.machine (s : Settings) : Except Abort Machine :=
  match s.random, s.onInvalid with
  | none, _ => .error .noSeed
  | some _, none => .error .noPolicy
  | some random, some policy =>
    .ok (.new defaultTimerResolution policy s.trace (some defaultTraceLimit) random)

/-- What is shown of a run, `before` being what has been written already. -/
def report (s : Settings) (before : List String) (result : EStateM.Result Error Machine Unit)
    (log : Array LogRecord) : Response :=
  let (m, failure) :=
    match result with
    | .ok _ m => (m, none)
    | .error e m => (m, some e)
  let lines := before ++
    (match failure with
      | none => []
      | some e => ["Execution error: " ++ e.message]) ++
    (if s.trace then [m.trace.text, ""] else []) ++
    [screenText m] ++
    (if s.quiet then [] else figures m)
  ⟨if failure.isSome then 1 else 0, unlines lines, logText s log⟩

/-- Runs a program and shows what came of it. That the number of cycles is missing matters only when
the program has been loaded. -/
def runProgram (s : Settings) (before : List String) (program : Array UInt8) :
    Except Abort Response := do
  let m ← s.machine
  let (result, log) := m.playLogged program s.keys (s.cycles.getD 0)
  match result, s.cycles with
  | .ok _ _, none => throw .noCycles
  | _, _ => return report s before result log

/-- Runs an image from a file. -/
def runRom (s : Settings) : FileEntry → Except Abort Response
  | .absent => .ok ⟨1, unlines ["Error: ROM file not found: " ++ String.ofList s.rom], ""⟩
  | .directory => .error (.directory s.rom)
  | .nameTooLong => .error (.nameTooLong s.rom)
  | .file bytes =>
    runProgram s
      (if s.quiet then []
        else ["Loading ROM: " ++ String.ofList s.rom ++ " (" ++ toString bytes.size ++ " bytes)"])
      bytes

/-- Runs a program from the command line itself. -/
def runInline (s : Settings) : Except Abort Response :=
  match Program.ofInline s.inlineText with
  | .ok bytes => runProgram s [] bytes.toArray
  | .error e => .ok (refuse (.badProgram e))

/-- The answer to a command line. A file counts before a program in the command line. -/
def respond (files : String → FileEntry) (args : List String)
    (unseeded : Random.Source := .ofBytes #[]) : Except Abort Response :=
  match Settings.ofArguments (args.map String.toList) unseeded with
  | .error r => .ok (refuse r)
  | .ok s => if s.rom.isEmpty then runInline s else runRom s (files (String.ofList s.rom))

/-- The file that a command line names, if it is accepted and names one. -/
def requestedFile? (args : List String) : Option String :=
  match Settings.ofArguments (args.map String.toList) with
  | .error _ => none
  | .ok s => if s.rom.isEmpty then none else some (String.ofList s.rom)

end Chip8.CommandLine
