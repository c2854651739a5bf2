import Chip8.Keypad
import Chip8.Machine.Config
import Chip8.Machine.Play
import Chip8.Machine.Summary
import Chip8.Program.Source
import Chip8.Screen.Render

/-!
# Sessions

A session is one run of a program before a user's eyes: a listing or an image, the keys held down,
the number of cycles and the seed go in, and a picture and three texts come out. What is wrong with
the program, or goes wrong while it runs, is part of the report.
-/

set_option autoImplicit false

namespace Chip8

open Text

structure Session where
  listing : String
  /-- An image, which counts instead of the listing even if it is empty. -/
  image : Option (Array UInt8)
  /-- The names of the keys held down. -/
  keys : List String
  cycles : Int
  seed : Int

/-- What a session shows. -/
structure Report where
  picture : Image
  summary : String
  trace : String
  registers : String

/-- Why a session has nothing to run. -/
inductive ProgramProblem
  /-- The listing is blank. -/
  | missing
  | source (e : Program.SourceError)
deriving DecidableEq, Repr

def ProgramProblem.message : ProgramProblem → String
  | .missing => "No program provided"
  | .source e => e.message

/-- Why a session has no report. -/
inductive SessionError
  | unknownKey (name : String)
  | render (e : Screen.RenderError)
deriving DecidableEq, Repr

namespace Session

/-- How many entries of the trace a session shows. -/
def traceLimit : Nat := 500

/-- The size of a pixel in the picture. -/
def scale : Nat := 8

/-- The machine of a session before its program is loaded. -/
def machine (seed : Int) : Machine :=
  .new defaultTimerResolution .refuse true (some traceLimit) (.ofSeed seed)

/-- The program image, or what is wrong with the listing. -/
def program (s : Session) : Except ProgramProblem (Array UInt8) :=
  match s.image with
  | some bytes => .ok bytes
  | none =>
    if s.listing.toList.all isBlank then .error .missing
    else
      match Program.ofListing s.listing.toList with
      | .ok bytes => .ok bytes.toArray
      | .error e => .error (.source e)

/-- The keys with the given names, or the first name that no key has. -/
def pinsOf : List String → Except String (List Nat)
  | [] => .ok []
  | name :: rest =>
    match Keypad.find? name.toList with
    | some pin => (pinsOf rest).map (pin :: ·)
    | none => .error name

/-- A line under a title. -/
def rule (n : Nat) : String := String.ofList (List.replicate n '=')

def summaryText (size : Nat) (m : Machine) (failure : Option Error) : String :=
  let s := m.summary
  "\n".intercalate ([
    "EXECUTION SUMMARY",
    rule 40,
    "Program size: " ++ toString size ++ " bytes",
    "Cycles: " ++ toString s.cycles,
    "PC: " ++ Hex.address s.pc,
    "Pixels on: " ++ toString s.pixelsOn,
    "Sound: " ++ if m.sounding then "on" else "off"] ++
    match failure with
    | none => []
    | some e => ["\nRuntime: " ++ e.message])

/-- A text with spaces before it up to a width. -/
def padLeft (width : Nat) (s : String) : String :=
  String.ofList (List.replicate (width - s.length) ' ') ++ s

/-- A register in hexadecimal and decimal, marked if it is not zero. -/
def registerLine (name : String) (v : UInt8) : String :=
  "  " ++ name ++ ": 0x" ++ Hex.byte v ++ " " ++ padLeft 4 (toString v.toNat) ++
    if v = 0 then "" else " *"

def registersText (m : Machine) : String :=
  let s := m.summary
  "\n".intercalate (["FINAL REGISTERS", rule 30] ++
    s.registers.map (fun (name, v) => registerLine name v) ++
    ["",
      "  I:  " ++ Hex.address s.index,
      "  SP: " ++ toString s.sp,
      "  DT: " ++ toString s.delayTimer,
      "  ST: " ++ toString s.soundTimer])

def traceText (m : Machine) : String :=
  if m.trace.text = "" then "(no cycles executed)" else m.trace.text

/-- The picture of a machine's screen. -/
def picture (m : Machine) : Except SessionError Image :=
  (Screen.image m.state.pixels scale).mapError .render

/-- The report on a program that was not run. -/
def rejected (m : Machine) (problem : ProgramProblem) : Except SessionError Report :=
  (picture m).map fun p => ⟨p, "Error: " ++ problem.message, "", ""⟩

/-- The report on a run that has ended. -/
def finished (size : Nat) (m : Machine) (failure : Option Error) : Except SessionError Report :=
  (picture m).map fun p => ⟨p, summaryText size m failure, traceText m, registersText m⟩

/-- Runs a program image. A name that no key has matters only if the image could be loaded. -/
def runImage (s : Session) (m : Machine) (program : Array UInt8) : Except SessionError Report :=
  match pinsOf s.keys with
  | .ok pins =>
    match Machine.play program pins s.cycles m with
    | .ok _ m => finished program.size m none
    | .error e m => finished program.size m (some e)
  | .error name =>
    match Machine.load program m with
    | .ok _ _ => .error (.unknownKey name)
    | .error e m => finished program.size m (some e)

def run (s : Session) : Except SessionError Report :=
  match s.program with
  | .error problem => rejected (machine s.seed) problem
  | .ok program => s.runImage (machine s.seed) program

end Session

end Chip8
