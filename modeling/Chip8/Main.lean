import Chip8.CommandLine.Respond

/-!
# The program

Reads the file that the command line names, if it names one, and writes the answer.
-/

set_option autoImplicit false

namespace Chip8

/-- What a path leads to. A directory is found, but cannot be read; a name that is too long is not a
possible argument. -/
def lookUp (path : String) : IO CommandLine.FileEntry := do
  try
    let bytes ← IO.FS.readBinFile path
    return .file bytes.data
  catch
    | .inappropriateType none .. => return .directory
    | .invalidArgument .. => return .nameTooLong
    | _ => return .absent

end Chip8

def main (args : List String) : IO UInt32 := do
  let entry ←
    match Chip8.CommandLine.requestedFile? args with
    | some path => Chip8.lookUp path
    | none => pure .absent
  match Chip8.CommandLine.respond (fun _ => entry) args with
  | .ok response =>
    (← IO.getStdout).putStr response.out
    (← IO.getStderr).putStr response.err
    return response.status.toUInt32
  | .error abort =>
    (← IO.getStderr).putStrLn abort.message
    return 1
