import Chip8.CommandLine.Path

/-!
# Where paths lead

What a path leads to, seen from a directory that holds files and nothing else. Of what lies outside
that directory only the directories above it are known; every other name out there is absent.

A path is followed part by part, and the first part that leads nowhere decides: a name after a file
or after an absent name is never looked at. Names and paths have greatest lengths, in bytes. The
length of the path is looked at first, and that of a name when the path has come to it.
-/

set_option autoImplicit false

namespace Chip8.CommandLine

/-- What a path leads to. -/
inductive FileEntry
  | absent
  | directory
  | file (bytes : Array UInt8)
  /-- A name on the way, or the path itself, is longer than names and paths can be. -/
  | nameTooLong
deriving DecidableEq, Repr

/-- A directory of files, by name. -/
structure Directory where
  files : List (String × Array UInt8)

namespace Directory

/-- The bytes of the longest name. -/
def maxNameBytes : Nat := 255

/-- The bytes of the longest path. -/
def maxPathBytes : Nat := 4095

def byteCount (cs : List Char) : Nat := (String.ofList cs).utf8ByteSize

/-- The part that leads to the directory above. -/
def isUp (part : List Char) : Bool := part == ['.', '.']

/-- A path that leaves the directory at once, to the root or upwards. -/
def leaves (path : List Char) : Bool :=
  !(Path.root path).isEmpty || (Path.parts path).head?.any isUp

/-- What a name in the directory leads to, with the parts that follow it. -/
def enter (d : Directory) (name : List Char) (rest : List (List Char)) : FileEntry :=
  match d.files.lookup (String.ofList name), rest with
  | some bytes, [] => .file bytes
  | _, _ => .absent

/-- What a path leads to. -/
def lookUp (d : Directory) (path : List Char) : FileEntry :=
  if path.contains '\x00' then .absent
  else if byteCount (Path.normal path) > maxPathBytes then .nameTooLong
  else
    match (Path.parts path).dropWhile isUp with
    | [] => .directory
    | name :: rest =>
      if byteCount name > maxNameBytes then .nameTooLong
      else if leaves path then .absent
      else d.enter name rest

end Directory

end Chip8.CommandLine
