import Chip8.Text.Blank

/-!
# Paths

The normal form of a path, as messages show it: no empty parts, no parts that name the directory
they stand in, and a dot for the path that has no parts at all. A path from the root keeps its
slash, and one that begins with exactly two slashes keeps both, since two may mean another root.
-/

set_option autoImplicit false

namespace Chip8.CommandLine.Path

open Text

/-- The parts of a path that lead somewhere. -/
def parts (path : List Char) : List (List Char) :=
  (splitAt '/' path).filter fun p => p ≠ [] && p ≠ ['.']

/-- What a path begins with if it begins at the root. -/
def root : List Char → List Char
  | '/' :: '/' :: '/' :: _ => ['/']
  | '/' :: '/' :: _ => ['/', '/']
  | '/' :: _ => ['/']
  | _ => []

def normal (path : List Char) : List Char :=
  match root path ++ ['/'].intercalate (parts path) with
  | [] => ['.']
  | cs => cs

end Chip8.CommandLine.Path
