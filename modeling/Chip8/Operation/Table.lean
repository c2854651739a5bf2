import Chip8.Operation.Execute

/-!
# The table of operations

Hosts ask for operations by key. The table knows the key of every operation of the machine; as long
as it is not frozen a host can add keys of its own, which do nothing. A new table is frozen.
-/

set_option autoImplicit false

namespace Chip8

structure OperationTable where
  frozen : Bool := true
  /-- The keys that a host has added. -/
  added : List String := []

namespace OperationTable

def mem (t : OperationTable) (key : String) : Bool :=
  (Operation.ofKey? key).isSome || t.added.contains key

/-- The keys of the table. -/
def keys (t : OperationTable) : List String := Operation.all.map Operation.key ++ t.added

def freeze (t : OperationTable) : OperationTable := { t with frozen := true }

def thaw (t : OperationTable) : OperationTable := { t with frozen := false }

/-- Adds a key that does nothing. -/
def add (t : OperationTable) (key : String) : Except Misuse OperationTable :=
  if t.frozen then .error .tableFrozen
  else if t.mem key then .error (.duplicateOperation key)
  else .ok { t with added := t.added ++ [key] }

/-- Carries out the operation with a key. -/
def execute (t : OperationTable) (key : String) (args : Operands) : State.Action Unit :=
  match Operation.ofKey? key with
  | some op => op.execute args
  | none => if t.added.contains key then pure () else .misuse (.unknownOperation key)

end OperationTable

end Chip8
