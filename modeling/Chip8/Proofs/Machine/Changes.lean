import Chip8.Machine.Trace
import Chip8.Proofs.Instruction.Mnemonic

/-!
# What an entry of a trace says of the registers

The second line of an entry is for following the registers and the index without the machine. What
has to be in it is said here without the code that makes it: `Lists` is the list of all differences
between two register files, in order, each with the value before and the value after. An entry has a
line of changes if there is a difference, and then it is the line of that list (`Shown`).

> **One change made is one difference fewer** (`Lists.step`),

so that whoever makes all changes of a list arrives at the second file (`Lists.made`).
-/

set_option autoImplicit false

namespace Chip8

open Text Text.Numeral

/-- What can be followed in the text of a trace. -/
structure RegisterFile where
  registers : Array UInt8
  index : Int
deriving DecidableEq

def Snapshot.file (s : Snapshot) : RegisterFile := ⟨s.registers, s.index⟩

/-- One difference: where it is, the value before, and the value after. -/
inductive Change
  | register (x : Nat) (v w : UInt8)
  | index (i j : Int)
deriving DecidableEq

namespace Change

/-- The registers by number, and the index behind them. -/
def place : Change → Nat
  | .register x _ _ => x
  | .index _ _ => registerCount

def text : Change → String
  | .register x v w => registerName x ++ ": " ++ Hex.byte v ++ " -> " ++ Hex.byte w
  | .index i j => "I: " ++ Hex.padded 3 i ++ " -> " ++ Hex.padded 3 j

def make (f : RegisterFile) : Change → RegisterFile
  | .register x _ w => { f with registers := f.registers.setIfInBounds x w }
  | .index _ j => { f with index := j }

end Change

/-- The line of some changes. -/
def changesLine (cs : List Change) : String :=
  "    Changes: " ++ ", ".intercalate (cs.map Change.text)

/-- The list has all differences between two register files and nothing else, in the order of their
places. -/
structure Lists (cs : List Change) (f g : RegisterFile) : Prop where
  ordered : cs.Pairwise fun c d => c.place < d.place
  register : ∀ x v w, .register x v w ∈ cs ↔
    f.registers[x]? = some v ∧ g.registers[x]? = some w ∧ v ≠ w
  index : ∀ i j, .index i j ∈ cs ↔ f.index = i ∧ g.index = j ∧ i ≠ j

/-- The lines that an entry has to have: one if it changed nothing that can be followed, and
otherwise a second one, for all that it changed. -/
inductive TraceEntry.Shown (e : TraceEntry) : List String → Prop
  | still (h : e.after.file = e.before.file) : e.Shown [e.header]
  | moved {cs : List Change} (h : e.after.file ≠ e.before.file)
      (hcs : Lists cs e.before.file e.after.file) : e.Shown [e.header, changesLine cs]

/-! ## Making the changes of a list -/

section

variable {c : Change} {cs : List Change} {f g : RegisterFile}

theorem Lists.place_lt (h : Lists (c :: cs) f g) : ∀ d ∈ cs, c.place < d.place :=
  (List.pairwise_cons.mp h.ordered).1

/-- Once a change is made, the others are what is left to do. -/
theorem Lists.step (h : Lists (c :: cs) f g) : Lists cs (c.make f) g := by
  have hlater := h.place_lt
  have hordered := (List.pairwise_cons.mp h.ordered).2
  cases c with
  | register x v w =>
    obtain ⟨hv, hw, -⟩ := (h.register x v w).mp List.mem_cons_self
    obtain ⟨hx, -⟩ := Array.getElem?_eq_some_iff.mp hv
    refine ⟨hordered, fun y v' w' => ?_, fun i j => ?_⟩
    · have hfile : (Change.make f (.register x v w)).registers[y]? =
          if x = y then some w else f.registers[y]? := by
        rw [Change.make, Array.getElem?_setIfInBounds, if_pos hx]
      rw [hfile]
      by_cases hxy : x = y
      · -- at the place of the change nothing is left to do
        subst hxy
        rw [if_pos rfl, hw]
        refine iff_of_false (fun hmem => Nat.lt_irrefl x (hlater _ hmem)) ?_
        rintro ⟨⟨⟩, ⟨⟩, hne⟩
        exact hne rfl
      · rw [if_neg hxy, ← h.register y v' w', List.mem_cons, or_iff_right]
        rintro ⟨⟩
        exact hxy rfl
    · have hfile : (Change.make f (.register x v w)).index = f.index := rfl
      rw [hfile, ← h.index i j, List.mem_cons, or_iff_right]
      nofun
  | index i j =>
    obtain ⟨-, hj, -⟩ := (h.index i j).mp List.mem_cons_self
    refine ⟨hordered, fun x v w => ?_, fun i' j' => ?_⟩
    · rw [Change.make, ← h.register x v w, List.mem_cons, or_iff_right]
      nofun
    · rw [Change.make, hj]
      refine iff_of_false (fun hmem => Nat.lt_irrefl registerCount (hlater _ hmem)) ?_
      rintro ⟨rfl, rfl, hne⟩
      exact hne rfl

/-- Without differences there is one file. -/
theorem Lists.eq_of_nil (h : Lists [] f g) (hsize : f.registers.size = g.registers.size) :
    f = g := by
  obtain ⟨registers, index⟩ := f
  obtain ⟨registers', index'⟩ := g
  have hindex : index = index' := by
    by_contra hne
    exact List.not_mem_nil ((h.index index index').mpr ⟨rfl, rfl, hne⟩)
  have hregisters : registers = registers' := by
    refine Array.ext hsize fun x hx hx' => ?_
    by_contra hne
    exact List.not_mem_nil ((h.register x registers[x] registers'[x]).mpr
      ⟨Array.getElem?_eq_getElem hx, Array.getElem?_eq_getElem hx', hne⟩)
  rw [hindex, hregisters]

/-- **All changes made, the first file has become the second.** -/
theorem Lists.made (h : Lists cs f g) (hsize : f.registers.size = g.registers.size) :
    cs.foldl Change.make f = g := by
  induction cs generalizing f with
  | nil => exact h.eq_of_nil hsize
  | cons c cs ih =>
    refine ih h.step ?_
    rw [← hsize]
    cases c with
    | register x v w => exact Array.size_setIfInBounds
    | index i j => rfl

end

/-! ## The lines of an entry -/

namespace TraceEntry

/-- What an entry shows to have changed. -/
def changed (e : TraceEntry) : List Change :=
  (e.registerChanges.map fun (x, v, w) => .register x v w) ++
    if e.before.index = e.after.index then [] else [.index e.before.index e.after.index]

theorem changes_eq (e : TraceEntry) : e.changes = e.changed.map Change.text := by
  rw [changes, changed, List.map_append, List.map_map]
  congr 1
  split
  · rfl
  · rfl

theorem mem_registerChanges {e : TraceEntry} {x : Nat} {v w : UInt8} :
    (x, v, w) ∈ e.registerChanges ↔
      e.before.registers[x]? = some v ∧ e.after.registers[x]? = some w ∧ v ≠ w := by
  have hzip : ((v, w), x) ∈ (e.before.registers.toList.zip e.after.registers.toList).zipIdx ↔
      e.before.registers[x]? = some v ∧ e.after.registers[x]? = some w := by
    rw [List.mk_mem_zipIdx_iff_getElem?, List.getElem?_zip_eq_some, Array.getElem?_toList,
      Array.getElem?_toList]
  rw [← and_assoc, ← hzip, registerChanges, List.mem_map]
  constructor
  · rintro ⟨⟨⟨v, w⟩, x⟩, hmem, ⟨⟩⟩
    simpa using List.mem_filter.mp hmem
  · rintro ⟨hmem, hne⟩
    exact ⟨((v, w), x), List.mem_filter.mpr ⟨hmem, by simpa using hne⟩, rfl⟩

theorem registerChanges_ordered (e : TraceEntry) :
    e.registerChanges.Pairwise fun c d => c.1 < d.1 := by
  have hplaces : (e.before.registers.toList.zip e.after.registers.toList).zipIdx.Pairwise
      fun c d => c.2 < d.2 := by
    rw [← List.pairwise_map, List.zipIdx_map_snd]
    exact List.pairwise_lt_range' 1
  exact List.pairwise_map.mpr (hplaces.sublist List.filter_sublist)

/-- **What an entry shows is the list of all differences.** -/
theorem lists_changed {e : TraceEntry} (hsize : e.before.registers.size = registerCount) :
    Lists e.changed e.before.file e.after.file where
  ordered := by
    refine List.pairwise_append.mpr ⟨?_, ?_, ?_⟩
    · exact List.pairwise_map.mpr e.registerChanges_ordered
    · split
      · exact .nil
      · exact List.pairwise_singleton _ _
    · -- the index stands behind all registers
      intro c hc d hd
      obtain ⟨⟨x, v, w⟩, hmem, rfl⟩ := List.mem_map.mp hc
      obtain ⟨hx, -⟩ := Array.getElem?_eq_some_iff.mp (mem_registerChanges.mp hmem).1
      split at hd
      · cases hd
      · obtain rfl := List.mem_singleton.mp hd
        rw [hsize] at hx
        exact hx
  register x v w := by
    refine Iff.trans ?_ mem_registerChanges
    have hindex : Change.register x v w ∉ if e.before.index = e.after.index then []
        else [Change.index e.before.index e.after.index] := by
      split
      · nofun
      · nofun
    rw [changed, List.mem_append, or_iff_left hindex, List.mem_map]
    constructor
    · rintro ⟨⟨x, v, w⟩, hmem, ⟨⟩⟩
      exact hmem
    · exact fun hmem => ⟨_, hmem, rfl⟩
  index i j := by
    have hregisters : Change.index i j ∉ e.registerChanges.map fun (x, v, w) =>
        Change.register x v w := by
      intro hmem
      obtain ⟨_, -, ⟨⟩⟩ := List.mem_map.mp hmem
    rw [changed, List.mem_append, or_iff_right hregisters]
    by_cases hsame : e.before.index = e.after.index
    · rw [if_pos hsame]
      refine iff_of_false List.not_mem_nil ?_
      rintro ⟨rfl, rfl, hne⟩
      exact hne hsame
    · rw [if_neg hsame, List.mem_singleton, Change.index.injEq]
      constructor
      · rintro ⟨rfl, rfl⟩
        exact ⟨rfl, rfl, hsame⟩
      · rintro ⟨rfl, rfl, -⟩
        exact ⟨rfl, rfl⟩

/-- The registers of an entry are those of a machine. -/
structure Sized (e : TraceEntry) : Prop where
  before : e.before.registers.size = registerCount
  after : e.after.registers.size = registerCount

variable {e : TraceEntry}

theorem Sized.made (h : e.Sized) : e.changed.foldl Change.make e.before.file = e.after.file :=
  (lists_changed h.before).made (h.before.trans h.after.symm)

theorem Sized.changed_eq_nil_iff (h : e.Sized) :
    e.changed = [] ↔ e.after.file = e.before.file := by
  constructor
  · intro hnil
    rw [← h.made, hnil, List.foldl_nil]
  · intro hsame
    have hlists := lists_changed h.before
    rw [hsame] at hlists
    refine List.eq_nil_iff_forall_not_mem.mpr fun c hmem => ?_
    cases c with
    | register x v w =>
      obtain ⟨hv, hw, hne⟩ := (hlists.register x v w).mp hmem
      exact hne (Option.some.inj (hv.symm.trans hw))
    | index i j =>
      obtain ⟨hi, hj, hne⟩ := (hlists.index i j).mp hmem
      exact hne (hi.symm.trans hj)

theorem exists_mem_lines (e : TraceEntry) : ∃ line, line ∈ e.lines := by
  rw [lines]
  split
  · exact ⟨_, List.mem_cons_self⟩
  · exact ⟨_, List.mem_cons_self⟩

/-- An entry has the lines that it has to have. -/
theorem Sized.shown (h : e.Sized) : e.Shown e.lines := by
  have hchanges := changes_eq e
  rw [lines]
  split
  · rename_i hnil
    rw [hnil, eq_comm, List.map_eq_nil_iff, h.changed_eq_nil_iff] at hchanges
    exact .still hchanges
  · rename_i hne
    rw [hchanges]
    refine .moved ?_ (lists_changed h.before)
    rw [ne_eq, ← h.changed_eq_nil_iff, ← List.map_eq_nil_iff, ← hchanges]
    exact hne

end TraceEntry

/-! ## No text runs over a line -/

theorem Change.oneLine_text (c : Change) : OneLine c.text := by
  have harrow : OneLine " -> " := by decide
  cases c with
  | register x v w =>
    have hname := (oneLine_registerName x).append (b := ": ") (by decide)
    exact ((hname.append (oneLine_padded 2 _)).append harrow).append (oneLine_padded 2 _)
  | index i j =>
    have hname : OneLine "I: " := by decide
    exact ((hname.append (oneLine_padded 3 i)).append harrow).append (oneLine_padded 3 j)

theorem oneLine_changesLine (cs : List Change) : OneLine (changesLine cs) :=
  OneLine.append (by decide) (oneLine_intercalate (by decide)
    (List.forall_mem_map.mpr fun c _ => c.oneLine_text))

theorem InvalidReason.oneLine_text (r : InvalidReason) : OneLine r.text := by
  cases r with
  | machineRoutine => decide
  | lowNibble n | registerOperation n => exact OneLine.append (by decide) (oneLine_padded 1 n.val)
  | keyOperation s | miscOperation s => exact OneLine.append (by decide) (oneLine_padded 2 s.val)

theorem Skip.oneLine_text (s : Skip) : OneLine s.text := by
  have hname : OneLine "Skipped " ∧ OneLine ": " := by decide
  exact ((hname.1.append s.opcode.oneLine_text).append hname.2).append s.reason.oneLine_text

namespace TraceEntry

theorem oneLine_padRight (width : Nat) {s : String} (h : OneLine s) :
    OneLine (padRight width s) := by
  refine h.append fun hmem => ?_
  rw [String.toList_ofList] at hmem
  cases (List.mem_replicate.mp hmem).2

theorem oneLine_header (e : TraceEntry) : OneLine e.header := by
  have hblank : OneLine " " := by decide
  have hcycle : OneLine ("[Cycle " ++ toString e.cycle ++ "] ") :=
    (OneLine.append (by decide) (oneLine_toString e.cycle)).append (by decide)
  have haddress : OneLine (Hex.address e.pc) := OneLine.append (by decide) (oneLine_padded 3 e.pc)
  have hmnemonic := oneLine_padRight 18 e.opcode.oneLine_mnemonic
  have hstart := (((((hcycle.append haddress).append hblank).append e.opcode.oneLine_text).append
    hblank).append hmnemonic).append hblank
  refine hstart.append ?_
  cases e.skipped with
  | none => decide
  | some s => exact OneLine.append (by decide) s.oneLine_text

theorem Shown.oneLine {e : TraceEntry} {ls : List String} (h : e.Shown ls) :
    ∀ l ∈ ls, OneLine l := by
  cases h with
  | still => exact List.forall_mem_singleton.mpr e.oneLine_header
  | moved =>
    exact List.forall_mem_cons.mpr
      ⟨e.oneLine_header, List.forall_mem_singleton.mpr (oneLine_changesLine _)⟩

end TraceEntry

end Chip8
