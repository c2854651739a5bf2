import Chip8.Proofs.CommandLine.Status
import Chip8.Proofs.Text.Lowercase
import Mathlib.Data.List.ReduceOption

/-!
# A list of keys is a set of keys

A list of keys is written with commas, and a part of it, the blanks around it taken away, is nothing
at all or the character of one key, small or capital (`Says`). There is no third way to write a key:
the lower-case forms of Unicode lead to no character of the keypad but from that character and its
capital. A list in which every part says something stands for the keys that its parts name, in
order; any other is refused for its first part that says nothing.

> **Two lists that name the same keys make the same run** (`keys_read_as_set`),

whatever their order, and however often a key is named: holding a key down that is down already
changes nothing.
-/

set_option autoImplicit false

namespace Chip8

open Text

namespace Keypad

/-! ## What a part says -/

/-- The character stands for the key: it is the one that lies there on the keyboard, or its
capital. -/
def IsKey (c : Char) (pin : Nat) : Prop :=
  ∃ k ∈ layout, k.2 = pin ∧ (c = k.1 ∨ c = k.1.toUpper)

/-- What a part of a list says: nothing, or one key. -/
inductive Says (part : List Char) : Option Nat → Prop
  | nothing (h : Trimmed isBlank part []) : Says part none
  | key {c : Char} {pin : Nat} (h : Trimmed isBlank part [c]) (hkey : IsKey c pin) :
      Says part (some pin)

/-- A text names a key in one of its parts. -/
def Names (cs : List Char) (pin : Nat) : Prop :=
  ∃ part ∈ cs.splitOn ',', Says part (some pin)

theorem layout_small : ∀ k ∈ layout, IsSmall k.1 ∧ k.1 ≠ 'k' := by decide

/-- No two keys lie in one place. -/
theorem layout_find? : ∀ k ∈ layout, layout.find? (·.1 == k.1) = some k := by decide

/-- A key has the name of its character in the keyboard's layout, and no other. -/
theorem find?_eq_some_iff {name : List Char} {pin : Nat} :
    find? name = some pin ↔ ∃ k ∈ layout, k.2 = pin ∧ name = [k.1] := by
  constructor
  · intro h
    unfold find? at h
    split at h
    · obtain ⟨k, hk, rfl⟩ := Option.map_eq_some_iff.mp h
      refine ⟨k, List.mem_of_find?_eq_some hk, rfl, ?_⟩
      have hname := List.find?_some hk
      rw [beq_iff_eq.mp hname]
    · cases h
  · rintro ⟨k, hk, rfl, rfl⟩
    rw [find?, layout_find? k hk]
    rfl

/-- Only the character of a key and its capital have the key's name for their lower-case form. -/
theorem lower_eq_name_iff {k : Char × Nat} (hk : k ∈ layout) (text : List Char) :
    lower text = [k.1] ↔ text = [k.1] ∨ text = [k.1.toUpper] :=
  lower_eq_singleton_iff (layout_small k hk).1 (layout_small k hk).2

variable {part : List Char} {pin : Nat}

theorem says_none_iff : Says part none ↔ normalized part = [] := by
  rw [normalized, lower_eq_nil_iff, ← trimmed_iff]
  constructor
  · rintro ⟨h⟩
    exact h
  · exact .nothing

theorem says_some_iff : Says part (some pin) ↔ find? (normalized part) = some pin := by
  rw [find?_eq_some_iff]
  constructor
  · rintro (_ | ⟨h, k, hk, hpin, hc⟩)
    refine ⟨k, hk, hpin, ?_⟩
    rw [normalized, h.trim_eq, lower_eq_name_iff hk, List.singleton_inj, List.singleton_inj]
    exact hc
  · rintro ⟨k, hk, hpin, hname⟩
    rw [normalized, lower_eq_name_iff hk, ← trimmed_iff, ← trimmed_iff] at hname
    rcases hname with h | h
    · exact .key h ⟨k, hk, hpin, Or.inl rfl⟩
    · exact .key h ⟨k, hk, hpin, Or.inr rfl⟩

/-- A part says one thing at most. -/
theorem Says.unique {s s' : Option Nat} (h : Says part s) (h' : Says part s') : s = s' := by
  have hnothing : find? [] = none := rfl
  cases s with
  | none =>
    cases s' with
    | none => rfl
    | some pin' =>
      rw [says_some_iff, says_none_iff.mp h, hnothing] at h'
      cases h'
  | some pin =>
    rw [says_some_iff] at h
    cases s' with
    | none =>
      rw [says_none_iff.mp h', hnothing] at h
      cases h
    | some pin' => exact h.symm.trans (says_some_iff.mp h')

/-! ## Lists of parts -/

/-- The first part of a list is passed over, or gives its key, or is what the list is refused
for. -/
theorem ofParts_cons_cases (part : List Char) (rest : List (List Char)) :
    (Says part none ∧ ofParts (part :: rest) = ofParts rest) ∨
    (∃ pin, Says part (some pin) ∧ ofParts (part :: rest) = (ofParts rest).map (pin :: ·)) ∨
    ((∀ s, ¬ Says part s) ∧ ofParts (part :: rest) = .error (normalized part)) := by
  rw [ofParts]
  by_cases hnone : normalized part = []
  · rw [if_pos hnone]
    exact Or.inl ⟨says_none_iff.mpr hnone, rfl⟩
  · rw [if_neg hnone]
    cases hfind : find? (normalized part) with
    | some pin => exact Or.inr (Or.inl ⟨pin, says_some_iff.mpr hfind, rfl⟩)
    | none =>
      refine Or.inr (Or.inr ⟨fun s hs => ?_, rfl⟩)
      cases s with
      | none => exact hnone (says_none_iff.mp hs)
      | some pin =>
        rw [says_some_iff, hfind] at hs
        cases hs

/-- A list is accepted for what its parts say. -/
theorem ofParts_eq_ok_iff {parts : List (List Char)} : ∀ {pins : List Nat},
    ofParts parts = .ok pins ↔
      ∃ said, List.Forall₂ Says parts said ∧ pins = said.reduceOption := by
  induction parts with
  | nil =>
    intro pins
    constructor
    · rintro ⟨⟩
      exact ⟨[], .nil, rfl⟩
    · rintro ⟨_, ⟨⟩, rfl⟩
      rfl
  | cons part rest ih =>
    intro pins
    obtain ⟨hpart, heq⟩ | ⟨pin, hpart, heq⟩ | ⟨hnot, heq⟩ := ofParts_cons_cases part rest
    · rw [heq, ih]
      constructor
      · rintro ⟨said, hsaid, hpins⟩
        exact ⟨none :: said, .cons hpart hsaid, hpins.trans (List.reduceOption_cons_of_none _).symm⟩
      · rintro ⟨_, _ | ⟨hfirst, hsaid⟩, rfl⟩
        rw [hfirst.unique hpart, List.reduceOption_cons_of_none]
        exact ⟨_, hsaid, rfl⟩
    · rw [heq]
      constructor
      · intro h
        cases hrest : ofParts rest with
        | error name =>
          rw [hrest] at h
          cases h
        | ok more =>
          rw [hrest] at h
          cases h
          obtain ⟨said, hsaid, rfl⟩ := ih.mp hrest
          exact ⟨some pin :: said, .cons hpart hsaid, (List.reduceOption_cons_of_some _ _).symm⟩
      · rintro ⟨_, _ | ⟨hfirst, hsaid⟩, rfl⟩
        rw [hfirst.unique hpart, List.reduceOption_cons_of_some, ih.mpr ⟨_, hsaid, rfl⟩]
        rfl
    · rw [heq]
      constructor
      · rintro ⟨⟩
      · rintro ⟨_, _ | ⟨hfirst, -⟩, -⟩
        exact absurd hfirst (hnot _)

theorem forall_says_iff {parts : List (List Char)} :
    (∃ said, List.Forall₂ Says parts said) ↔ ∀ part ∈ parts, ∃ s, Says part s := by
  induction parts with
  | nil => exact iff_of_true ⟨[], .nil⟩ (List.forall_mem_nil _)
  | cons part rest ih =>
    rw [List.forall_mem_cons, ← ih]
    constructor
    · rintro ⟨_, _ | ⟨hfirst, hsaid⟩⟩
      exact ⟨⟨_, hfirst⟩, _, hsaid⟩
    · rintro ⟨⟨s, hfirst⟩, said, hsaid⟩
      exact ⟨s :: said, .cons hfirst hsaid⟩

/-- A list is refused for the first of its parts that says nothing one could understand. -/
theorem ofParts_eq_error_iff {parts : List (List Char)} {name : List Char} :
    ofParts parts = .error name ↔
      ∃ part, Program.IsFirst (fun part => ∀ s, ¬ Says part s) parts part ∧
        name = normalized part := by
  induction parts with
  | nil =>
    constructor
    · rintro ⟨⟩
    · rintro ⟨part, ⟨before, after, h, -⟩, -⟩
      exact absurd h.symm (List.append_ne_nil_of_right_ne_nil before (List.cons_ne_nil part after))
  | cons part rest ih =>
    simp only [Program.isFirst_cons_iff]
    obtain ⟨hpart, heq⟩ | ⟨pin, hpart, heq⟩ | ⟨hnot, heq⟩ := ofParts_cons_cases part rest
    · have hread : ¬ ∀ s, ¬ Says part s := fun h => h _ hpart
      rw [heq, ih]
      simp only [hread, false_and, false_or, not_false_eq_true, true_and]
    · have hread : ¬ ∀ s, ¬ Says part s := fun h => h _ hpart
      have hmap : (ofParts rest).map (pin :: ·) = .error name ↔ ofParts rest = .error name := by
        cases ofParts rest with
        | ok more => exact iff_of_false (by rintro ⟨⟩) (by rintro ⟨⟩)
        | error name' => exact Iff.rfl
      rw [heq, hmap, ih]
      simp only [hread, false_and, false_or, not_false_eq_true, true_and]
    · rw [heq, Except.error.injEq]
      constructor
      · rintro rfl
        exact ⟨part, Or.inl ⟨hnot, rfl⟩, rfl⟩
      · rintro ⟨_, ⟨-, rfl⟩ | ⟨hread, -⟩, rfl⟩
        · rfl
        · exact absurd hnot hread

/-- Something is said if and only if some part says it. -/
theorem said_mem_iff {parts : List (List Char)} {said : List (Option Nat)}
    (h : List.Forall₂ Says parts said) (s : Option Nat) :
    s ∈ said ↔ ∃ part ∈ parts, Says part s := by
  induction h with
  | nil => simp
  | @cons part said' parts said hfirst _ ih =>
    have hsame : s = said' ↔ Says part s :=
      ⟨fun heq => heq ▸ hfirst, fun hs => hs.unique hfirst⟩
    rw [List.mem_cons, ih, hsame, List.exists_mem_cons_iff]

variable {cs : List Char} {pins pins' : List Nat}

theorem ofText_eq_ok_iff : ofText cs = .ok pins ↔
    ∃ said, List.Forall₂ Says (cs.splitOn ',') said ∧ pins = said.reduceOption := by
  rw [ofText, splitAt_eq_splitOn, ofParts_eq_ok_iff]

/-- The keys that a list is accepted for are those that it names. -/
theorem mem_iff_names (h : ofText cs = .ok pins) (pin : Nat) : pin ∈ pins ↔ Names cs pin := by
  obtain ⟨said, hsaid, rfl⟩ := ofText_eq_ok_iff.mp h
  rw [List.reduceOption_mem_iff, said_mem_iff hsaid, Names]

/-! ## The value of the option -/

open CommandLine

theorem keysValue_eq_ok_iff : keysValue cs = .ok pins ↔ ofText cs = .ok pins := by
  rw [keysValue]
  cases ofText cs with
  | ok pins' => simp [Except.mapError]
  | error name => simp [Except.mapError]

theorem keysValue_eq_error_iff {problem : OptionProblem} : keysValue cs = .error problem ↔
    ∃ name, ofText cs = .error name ∧ problem = .badValue (unknownKeyMessage name) := by
  rw [keysValue]
  cases ofText cs with
  | ok pins' => simp [Except.mapError]
  | error name => simp [Except.mapError, eq_comm]

/-- How a list of keys is read: it is accepted if every part says something, for the keys that the
parts name, in order, and refused for the first other part, blanks taken away and in lower case. -/
structure KeysRead (cs : List Char) : Prop where
  accepted : (∃ pins, keysValue cs = .ok pins) ↔ ∀ part ∈ cs.splitOn ',', ∃ s, Says part s
  pins : ∀ pins, keysValue cs = .ok pins ↔
    ∃ said, List.Forall₂ Says (cs.splitOn ',') said ∧ pins = said.reduceOption
  refused : ∀ problem, keysValue cs = .error problem ↔
    ∃ part core, Program.IsFirst (fun part => ∀ s, ¬ Says part s) (cs.splitOn ',') part ∧
      Trimmed isBlank part core ∧ problem = .badValue (unknownKeyMessage (lower core))

theorem keysRead (cs : List Char) : KeysRead cs where
  accepted := by
    simp only [keysValue_eq_ok_iff, ofText_eq_ok_iff, ← forall_says_iff]
    exact ⟨fun ⟨_, said, hsaid, _⟩ => ⟨said, hsaid⟩, fun ⟨said, hsaid⟩ => ⟨_, said, hsaid, rfl⟩⟩
  pins pins := keysValue_eq_ok_iff.trans ofText_eq_ok_iff
  refused problem := by
    rw [keysValue_eq_error_iff, ofText, splitAt_eq_splitOn]
    constructor
    · rintro ⟨name, hname, rfl⟩
      obtain ⟨part, hfirst, rfl⟩ := ofParts_eq_error_iff.mp hname
      exact ⟨part, _, hfirst, trimmed_iff.mpr rfl, rfl⟩
    · rintro ⟨part, core, hfirst, hcore, rfl⟩
      refine ⟨normalized part, ofParts_eq_error_iff.mpr ⟨part, hfirst, rfl⟩, ?_⟩
      rw [normalized, hcore.trim_eq]

/-- A program that runs from the command line is told of the keys, and not how they were written. -/
theorem runProgram_congr (hpins : ∀ pin ∈ pins, pin < keyCount)
    (hsame : ∀ pin, pin ∈ pins ↔ pin ∈ pins') (s : Settings) (before : List String)
    (program : Array UInt8) :
    runProgram { s with keys := pins } before program =
      runProgram { s with keys := pins' } before program := by
  have hmachine (pins : List Nat) : Settings.machine { s with keys := pins } = s.machine := rfl
  have hreport (pins : List Nat) : report { s with keys := pins } = report s := rfl
  rw [runProgram, runProgram, hmachine pins, hmachine pins', hreport pins, hreport pins']
  cases hm : s.machine with
  | error abort => rfl
  | ok m =>
    have hplay : m.playLogged program pins (s.cycles.getD 0) =
        m.playLogged program pins' (s.cycles.getD 0) :=
      Machine.playLogged_congr (machine_valid hm) hpins hsame _
    simp only [bind, Except.bind, hplay]

/-- **A list of keys is read as a set of keys.** It is accepted just for what its parts say
(`KeysRead`); only the character of a key and its capital come to the key's name in lower case; and
two accepted lists that name the same keys take a machine to the same state, whichever program it
plays with these keys held down, and for however many cycles, and have the same answer on the
command line. -/
theorem keys_read_as_set : (∀ cs, KeysRead cs) ∧
    (∀ k ∈ layout, ∀ text, lower text = [k.1] ↔ text = [k.1] ∨ text = [k.1.toUpper]) ∧
    ∀ cs cs' pins pins', keysValue cs = .ok pins → keysValue cs' = .ok pins' →
      (∀ pin, Names cs pin ↔ Names cs' pin) →
        (∀ m : Machine, m.state.Valid → ∀ program cycles,
          m.play program pins cycles = m.play program pins' cycles) ∧
        ∀ (s : Settings) before program, runProgram { s with keys := pins } before program =
          runProgram { s with keys := pins' } before program := by
  refine ⟨keysRead, fun k hk => lower_eq_name_iff hk, ?_⟩
  intro cs cs' pins pins' hpins hpins' hnames
  rw [keysValue_eq_ok_iff] at hpins hpins'
  have hsame : ∀ pin, pin ∈ pins ↔ pin ∈ pins' := fun pin => by
    rw [mem_iff_names hpins, mem_iff_names hpins', hnames]
  refine ⟨fun m hv program cycles => ?_, runProgram_congr (ofText_lt hpins) hsame⟩
  rw [← Machine.playLogged_fst, ← Machine.playLogged_fst,
    Machine.playLogged_congr hv (ofText_lt hpins) hsame]

/-- A machine with two keys held down, each of them named once, and named once more, and with
capitals, blanks and an empty part. -/
theorem keys_read_as_set_repeated :
    keysValue "1,q".toList = .ok [1, 4] ∧ keysValue " Q,,1 ,q".toList = .ok [4, 1, 4] ∧
      (State.initial (.ofSeed 7)).Valid ∧
      ∀ cycles, (Machine.new 1 .refuse true none (.ofSeed 7)).play #[0xE0, 0x9E] [1, 4] cycles =
        (Machine.new 1 .refuse true none (.ofSeed 7)).play #[0xE0, 0x9E] [4, 1, 4] cycles := by
  have hplain : keysValue "1,q".toList = .ok [1, 4] := by decide +kernel
  have hrepeated : keysValue " Q,,1 ,q".toList = .ok [4, 1, 4] := by decide +kernel
  have hv : (State.initial (.ofSeed 7)).Valid := State.initial_valid _
  have hnames (pin : Nat) : Names "1,q".toList pin ↔ Names " Q,,1 ,q".toList pin := by
    rw [← mem_iff_names (keysValue_eq_ok_iff.mp hplain),
      ← mem_iff_names (keysValue_eq_ok_iff.mp hrepeated)]
    simp only [List.mem_cons, List.not_mem_nil, or_false]
    omega
  have hsame := keys_read_as_set.2.2 _ _ _ _ hplain hrepeated hnames
  exact ⟨hplain, hrepeated, hv, hsame.1 (Machine.new 1 .refuse true none (.ofSeed 7)) hv _⟩

end Keypad

end Chip8
