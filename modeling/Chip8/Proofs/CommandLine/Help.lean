import Chip8.CommandLine.Help

/-!
# The help text fits the terminal

What it means that words are set well on lines is said here without the function that does it
(`Filled`): a line that has room takes the next word, and only a single word may be too long for its
line. Words can be set in one such way only, and

> **`fill` sets words in that way** (`fill_eq_iff`).

So the words on the lines are those of the text in their order, and if each has room on a line, all
lines have room. From this the lines of the help text are no longer than those of the terminal
(`length_le_of_mem_lines`).
-/

set_option autoImplicit false

namespace Chip8.CommandLine.Help

variable {width n : Nat} {ws begun more rest : List String} {ls : List (List String)}

/-- The words stand on the lines, in order, and no line has room for the first word of the next. -/
inductive Filled (width : Nat) : List String → List (List String) → Prop
  | nil : Filled width [] []
  | cons {l ws : List String} {ls : List (List String)} (hne : l ≠ [])
      (hroom : (line l).length ≤ width ∨ ∃ w, l = [w])
      (hfull : ∀ w ∈ ws.head?, width < (line (l ++ [w])).length) (hrest : Filled width ws ls) :
      Filled width (l ++ ws) (l :: ls)

/-! ## Setting words on lines -/

theorem length_line_le_append (hne : begun ≠ []) (more : List String) :
    (line begun).length ≤ (line (begun ++ more)).length := by
  cases more with
  | nil => exact Nat.le_of_eq (by rw [List.append_nil])
  | cons w more =>
    rw [line, line, String.intercalate_append_of_ne_nil hne (List.cons_ne_nil w more),
      String.length_append, String.length_append]
    omega

/-- Whatever a line is begun with, the words to come are set well behind it and below. -/
theorem filled_fillAfter : ∀ (ws : List String) {begun : List String}, begun ≠ [] →
    ((line begun).length ≤ width ∨ ∃ w, begun = [w]) →
    Filled width (begun ++ ws) (fillAfter width begun ws)
  | [], _, hne, hroom => .cons hne hroom (by rintro w ⟨⟩) .nil
  | w :: ws, begun, hne, hroom => by
    by_cases h : (line (begun ++ [w])).length ≤ width
    · have hbegun : begun ++ [w] ≠ [] :=
        List.append_ne_nil_of_right_ne_nil begun (List.cons_ne_nil w [])
      have hmore := filled_fillAfter ws hbegun (.inl h)
      rw [List.append_assoc] at hmore
      rwa [fillAfter, if_pos h]
    · rw [fillAfter, if_neg h]
      refine .cons hne hroom ?_ (filled_fillAfter ws (List.cons_ne_nil w []) (.inr ⟨w, rfl⟩))
      rintro w ⟨⟩
      exact Nat.lt_of_not_le h

/-- Words for which there is room are put on the line. -/
theorem fillAfter_append (hne : begun ≠ []) (hroom : (line (begun ++ more)).length ≤ width) :
    fillAfter width begun (more ++ rest) = fillAfter width (begun ++ more) rest := by
  induction more generalizing begun with
  | nil => rw [List.append_nil, List.nil_append]
  | cons w more ih =>
    have hsplit : begun ++ w :: more = begun ++ [w] ++ more := by
      rw [List.append_assoc, List.singleton_append]
    have hbegun : begun ++ [w] ≠ [] :=
      List.append_ne_nil_of_right_ne_nil begun (List.cons_ne_nil w [])
    rw [hsplit] at hroom ⊢
    have hword := Nat.le_trans (length_line_le_append hbegun more) hroom
    rw [List.cons_append, fillAfter, if_pos hword, ih hbegun hroom]

/-- A line is ended by a word for which there is no room. -/
theorem fillAfter_of_full (hfull : ∀ w ∈ rest.head?, width < (line (begun ++ [w])).length) :
    fillAfter width begun rest = begun :: fill width rest := by
  cases rest with
  | nil => rfl
  | cons w rest => rw [fillAfter, if_neg (Nat.not_le_of_lt (hfull w rfl)), fill]

theorem Filled.fill_eq (h : Filled width ws ls) : fill width ws = ls := by
  induction h with
  | nil => rfl
  | @cons l ws ls hne hroom hfull _ ih =>
    have hline : fill width (l ++ ws) = fillAfter width l ws := by
      obtain ⟨w, more, rfl⟩ := List.exists_cons_of_ne_nil hne
      rcases hroom with hroom | ⟨w', hw'⟩
      · exact fillAfter_append (List.cons_ne_nil w []) hroom
      · -- a word that is too long for the line is alone on it
        rw [hw']
        rfl
    rw [hline, fillAfter_of_full hfull, ih]

/-- **Words are set well on lines in one way, and `fill` does it.** -/
theorem fill_eq_iff : fill width ws = ls ↔ Filled width ws ls := by
  refine ⟨?_, Filled.fill_eq⟩
  rintro rfl
  cases ws with
  | nil => exact .nil
  | cons w ws => exact filled_fillAfter ws (List.cons_ne_nil w []) (.inr ⟨w, rfl⟩)

example : (fill 54 (words (ValueOption.purpose .inline))).map line =
    ["Inline program as hex instruction words (e.g. \"6005", "1200\")"] := by decide +kernel

/-- Nothing is lost and nothing is moved. -/
theorem flatten_fill (width : Nat) (ws : List String) : (fill width ws).flatten = ws := by
  have h : Filled width ws (fill width ws) := fill_eq_iff.mp rfl
  generalize fill width ws = ls at h
  induction h with
  | nil => rfl
  | cons _ _ _ _ ih => rw [List.flatten_cons, ih]

/-! ## Room for all lines -/

theorem Filled.length_le (h : Filled width ws ls) (hws : ∀ w ∈ ws, w.length ≤ width) :
    ∀ l ∈ ls, (line l).length ≤ width := by
  induction h with
  | nil => exact List.forall_mem_nil _
  | cons _ hroom _ _ ih =>
    obtain ⟨hl, hws⟩ := List.forall_mem_append.mp hws
    refine List.forall_mem_cons.mpr ⟨?_, ih hws⟩
    rcases hroom with hroom | ⟨w, rfl⟩
    · exact hroom
    · rw [line, String.intercalate_singleton]
      exact hl w (List.mem_singleton_self w)

theorem length_le_of_mem_fill (hws : ∀ w ∈ ws, w.length ≤ width) :
    ∀ l ∈ (fill width ws).map line, l.length ≤ width :=
  List.forall_mem_map.mpr ((fill_eq_iff.mp rfl).length_le hws)

theorem length_blanks (n : Nat) : (blanks n).length = n := by
  rw [blanks, String.length_pushn, String.length_empty, Nat.zero_add]

theorem length_le_of_mem_hang {start : String} {paragraph : List String}
    (h : ∀ l ∈ paragraph, start.length + l.length ≤ n) (hstart : start.length ≤ n) :
    ∀ l ∈ hang start paragraph, l.length ≤ n := by
  cases paragraph with
  | nil => exact List.forall_mem_singleton.mpr hstart
  | cons l paragraph =>
    obtain ⟨hl, hparagraph⟩ := List.forall_mem_cons.mp h
    refine List.forall_mem_cons.mpr ⟨?_, List.forall_mem_map.mpr fun l' hl' => ?_⟩
    · rw [String.length_append]
      exact hl
    · rw [String.length_append, length_blanks]
      exact hparagraph l' hl'

theorem length_le_of_mem_usageLines : ∀ l ∈ usageLines, l.length ≤ textWidth := by
  have hstart : usageStart.length ≤ textWidth := by decide
  have hparts : ∀ part ∈ usageParts, part.length ≤ textWidth - usageStart.length := by
    decide +kernel
  refine length_le_of_mem_hang (fun l hl => ?_) hstart
  exact Nat.add_le_of_le_sub' hstart (length_le_of_mem_fill hparts l hl)

/-- An option has room if its names have, and each word of its purpose in its column. -/
theorem length_le_of_mem_optionLines {s : OptionSpec Flag ValueOption}
    (hnames : (optionStart s).length ≤ textWidth)
    (hwords : ∀ w ∈ words (purpose s.role), w.length ≤ textWidth - purposeColumn) :
    ∀ l ∈ optionLines s, l.length ≤ textWidth := by
  have hcolumn : purposeColumn ≤ textWidth := by decide
  have hparagraph : ∀ l ∈ (fill (textWidth - purposeColumn) (words (purpose s.role))).map line,
      purposeColumn + l.length ≤ textWidth := fun l hl =>
    Nat.add_le_of_le_sub' hcolumn (length_le_of_mem_fill hwords l hl)
  by_cases hshort : (optionStart s).length + 2 ≤ purposeColumn
  · have hstart : (optionStart s ++ blanks (purposeColumn - (optionStart s).length)).length =
        purposeColumn := by
      rw [String.length_append, length_blanks]
      omega
    rw [optionLines, if_pos hshort]
    refine length_le_of_mem_hang (fun l hl => ?_) ?_
    · rw [hstart]
      exact hparagraph l hl
    · rw [hstart]
      exact hcolumn
  · rw [optionLines, if_neg hshort]
    refine List.forall_mem_cons.mpr ⟨hnames, List.forall_mem_map.mpr fun l hl => ?_⟩
    rw [String.length_append, length_blanks]
    exact hparagraph l hl

/-- **The help text fits the terminal.** -/
theorem length_le_of_mem_lines : ∀ l ∈ lines, l.length ≤ textWidth := by
  have hoptions : ∀ l ∈ optionSpecs.flatMap optionLines, l.length ≤ textWidth := by
    refine List.forall_mem_flatMap.mpr fun s hs => length_le_of_mem_optionLines ?_ ?_
    · revert s
      decide +kernel
    · revert s
      decide +kernel
  have habout : ∀ l ∈ ["", "chip8-vm: CHIP-8 virtual machine", "", "options:"],
      l.length ≤ textWidth := by decide +kernel
  have hexamples : ∀ l ∈ [""] ++ exampleLines, l.length ≤ textWidth := by decide +kernel
  rw [lines, List.append_assoc]
  exact List.forall_mem_append.mpr ⟨List.forall_mem_append.mpr
    ⟨List.forall_mem_append.mpr ⟨length_le_of_mem_usageLines, habout⟩, hoptions⟩, hexamples⟩

end Chip8.CommandLine.Help
