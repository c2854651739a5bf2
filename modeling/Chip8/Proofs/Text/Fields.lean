import Mathlib.Data.List.TakeWhile
import Chip8.Text.Blank

/-!
# Fields of a text

What it means that words stand in a text with separators around them is said here without the
function that finds them (`Separated`), as one would write such a text down: some separators, which
may be none, a word, and then either the end or at least one separator and so on. Then

> **`fields` finds those words and no others** (`fields_eq_iff`),

provided that they are words, with no separator inside them.

From the relation everything else is read off: where a separator stands the fields on its two sides
are found apart (`fields_append`), and every character that separates nothing is in some field
(`Separated.exists_mem`).

The same is done for what is left of a text when its ends are trimmed (`Trimmed`), and for lines:
those that a text was put together from are the ones that it is cut into.
-/

set_option autoImplicit false

namespace Chip8.Text

variable {sep : Char → Bool}

/-- A word between separators: it is not empty, and there is no separator in it. -/
structure IsField (sep : Char → Bool) (word : List Char) : Prop where
  ne_nil : word ≠ []
  inside : ∀ c ∈ word, sep c = false

/-- The words stand in the text in this order, and all else in it are separators. There can be some
before the first word and behind the last, and there are some between two words. -/
inductive Separated (sep : Char → Bool) : List (List Char) → List Char → Prop
  | nil {gap : List Char} (hgap : ∀ c ∈ gap, sep c = true) : Separated sep [] gap
  | cons {gap word rest : List Char} {words : List (List Char)} (hgap : ∀ c ∈ gap, sep c = true)
      (hend : ∀ c ∈ rest.head?, sep c = true) (hrest : Separated sep words rest) :
      Separated sep (word :: words) (gap ++ (word ++ rest))

/-! ## Finding the words -/

theorem fields_of_separator {c : Char} (hc : sep c = true) (rest : List Char) :
    fields sep (c :: rest) = fields sep rest := by
  rw [fields.eq_def]
  exact if_pos hc

/-- A word of one character. -/
theorem fields_of_boundary {c : Char} {rest : List Char} (hc : sep c = false)
    (hend : ∀ d ∈ rest.head?, sep d = true) : fields sep (c :: rest) = [c] :: fields sep rest := by
  rw [fields.eq_def]
  cases rest with
  | nil => simp [hc, fields]
  | cons d rest =>
    have hd : sep d = true := hend d rfl
    simp [hc, hd]

/-- A character that belongs to the word behind it. -/
theorem fields_of_inside {c d : Char} {rest word : List Char} {words : List (List Char)}
    (hc : sep c = false) (hd : sep d = false) (hrest : fields sep (d :: rest) = word :: words) :
    fields sep (c :: d :: rest) = (c :: word) :: words := by
  rw [fields.eq_def]
  simp [hc, hd, hrest]

theorem fields_gap_append {gap : List Char} (hgap : ∀ c ∈ gap, sep c = true) (cs : List Char) :
    fields sep (gap ++ cs) = fields sep cs := by
  induction gap with
  | nil => rfl
  | cons c gap ih =>
    obtain ⟨hc, hgap⟩ := List.forall_mem_cons.mp hgap
    rw [List.cons_append, fields_of_separator hc, ih hgap]

/-- A word ends where a separator stands or the text ends. -/
theorem fields_word_append {word rest : List Char} (hword : IsField sep word)
    (hend : ∀ c ∈ rest.head?, sep c = true) :
    fields sep (word ++ rest) = word :: fields sep rest := by
  obtain ⟨hne, hinside⟩ := hword
  induction word with
  | nil => exact absurd rfl hne
  | cons c word ih =>
    obtain ⟨hc, hinside⟩ := List.forall_mem_cons.mp hinside
    cases word with
    | nil => exact fields_of_boundary hc hend
    | cons d word =>
      have hd : sep d = false := hinside d List.mem_cons_self
      exact fields_of_inside hc hd (ih (List.cons_ne_nil d word) hinside)

theorem Separated.fields_eq {words : List (List Char)} {cs : List Char}
    (h : Separated sep words cs) (hwords : ∀ word ∈ words, IsField sep word) :
    fields sep cs = words := by
  induction h with
  | @nil gap hgap =>
    rw [← List.append_nil gap, fields_gap_append hgap]
    rfl
  | cons hgap hend _ ih =>
    obtain ⟨hword, hwords⟩ := List.forall_mem_cons.mp hwords
    rw [fields_gap_append hgap, fields_word_append hword hend, ih hwords]

/-! ## The words found stand in the text -/

/-- One separator more in front changes nothing. -/
theorem Separated.separator_cons {words : List (List Char)} {cs : List Char} {c : Char}
    (hc : sep c = true) (h : Separated sep words cs) : Separated sep words (c :: cs) := by
  cases h with
  | nil hgap => exact .nil (List.forall_mem_cons.mpr ⟨hc, hgap⟩)
  | cons hgap hend hrest =>
    rw [← List.cons_append]
    exact .cons (List.forall_mem_cons.mpr ⟨hc, hgap⟩) hend hrest

/-- A character in front of a word becomes its first. -/
theorem Separated.word_cons {word : List Char} {words : List (List Char)} {cs : List Char}
    (c : Char) {d : Char} (hd : sep d = false) (h : Separated sep (word :: words) (d :: cs)) :
    Separated sep ((c :: word) :: words) (c :: d :: cs) := by
  generalize htext : d :: cs = text at h ⊢
  cases h with
  | @cons gap _ rest _ hgap hend hrest =>
    -- there is no separator before the word, since the text begins with none
    cases gap with
    | cons g gap =>
      obtain ⟨rfl, -⟩ := List.cons_eq_cons.mp htext
      rw [hgap d List.mem_cons_self] at hd
      exact absurd hd (by decide)
    | nil => exact .cons (List.forall_mem_nil _) hend hrest

theorem isField_cons {c : Char} {word : List Char} (hc : sep c = false)
    (hword : ∀ d ∈ word, sep d = false) : IsField sep (c :: word) :=
  ⟨List.cons_ne_nil c word, List.forall_mem_cons.mpr ⟨hc, hword⟩⟩

theorem separated_fields (sep : Char → Bool) (cs : List Char) :
    Separated sep (fields sep cs) cs ∧ ∀ word ∈ fields sep cs, IsField sep word := by
  induction cs with
  | nil => exact ⟨.nil (List.forall_mem_nil _), List.forall_mem_nil _⟩
  | cons c rest ih =>
    obtain ⟨hrest, hwords⟩ := ih
    rcases Bool.eq_false_or_eq_true (sep c) with hc | hc
    · rw [fields_of_separator hc]
      exact ⟨hrest.separator_cons hc, hwords⟩
    · by_cases hend : ∀ d ∈ rest.head?, sep d = true
      · rw [fields_of_boundary hc hend]
        refine ⟨?_, List.forall_mem_cons.mpr ⟨isField_cons hc (List.forall_mem_nil _), hwords⟩⟩
        rw [← List.nil_append (c :: rest)]
        exact .cons (List.forall_mem_nil _) hend hrest
      · cases rest with
        | nil => exact absurd (by simp) hend
        | cons d rest =>
          have hd : sep d = false := by simpa using hend
          cases hfields : fields sep (d :: rest) with
          | nil =>
            -- the rest has a word at least, the one that begins with `d`
            rw [hfields] at hrest
            cases hrest with
            | nil hgap =>
              rw [hgap d List.mem_cons_self] at hd
              exact absurd hd (by decide)
          | cons word words =>
            rw [fields_of_inside hc hd hfields]
            rw [hfields] at hrest hwords
            obtain ⟨hword, hwords⟩ := List.forall_mem_cons.mp hwords
            exact ⟨hrest.word_cons c hd,
              List.forall_mem_cons.mpr ⟨isField_cons hc hword.inside, hwords⟩⟩

/-- **The fields of a text are the words that stand in it between separators.** -/
theorem fields_eq_iff {words : List (List Char)} {cs : List Char} :
    fields sep cs = words ↔ Separated sep words cs ∧ ∀ word ∈ words, IsField sep word :=
  ⟨fun h => h ▸ separated_fields sep cs, fun h => h.1.fields_eq h.2⟩

/-! ## What follows for texts -/

/-- A character that is no separator is in one of the words. -/
theorem Separated.exists_mem {words : List (List Char)} {cs : List Char}
    (h : Separated sep words cs) {c : Char} (hc : c ∈ cs) (hsep : sep c = false) :
    ∃ word ∈ words, c ∈ word := by
  have not_gap {gap : List Char} (hgap : ∀ c ∈ gap, sep c = true) : c ∉ gap := by
    intro hmem
    rw [hgap c hmem] at hsep
    exact absurd hsep (by decide)
  induction h with
  | nil hgap => exact absurd hc (not_gap hgap)
  | @cons gap word rest words hgap _ _ ih =>
    rcases List.mem_append.mp hc with hc | hc
    · exact absurd hc (not_gap hgap)
    · rcases List.mem_append.mp hc with hc | hc
      · exact ⟨word, List.mem_cons_self, hc⟩
      · obtain ⟨word', hword', hmem⟩ := ih hc
        exact ⟨word', List.mem_cons_of_mem word hword', hmem⟩

/-- Only what counts as a separator among the characters of the text matters. -/
theorem fields_congr {sep' : Char → Bool} {cs : List Char} (h : ∀ c ∈ cs, sep' c = sep c) :
    fields sep' cs = fields sep cs := by
  obtain ⟨hsep, hwords⟩ := separated_fields sep cs
  generalize fields sep cs = words at hsep hwords ⊢
  refine fields_eq_iff.mpr ?_
  induction hsep with
  | nil hgap => exact ⟨.nil fun c hc => (h c hc).trans (hgap c hc), List.forall_mem_nil _⟩
  | cons hgap hend _ ih =>
    obtain ⟨hword, hwords⟩ := List.forall_mem_cons.mp hwords
    obtain ⟨hgap', htext⟩ := List.forall_mem_append.mp h
    obtain ⟨hword', hrest'⟩ := List.forall_mem_append.mp htext
    obtain ⟨hsep', hwords'⟩ := ih hrest' hwords
    refine ⟨.cons ?_ ?_ hsep', List.forall_mem_cons.mpr ⟨⟨hword.ne_nil, ?_⟩, hwords'⟩⟩
    · exact fun c hc => (hgap' c hc).trans (hgap c hc)
    · exact fun c hc => (hrest' c (List.mem_of_mem_head? hc)).trans (hend c hc)
    · exact fun c hc => (hword' c hc).trans (hword.inside c hc)

theorem Separated.append {words words' : List (List Char)} {cs cs' : List Char} {c : Char}
    (h : Separated sep words cs) (hc : sep c = true) (h' : Separated sep words' cs') :
    Separated sep (words ++ words') (cs ++ c :: cs') := by
  induction h with
  | @nil gap hgap =>
    rw [List.nil_append]
    induction gap with
    | nil => exact h'.separator_cons hc
    | cons d gap ih =>
      obtain ⟨hd, hgap⟩ := List.forall_mem_cons.mp hgap
      exact (ih hgap).separator_cons hd
  | @cons gap word rest words hgap hend _ ih =>
    rw [List.cons_append, List.append_assoc, List.append_assoc]
    refine .cons hgap ?_ ih
    cases rest with
    | nil => simpa using hc
    | cons d rest => exact hend

/-- The fields on the two sides of a separator. -/
theorem fields_append {c : Char} (hc : sep c = true) (cs cs' : List Char) :
    fields sep (cs ++ c :: cs') = fields sep cs ++ fields sep cs' := by
  obtain ⟨hleft, hleftWords⟩ := separated_fields sep cs
  obtain ⟨hright, hrightWords⟩ := separated_fields sep cs'
  exact (hleft.append hc hright).fields_eq (List.forall_mem_append.mpr ⟨hleftWords, hrightWords⟩)

/-- The fields on the two sides of some separators. -/
theorem fields_append_gap {gap : List Char} (hne : gap ≠ []) (hgap : ∀ c ∈ gap, sep c = true)
    (cs cs' : List Char) : fields sep (cs ++ (gap ++ cs')) = fields sep cs ++ fields sep cs' := by
  cases gap with
  | nil => exact absurd rfl hne
  | cons c gap =>
    obtain ⟨hc, hgap⟩ := List.forall_mem_cons.mp hgap
    rw [List.cons_append, fields_append hc, fields_gap_append hgap]

/-! ## Trimming -/

theorem dropWhile_append_inside {cut : Char → Bool} {gap body : List Char}
    (hgap : ∀ c ∈ gap, cut c = true) (hbody : ∀ c ∈ body.head?, cut c = false) :
    (gap ++ body).dropWhile cut = body := by
  rw [List.dropWhile_append_of_pos hgap]
  cases body with
  | nil => rfl
  | cons c body =>
    have hc : cut c = false := hbody c rfl
    exact List.dropWhile_cons_of_neg (by rw [hc]; decide)

/-- What is left of a text when the characters of a class at its two ends are taken away: it
neither begins nor ends with one, and there are only such characters around it. -/
structure Trimmed (cut : Char → Bool) (cs core : List Char) : Prop where
  around : ∃ before after, cs = before ++ (core ++ after) ∧ (∀ c ∈ before, cut c = true) ∧
    ∀ c ∈ after, cut c = true
  head : ∀ c ∈ core.head?, cut c = false
  last : ∀ c ∈ core.getLast?, cut c = false

theorem Trimmed.trim_eq {cut : Char → Bool} {cs core : List Char} (h : Trimmed cut cs core) :
    trim cut cs = core := by
  obtain ⟨⟨before, after, rfl, hbefore, hafter⟩, hhead, hlast⟩ := h
  have hright : (core ++ after).reverse.dropWhile cut = core.reverse := by
    rw [List.reverse_append]
    refine dropWhile_append_inside (fun c hc => hafter c (List.mem_reverse.mp hc)) ?_
    rw [List.head?_reverse]
    exact hlast
  rw [trim]
  cases core with
  | cons c core =>
    rw [dropWhile_append_inside hbefore, hright, List.reverse_reverse]
    rintro d ⟨⟩
    exact hhead c rfl
  | nil =>
    have hall : ∀ c ∈ before ++ after, cut c = true :=
      List.forall_mem_append.mpr ⟨hbefore, hafter⟩
    have hnone : (before ++ after).dropWhile cut = [] := List.dropWhile_eq_nil_iff.mpr hall
    rw [List.nil_append, hnone]
    rfl

/-- A text without the characters of a class is left alone by trimming, and what is cut around it is
gone. -/
theorem trim_append {cut : Char → Bool} {before body after : List Char}
    (hbefore : ∀ c ∈ before, cut c = true) (hbody : ∀ c ∈ body, cut c = false)
    (hafter : ∀ c ∈ after, cut c = true) : trim cut (before ++ (body ++ after)) = body :=
  Trimmed.trim_eq {
    around := ⟨before, after, rfl, hbefore, hafter⟩
    head := fun c hc => hbody c (List.mem_of_mem_head? hc)
    last := fun c hc => hbody c (List.mem_of_getLast? hc) }

theorem exists_trim (cut : Char → Bool) (cs : List Char) : ∃ before after,
    cs = before ++ (trim cut cs ++ after) ∧ (∀ c ∈ before, cut c = true) ∧
      ∀ c ∈ after, cut c = true := by
  refine ⟨cs.takeWhile cut, ((cs.dropWhile cut).reverse.takeWhile cut).reverse, ?_, ?_, ?_⟩
  · rw [trim, ← List.reverse_append, List.takeWhile_append_dropWhile, List.reverse_reverse,
      List.takeWhile_append_dropWhile]
  · exact fun c hc => List.mem_takeWhile_imp hc
  · exact fun c hc => List.mem_takeWhile_imp (List.mem_reverse.mp hc)

theorem not_cut_of_head_dropWhile {cut : Char → Bool} {cs : List Char} :
    ∀ c ∈ (cs.dropWhile cut).head?, cut c = false := by
  intro c hc
  have hnot := List.head?_dropWhile_not cut cs
  rw [Option.mem_def.mp hc] at hnot
  exact hnot

/-- **A text is trimmed in just one way.** -/
theorem trimmed_iff {cut : Char → Bool} {cs core : List Char} :
    Trimmed cut cs core ↔ trim cut cs = core := by
  constructor
  · exact Trimmed.trim_eq
  · rintro rfl
    refine ⟨exists_trim cut cs, ?_, ?_⟩
    · -- what is cut at the end stands behind what is left, which therefore begins as before
      have hbody : trim cut cs ++ ((cs.dropWhile cut).reverse.takeWhile cut).reverse =
          cs.dropWhile cut := by
        rw [trim, ← List.reverse_append, List.takeWhile_append_dropWhile, List.reverse_reverse]
      intro c hc
      have hhead : (cs.dropWhile cut).head? = some c := by
        rw [← hbody, List.head?_append, Option.mem_def.mp hc, Option.some_or]
      exact not_cut_of_head_dropWhile c hhead
    · intro c hc
      rw [trim, List.getLast?_reverse] at hc
      exact not_cut_of_head_dropWhile c hc

/-! ## Parts between marks -/

/-- The parts of a text between marks are those of a list between the places of an element. -/
theorem splitAt_eq_splitOn (mark : Char) (cs : List Char) :
    splitAt mark cs = cs.splitOn mark := by
  induction cs with
  | nil => rfl
  | cons c cs ih =>
    rw [splitAt, ih]
    unfold List.splitOn
    rw [List.splitOnP_cons_eq_if_modifyHead]
    by_cases hc : c = mark
    · rw [if_pos hc, if_pos (beq_iff_eq.mpr hc)]
    · rw [if_neg hc, if_neg (fun h => hc (beq_iff_eq.mp h))]
      cases hrest : cs.splitOnP (· == mark) with
      | nil => exact absurd hrest (List.splitOnP_ne_nil _ cs)
      | cons part parts => rfl

/-! ## Lines -/

/-- A text without a line end in it. -/
def OneLine (text : String) : Prop := '\n' ∉ text.toList

instance (text : String) : Decidable (OneLine text) :=
  inferInstanceAs (Decidable ('\n' ∉ text.toList))

theorem OneLine.append {a b : String} (ha : OneLine a) (hb : OneLine b) : OneLine (a ++ b) := by
  rw [OneLine, String.toList_append, List.mem_append, not_or]
  exact ⟨ha, hb⟩

theorem OneLine.of_solid {text : String} (h : ∀ c ∈ text.toList, isBlank c = false) :
    OneLine text := by
  intro hmem
  have hblank : isBlank '\n' = true := by decide
  rw [h _ hmem] at hblank
  cases hblank

theorem oneLine_intercalate {sep : String} (hsep : OneLine sep) : ∀ {ts : List String},
    (∀ t ∈ ts, OneLine t) → OneLine (sep.intercalate ts)
  | [], _ => nofun
  | [t], h => by
    rw [String.intercalate_singleton]
    exact h t (List.mem_singleton_self t)
  | t :: t' :: ts, h => by
    obtain ⟨ht, hts⟩ := List.forall_mem_cons.mp h
    rw [String.intercalate_cons_cons]
    exact (ht.append hsep).append (oneLine_intercalate hsep hts)

/-- Lines with line ends between them are found again. -/
theorem splitOn_intercalate_lines {ls : List String} (hne : ls ≠ []) (h : ∀ l ∈ ls, OneLine l) :
    ("\n".intercalate ls).toList.splitOn '\n' = ls.map String.toList := by
  have hend : "\n".toList = ['\n'] := rfl
  rw [String.toList_intercalate, hend]
  refine List.splitOn_intercalate '\n' ?_ ?_
  · exact List.forall_mem_map.mpr h
  · rw [ne_eq, List.map_eq_nil_iff]
    exact hne

end Chip8.Text
