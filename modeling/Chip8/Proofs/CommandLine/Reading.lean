import Mathlib.Data.List.Basic
import Chip8.CommandLine.Grammar

/-!
# How command lines are read

Two facts about the grammar, for any set of options.

> **What holds at the start and survives every option holds at the end** (`read_preserves`),

however the options were written, cut short or put together. And a command line on which every
option has its long name, and its value joined to it, is read one argument after the other
(`read_full`), so that such a command line can be followed by what each option does.
-/

set_option autoImplicit false

namespace Chip8.CommandLine

variable {φ ν σ : Type} {specs : List (OptionSpec φ ν)} {take : Uptake φ ν σ}

/-! ## Invariants -/

theorem bind_eq_ok {ε α β : Type} {x : Except ε α} {f : α → Except ε β} {b : β} :
    (x >>= f) = .ok b ↔ ∃ a, x = .ok a ∧ f a = .ok b := by
  cases x with
  | error e => exact ⟨by rintro ⟨⟩, by rintro ⟨a, ⟨⟩, -⟩⟩
  | ok a => exact ⟨fun h => ⟨a, rfl, h⟩, by rintro ⟨a, ⟨⟩, h⟩; exact h⟩

theorem foldlM_cons_of_ok {ε α : Type} {f : σ → α → Except ε σ} {s s' : σ} {x : α}
    (h : f s x = .ok s') (xs : List α) : (x :: xs).foldlM f s = xs.foldlM f s' := by
  rw [List.foldlM_cons, h]
  rfl

theorem foldlM_preserves {α : Type} {P : σ → Prop} {f : σ → α → Except Refusal σ}
    (hf : ∀ {s x s'}, P s → f s x = .ok s' → P s') (xs : List α) : ∀ {s s' : σ}, P s →
    xs.foldlM f s = .ok s' → P s' := by
  induction xs with
  | nil =>
    rintro s _ hs ⟨⟩
    exact hs
  | cons x xs ih =>
    intro s s' hs h
    rw [List.foldlM_cons] at h
    obtain ⟨s₁, h₁, h⟩ := bind_eq_ok.mp h
    exact ih (hf hs h₁) h

/-- What no option can break. -/
structure Uptake.Preserves (take : Uptake φ ν σ) (P : σ → Prop) : Prop where
  flag : ∀ {s f s'}, P s → take.flag s f = .ok s' → P s'
  value : ∀ {s v text s'}, P s → take.value s v text = .ok s' → P s'

variable {P : σ → Prop}

theorem Uptake.Preserves.valueNamed (h : take.Preserves P) {s s' : σ} {v : ν}
    {names : List String} {text : Argument} (hs : P s)
    (htake : take.valueNamed s v names text = .ok s') : P s' := by
  rw [Uptake.valueNamed] at htake
  cases hvalue : take.value s v (valueOf text) with
  | error e =>
    rw [hvalue] at htake
    cases htake
  | ok s₁ =>
    rw [hvalue] at htake
    cases htake
    exact h.value hs hvalue

theorem takeAll_preserves (h : take.Preserves P) : ∀ (sorted : List (Sorted φ ν)) {s s' : σ}
    {extra : List Argument}, P s → takeAll specs take s sorted = .ok (s', extra) → P s'
  | [], _, _, _, hs, htake => by
    rw [takeAll] at htake
    cases htake
    exact hs
  | .plain text :: rest, _, _, _, hs, htake
  | .dashes :: rest, _, _, _, hs, htake
  | .unknown text :: rest, _, _, _, hs, htake => by
    rw [takeAll] at htake
    obtain ⟨⟨s₁, extra⟩, hrest, heq⟩ := bind_eq_ok.mp htake
    cases heq
    exact takeAll_preserves h rest hs hrest
  | .option use :: rest, _, _, _, hs, htake => by
    rw [takeAll] at htake
    obtain ⟨⟨flags, ending⟩, -, htake⟩ := bind_eq_ok.mp htake
    cases ending with
    | done =>
      obtain ⟨s₁, hflags, hrest⟩ := bind_eq_ok.mp htake
      exact takeAll_preserves h rest (foldlM_preserves h.flag flags hs hflags) hrest
    | value v names text =>
      obtain ⟨s₁, hflags, htake⟩ := bind_eq_ok.mp htake
      obtain ⟨s₂, hvalue, hrest⟩ := bind_eq_ok.mp htake
      have hs₁ := foldlM_preserves h.flag flags hs hflags
      exact takeAll_preserves h rest (h.valueNamed hs₁ hvalue) hrest
    | wants v names =>
      cases rest with
      | nil => cases htake
      | cons next rest =>
        cases next with
        | dashes | option | unknown => cases htake
        | plain text =>
          obtain ⟨s₁, hflags, htake⟩ := bind_eq_ok.mp htake
          obtain ⟨s₂, hvalue, hrest⟩ := bind_eq_ok.mp htake
          have hs₁ := foldlM_preserves h.flag flags hs hflags
          exact takeAll_preserves h rest (h.valueNamed hs₁ hvalue) hrest

/-- **What holds at the start and survives every option holds at the end.** -/
theorem read_preserves (h : take.Preserves P) {start s : σ} {args : List Argument} (hs : P start)
    (hread : read specs take start args = .ok s) : P s := by
  rw [read] at hread
  obtain ⟨sorted, -, hread⟩ := bind_eq_ok.mp hread
  obtain ⟨⟨s₁, extra⟩, htake, hread⟩ := bind_eq_ok.mp hread
  have hs₁ := takeAll_preserves h sorted hs htake
  dsimp only at hread
  split at hread
  · cases hread
    exact hs₁
  · cases hread

/-! ## Options with their full names -/

theorem splitMarked_append {name : List Char} (hname : '=' ∉ name) (value : List Char) :
    splitMarked (name ++ '=' :: value) = (name, some value) := by
  induction name with
  | nil => rfl
  | cons c name ih =>
    obtain ⟨hc, hname⟩ := not_or.mp (List.mem_cons.not.mp hname)
    rw [List.cons_append, splitMarked, if_neg (Ne.symm hc), ih hname]

/-- An option as it stands in a command line: under its full name, and with its value if it takes
one. -/
inductive Full (specs : List (OptionSpec φ ν)) : Argument → OptionUse φ ν → Prop
  | flag {f : φ} {names : List String} {name : List Char} (hdash : name.head? = some '-')
      (hfind : findName? specs name = some ⟨.flag f, names⟩) :
      Full specs name ⟨⟨.flag f, names⟩, name, none⟩
  | value {v : ν} {names : List String} {name : List Char} (hdash : name.head? = some '-')
      (hfind : findName? specs name = some ⟨.value v, names⟩) (hmark : '=' ∉ name)
      (text : List Char) :
      Full specs (name ++ '=' :: text) ⟨⟨.value v, names⟩, name, some text⟩

/-- No option is called by the two dashes, and none has the sign in its name that joins values. -/
structure Plain (specs : List (OptionSpec φ ν)) : Prop where
  dashes : findName? specs ['-', '-'] = none
  names : ∀ s ∈ specs, ∀ n ∈ s.names, '=' ∉ n.toList

variable {arg : Argument} {use : OptionUse φ ν}

theorem findName?_of_marked (hspecs : Plain specs) (harg : '=' ∈ arg) :
    findName? specs arg = none := by
  refine List.find?_eq_none.mpr fun s hs => ?_
  intro hany
  obtain ⟨n, hn, heq⟩ := List.any_eq_true.mp hany
  rw [← beq_iff_eq.mp heq] at harg
  exact hspecs.names s hs n hn harg

theorem Full.sortOne_eq (hspecs : Plain specs) (h : Full specs arg use) :
    sortOne specs arg = .ok (.option use) := by
  cases h with
  | flag hdash hfind =>
    rw [sortOne, if_neg (not_not.mpr hdash), hfind]
  | @value v names name hdash hfind hmark text =>
    have hhead : (name ++ '=' :: text).head? = some '-' := by
      rw [List.head?_append, hdash]
      rfl
    have hmem : '=' ∈ name ++ '=' :: text := by simp
    have hne : name ++ '=' :: text ≠ ['-'] := by
      intro heq
      rw [heq] at hmem
      exact absurd hmem (by decide)
    rw [sortOne, if_neg (not_not.mpr hhead), findName?_of_marked hspecs hmem]
    dsimp only
    rw [if_neg hne, splitMarked_append hmark]
    dsimp only
    rw [hfind]

theorem Full.ne_dashes (hspecs : Plain specs) (h : Full specs arg use) : arg ≠ ['-', '-'] := by
  rintro rfl
  generalize harg : (['-', '-'] : Argument) = arg at h
  cases h with
  | flag _ hfind =>
    rw [← harg, hspecs.dashes] at hfind
    cases hfind
  | @value _ _ name _ _ _ text =>
    have hmem : '=' ∈ name ++ '=' :: text := by simp
    rw [← harg] at hmem
    exact absurd hmem (by decide)

variable {args : List Argument} {uses : List (OptionUse φ ν)}

theorem sortAll_full (hspecs : Plain specs) (h : List.Forall₂ (Full specs) args uses) :
    sortAll specs args = .ok (uses.map .option) := by
  induction h with
  | nil => rfl
  | cons hfirst _ ih =>
    rw [sortAll, if_neg (hfirst.ne_dashes hspecs), hfirst.sortOne_eq hspecs, ih]
    rfl

/-- What an option under its full name does. -/
def Uptake.takeUse (take : Uptake φ ν σ) (s : σ) (use : OptionUse φ ν) : Except Refusal σ :=
  match use.spec.role, use.joined with
  | .flag f, _ => take.flag s f
  | .value v, some text => take.valueNamed s v use.spec.names text
  | .value _, none => .error (.misused use.spec.names .expectedValue)

theorem takeAll_full (h : List.Forall₂ (Full specs) args uses) : ∀ s : σ,
    takeAll specs take s (uses.map .option) = (uses.foldlM take.takeUse s).map (·, []) := by
  induction h with
  | nil =>
    intro s
    rw [List.map_nil, takeAll]
    rfl
  | @cons arg _ _ _ hfirst _ ih =>
    intro s
    rw [List.map_cons, takeAll, List.foldlM_cons]
    cases hfirst with
    | @flag f names =>
      have hunfold : unfoldUse specs ⟨⟨.flag f, names⟩, arg, none⟩ = .ok ([f], .done) := by
        simp [unfoldUse, unfoldShort]
      have huse : take.takeUse s ⟨⟨.flag f, names⟩, arg, none⟩ = take.flag s f := rfl
      rw [hunfold, huse]
      cases hflag : take.flag s f with
      | error e => simp [bind, Except.bind, Except.map, hflag]
      | ok s₁ => simpa [bind, Except.bind, hflag, pure, Except.pure] using ih s₁
    | @value v names name _ _ _ text =>
      have hunfold : unfoldUse specs ⟨⟨.value v, names⟩, name, some text⟩ =
          .ok ([], .value v names text) := by
        simp [unfoldUse]
      have huse : take.takeUse s ⟨⟨.value v, names⟩, name, some text⟩ =
          take.valueNamed s v names text := rfl
      rw [hunfold, huse]
      cases hvalue : take.valueNamed s v names text with
      | error e => simp [bind, Except.bind, Except.map, hvalue, pure, Except.pure]
      | ok s₁ => simpa [bind, Except.bind, hvalue, pure, Except.pure] using ih s₁

/-- **Options with their full names are taken one after the other.** -/
theorem read_full (hspecs : Plain specs) (h : List.Forall₂ (Full specs) args uses) (start : σ) :
    read specs take start args = uses.foldlM take.takeUse start := by
  have hsorted : read specs take start args =
      (takeAll specs take start (uses.map .option) >>= fun left =>
        if left.2.isEmpty then return left.1 else throw (.unrecognized left.2)) := by
    rw [read, sortAll_full hspecs h]
    rfl
  rw [hsorted, takeAll_full h]
  cases uses.foldlM take.takeUse start with
  | error e => rfl
  | ok s => rfl

end Chip8.CommandLine
