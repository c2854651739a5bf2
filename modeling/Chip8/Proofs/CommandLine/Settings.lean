import Chip8.CommandLine.Settings
import Chip8.Proofs.CommandLine.Reading
import Chip8.Proofs.Program.Source
import Chip8.Proofs.Text.Decimal

/-!
# What the options ask for

However a command line is written, the keys that it holds down are keys of the keypad
(`Settings.keys_lt`). And one that gives a program, a number of cycles, keys, a seed and `--trace`
in full asks for just that (`Settings.ofArguments_full`), if its numbers are not too long to be
read.
-/

set_option autoImplicit false

namespace Chip8

open Text

/-! ## Keys -/

namespace Keypad

/-- The name of a key is read as it stands. -/
theorem layout_normalized : ∀ k ∈ layout,
    normalized [k.1] = [k.1] ∧ find? [k.1] = some k.2 ∧ k.1 ≠ ',' := by decide +kernel

theorem layout_lt : ∀ k ∈ layout, k.2 < keyCount := by decide

theorem find?_lt {name : List Char} {pin : Nat} (h : find? name = some pin) : pin < keyCount := by
  unfold find? at h
  split at h
  · obtain ⟨k, hk, rfl⟩ := Option.map_eq_some_iff.mp h
    exact layout_lt k (List.mem_of_find?_eq_some hk)
  · cases h

theorem ofParts_lt (parts : List (List Char)) : ∀ {pins : List Nat}, ofParts parts = .ok pins →
    ∀ pin ∈ pins, pin < keyCount := by
  induction parts with
  | nil =>
    rintro pins ⟨⟩
    exact List.forall_mem_nil _
  | cons part rest ih =>
    intro pins h
    rw [ofParts] at h
    split at h
    · exact ih h
    · split at h
      · rename_i pin hpin
        cases hrest : ofParts rest with
        | error name =>
          rw [hrest] at h
          cases h
        | ok more =>
          rw [hrest] at h
          cases h
          exact List.forall_mem_cons.mpr ⟨find?_lt hpin, ih hrest⟩
      · cases h

theorem ofText_lt {cs : List Char} {pins : List Nat} (h : ofText cs = .ok pins) :
    ∀ pin ∈ pins, pin < keyCount := ofParts_lt _ h

/-- A part that names a key. -/
theorem ofParts_cons {k : Char × Nat} (hk : k ∈ layout) (rest : List (List Char)) :
    ofParts ([k.1] :: rest) = (ofParts rest).map (k.2 :: ·) := by
  obtain ⟨hname, hfind, -⟩ := layout_normalized k hk
  rw [ofParts, hname, if_neg (List.cons_ne_nil _ _), hfind]

/-- The names of keys with commas between them are read as these keys. -/
theorem ofText_joined : ∀ {ks : List (Char × Nat)}, (∀ k ∈ ks, k ∈ layout) →
    ofText ([','].intercalate (ks.map fun k => [k.1])) = .ok (ks.map (·.2))
  | [], _ => rfl
  | [k], h => by
    have hk := h k (List.mem_singleton_self k)
    have hsplit : splitAt ',' [k.1] = [[k.1]] := by
      rw [splitAt, if_neg (layout_normalized k hk).2.2]
      rfl
    rw [List.map_singleton, List.intercalate_singleton, ofText, hsplit, ofParts_cons hk]
    rfl
  | k :: k' :: ks, h => by
    obtain ⟨hk, hks⟩ := List.forall_mem_cons.mp h
    have hsplit (rest : List Char) : splitAt ',' ([k.1] ++ [','] ++ rest) =
        [k.1] :: splitAt ',' rest := by
      rw [List.append_assoc, List.singleton_append, splitAt, if_neg (layout_normalized k hk).2.2,
        List.singleton_append, splitAt, if_pos rfl]
    have hrest : ofParts (splitAt ',' ([','].intercalate ([k'.1] :: ks.map fun k => [k.1]))) =
        .ok ((k' :: ks).map (·.2)) := ofText_joined hks
    rw [List.map_cons, List.map_cons, List.intercalate_cons_cons, ofText, hsplit, ofParts_cons hk,
      hrest]
    rfl

end Keypad

namespace CommandLine

/-! ## Settings -/

theorem optionSpecs_plain : Plain optionSpecs where
  dashes := by decide
  names := by decide

variable {unseeded : Random.Source} {s : Settings} {args : List Argument}

theorem takeValue_keys_lt {v : ValueOption} {text : Option Argument} {s' : Settings}
    (hs : ∀ pin ∈ s.keys, pin < keyCount) (h : s.takeValue v text = .ok s') :
    ∀ pin ∈ s'.keys, pin < keyCount := by
  cases text with
  | none =>
    cases v with
    | keys =>
      cases h
      exact List.forall_mem_nil _
    | rom | inline | cycles | seed | onInvalid =>
      cases h
      exact hs
  | some text =>
    cases v with
    | rom | inline =>
      cases h
      exact hs
    | keys =>
      rw [Settings.takeValue] at h
      cases hkeys : Keypad.ofText text with
      | error name =>
        rw [keysValue, hkeys] at h
        cases h
      | ok pins =>
        rw [keysValue, hkeys] at h
        cases h
        exact Keypad.ofText_lt hkeys
    | cycles | seed =>
      rw [Settings.takeValue] at h
      cases hvalue : integerValue text with
      | error problem =>
        rw [hvalue] at h
        cases h
      | ok n =>
        rw [hvalue] at h
        cases h
        exact hs
    | onInvalid =>
      rw [Settings.takeValue] at h
      cases hvalue : policyValue text with
      | error problem =>
        rw [hvalue] at h
        cases h
      | ok policy =>
        rw [hvalue] at h
        cases h
        exact hs

theorem ofArguments_eq_ok_iff : Settings.ofArguments args unseeded = .ok s ↔
    Settings.ofOptions args unseeded = .ok s ∧ (s.rom ≠ [] ∨ s.inlineText ≠ []) := by
  rw [Settings.ofArguments]
  cases Settings.ofOptions args unseeded with
  | error r => exact ⟨by rintro ⟨⟩, by rintro ⟨⟨⟩, -⟩⟩
  | ok s' =>
    have hnone : (s'.rom.isEmpty && s'.inlineText.isEmpty) = true ↔
        ¬ (s'.rom ≠ [] ∨ s'.inlineText ≠ []) := by
      simp
    dsimp only
    by_cases hgiven : s'.rom ≠ [] ∨ s'.inlineText ≠ []
    · rw [if_neg fun h => hnone.mp h hgiven]
      refine ⟨by rintro ⟨⟩; exact ⟨rfl, hgiven⟩, ?_⟩
      rintro ⟨⟨⟩, -⟩
      rfl
    · rw [if_pos (hnone.mpr hgiven)]
      refine ⟨by rintro ⟨⟩, ?_⟩
      rintro ⟨⟨⟩, h⟩
      exact absurd h hgiven

/-- **Only keys that there are are held down**, however they are asked for. -/
theorem Settings.keys_lt (h : Settings.ofOptions args unseeded = .ok s) :
    ∀ pin ∈ s.keys, pin < keyCount := by
  have hpreserves : Uptake.Preserves (σ := Settings) ⟨Settings.takeFlag, Settings.takeValue⟩
      (fun s => ∀ pin ∈ s.keys, pin < keyCount) := by
    refine ⟨?_, takeValue_keys_lt⟩
    intro s f s' hs htake
    cases f with
    | help => cases htake
    | trace | quiet | debug =>
      cases htake
      exact hs
  exact read_preserves hpreserves (List.forall_mem_nil _) h

/-! ## A command line in full -/

/-- A program, a number of cycles, keys and a seed, each with its option in full, and `--trace`. -/
def fullArguments (program keys : List Char) (cycles seed : Int) : List Argument := [
  "--inline".toList ++ '=' :: program,
  "--cycles".toList ++ '=' :: (toString cycles).toList,
  "--keys".toList ++ '=' :: keys,
  "--seed".toList ++ '=' :: (toString seed).toList,
  "--trace".toList]

/-- An option is given its value as it stands, unless this is two dashes. -/
theorem Uptake.takeUse_of_ok {φ ν σ : Type} {take : Uptake φ ν σ} {s s' : σ} {v : ν}
    {names : List String} {name : List Char} {text : Argument} (htext : text ≠ ['-', '-'])
    (h : take.value s v (some text) = .ok s') :
    take.takeUse s ⟨⟨.value v, names⟩, name, some text⟩ = .ok s' := by
  have hnamed : take.valueNamed s v names text = .ok s' := by
    rw [Uptake.valueNamed, valueOf, if_neg htext, h]
    rfl
  exact hnamed

/-- What is wrong with a value is reported under the names of the option. -/
theorem Uptake.takeUse_of_error {φ ν σ : Type} {take : Uptake φ ν σ} {s : σ} {v : ν}
    {names : List String} {name : List Char} {text : Argument} {problem : OptionProblem}
    (htext : text ≠ ['-', '-']) (h : take.value s v (some text) = .error problem) :
    take.takeUse s ⟨⟨.value v, names⟩, name, some text⟩ = .error (.misused names problem) := by
  have hnamed : take.valueNamed s v names text = .error (.misused names problem) := by
    rw [Uptake.valueNamed, valueOf, if_neg htext, h]
    rfl
  exact hnamed

theorem Settings.takeValue_inline (s : Settings) (text : Argument) :
    s.takeValue .inline (some text) = .ok { s with inlineText := text } := rfl

theorem Settings.takeValue_cycles (s : Settings) {text : Argument} {n : Int}
    (h : Numeral.decimal? text = some n) :
    s.takeValue .cycles (some text) = .ok { s with cycles := some n } := by
  rw [Settings.takeValue, integerValue, h]
  rfl

theorem Settings.takeValue_seed (s : Settings) {text : Argument} {n : Int}
    (h : Numeral.decimal? text = some n) :
    s.takeValue .seed (some text) = .ok { s with random := some (.ofSeed n) } := by
  rw [Settings.takeValue, integerValue, h]
  rfl

theorem Settings.takeValue_keys (s : Settings) {text : Argument} {pins : List Nat}
    (h : Keypad.ofText text = .ok pins) :
    s.takeValue .keys (some text) = .ok { s with keys := pins } := by
  rw [Settings.takeValue, keysValue, h]
  rfl

/-- An integer is never written as two dashes. -/
theorem toString_ne_dashes (n : Int) : (toString n).toList ≠ ['-', '-'] := by
  obtain ⟨sign, s, hsign, -, htext⟩ := Numeral.toString_eq_sign_append n
  obtain ⟨ds, hds, -⟩ := Numeral.digits_toDigits n.natAbs
  intro heq
  rw [htext] at heq
  cases hsign with
  | none =>
    rw [List.nil_append] at heq
    exact hds.not_sign.2 (by rw [heq]; rfl)
  | plus => cases heq
  | minus =>
    rw [List.singleton_append, List.cons_eq_cons] at heq
    exact hds.not_sign.2 (by rw [heq.2]; rfl)

/-- The options of such a command line. -/
def fullUses (program keys : List Char) (cycles seed : Int) : List (OptionUse Flag ValueOption) := [
  ⟨⟨.value .inline, ["--inline", "-i"]⟩, "--inline".toList, some program⟩,
  ⟨⟨.value .cycles, ["--cycles", "-c"]⟩, "--cycles".toList, some (toString cycles).toList⟩,
  ⟨⟨.value .keys, ["--keys", "-k"]⟩, "--keys".toList, some keys⟩,
  ⟨⟨.value .seed, ["--seed"]⟩, "--seed".toList, some (toString seed).toList⟩,
  ⟨⟨.flag .trace, ["--trace", "-t"]⟩, "--trace".toList, none⟩]

theorem forall₂_full (program keys : List Char) (cycles seed : Int) :
    List.Forall₂ (Full optionSpecs) (fullArguments program keys cycles seed)
      (fullUses program keys cycles seed) := by
  refine .cons (.value rfl ?_ (by decide) _) <| .cons (.value rfl ?_ (by decide) _) <|
    .cons (.value rfl ?_ (by decide) _) <| .cons (.value rfl ?_ (by decide) _) <|
      .cons (.flag rfl ?_) .nil
  all_goals rfl

/-- Names of keys, joined by commas, are never two dashes. -/
theorem Keypad.joined_ne_dashes {ks : List (Char × Nat)} (hks : ∀ k ∈ ks, k ∈ Keypad.layout) :
    [','].intercalate (ks.map fun k => [k.1]) ≠ ['-', '-'] := by
  intro heq
  have hread := Keypad.ofText_joined hks
  have hnone : (Keypad.ofText ['-', '-']).toOption = none := by decide +kernel
  rw [← heq, hread] at hnone
  cases hnone

section

variable {program : List Char} {ks : List (Char × Nat)} {cycles seed : Int}

/-- The options before the seed. -/
theorem read_full_to_seed (hdashes : program ≠ ['-', '-']) (hks : ∀ k ∈ ks, k ∈ Keypad.layout)
    (hcycles : cycles.natAbs < 10 ^ Numeral.maxDecimalDigits) (start : Settings) :
    read optionSpecs ⟨Settings.takeFlag, Settings.takeValue⟩ start
      (fullArguments program ([','].intercalate (ks.map fun k => [k.1])) cycles seed) =
    List.foldlM (Uptake.takeUse ⟨Settings.takeFlag, Settings.takeValue⟩)
      { start with inlineText := program, cycles := some cycles, keys := ks.map (·.2) } [
        ⟨⟨.value .seed, ["--seed"]⟩, "--seed".toList, some (toString seed).toList⟩,
        ⟨⟨.flag .trace, ["--trace", "-t"]⟩, "--trace".toList, none⟩] := by
  have hread := Numeral.decimal?_toString cycles
  rw [if_pos hcycles] at hread
  rw [read_full optionSpecs_plain (forall₂_full program _ cycles seed), fullUses,
    foldlM_cons_of_ok (Uptake.takeUse_of_ok hdashes (Settings.takeValue_inline _ program)),
    foldlM_cons_of_ok (Uptake.takeUse_of_ok (toString_ne_dashes cycles)
      (Settings.takeValue_cycles _ hread)),
    foldlM_cons_of_ok (Uptake.takeUse_of_ok (Keypad.joined_ne_dashes hks)
      (Settings.takeValue_keys _ (Keypad.ofText_joined hks)))]

/-- What is asked for in full is asked for. -/
theorem Settings.ofArguments_full (hprogram : program ≠ []) (hdashes : program ≠ ['-', '-'])
    (hks : ∀ k ∈ ks, k ∈ Keypad.layout)
    (hcycles : cycles.natAbs < 10 ^ Numeral.maxDecimalDigits)
    (hseed : seed.natAbs < 10 ^ Numeral.maxDecimalDigits) :
    Settings.ofArguments (fullArguments program ([','].intercalate (ks.map fun k => [k.1])) cycles
      seed) unseeded =
      .ok {
        inlineText := program
        cycles := some cycles
        keys := ks.map (·.2)
        random := some (.ofSeed seed)
        trace := true } := by
  have hread := Numeral.decimal?_toString seed
  rw [if_pos hseed] at hread
  refine ofArguments_eq_ok_iff.mpr ⟨?_, Or.inr hprogram⟩
  rw [Settings.ofOptions, read_full_to_seed hdashes hks hcycles,
    foldlM_cons_of_ok (Uptake.takeUse_of_ok (toString_ne_dashes seed)
      (Settings.takeValue_seed _ hread))]
  rfl

/-- A seed with too many digits is refused. -/
theorem Settings.ofArguments_long_seed (hdashes : program ≠ ['-', '-'])
    (hks : ∀ k ∈ ks, k ∈ Keypad.layout)
    (hcycles : cycles.natAbs < 10 ^ Numeral.maxDecimalDigits)
    (hseed : ¬ seed.natAbs < 10 ^ Numeral.maxDecimalDigits) :
    Settings.ofArguments (fullArguments program ([','].intercalate (ks.map fun k => [k.1])) cycles
      seed) unseeded =
      .error (.arguments (.misused ["--seed"] (.invalidInteger (toString seed).toList))) := by
  have hread := Numeral.decimal?_toString seed
  rw [if_neg hseed] at hread
  have hvalue (s : Settings) : s.takeValue .seed (some (toString seed).toList) =
      .error (.invalidInteger (toString seed).toList) := by
    rw [Settings.takeValue, integerValue, hread]
    rfl
  rw [Settings.ofArguments, Settings.ofOptions, read_full_to_seed hdashes hks hcycles,
    List.foldlM_cons,
    Uptake.takeUse_of_error (toString_ne_dashes seed) (hvalue _)]
  rfl

end

end CommandLine

end Chip8
