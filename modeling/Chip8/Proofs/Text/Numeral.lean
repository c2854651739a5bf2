import Mathlib.Data.Nat.Digits.Defs
import Chip8.Text.Numeral
import Chip8.Proofs.Text.Fields

/-!
# How integers are written

The grammar of numerals as one would write it down, with no word on how they are read: which
characters are digits and what they are worth (`IsDigit`), where underscores may stand (`Digits`),
and what may come before the digits (`Sign`, `Mark`). Then

> **a text is read as an integer if and only if it is a numeral for it**
> (`hex?_eq_some_iff`),

with blanks around the numeral passed over. The reader replaces the digits of all scripts by those
of ASCII before it looks at anything else. That this loses nothing is the one idea here: the signs,
the mark and the underscore are no digits of any script, so they are found where they were written.
-/

set_option autoImplicit false

namespace Chip8.Text.Numeral

/-! ## Digits -/

/-- The character stands for a digit: a decimal digit of any script, or a letter in either case. -/
inductive IsDigit : Char → Nat → Prop
  | decimal {c : Char} {d : Nat} (h : digitValue? c = some d) : IsDigit c d
  | upper {d : Nat} (hlow : 10 ≤ d) (hhigh : d < 36) : IsDigit (Char.ofNat (55 + d)) d
  | lower {d : Nat} (hlow : 10 ≤ d) (hhigh : d < 36) : IsDigit (Char.ofNat (87 + d)) d

/-- Digits below a base, each of which may have an underscore before it. -/
inductive MoreDigits (base : Nat) : List Char → List Nat → Prop
  | nil : MoreDigits base [] []
  | digit {c : Char} {d : Nat} {cs : List Char} {ds : List Nat} (h : IsDigit c d) (hd : d < base)
      (hrest : MoreDigits base cs ds) : MoreDigits base (c :: cs) (d :: ds)
  | gap {c : Char} {d : Nat} {cs : List Char} {ds : List Nat} (h : IsDigit c d) (hd : d < base)
      (hrest : MoreDigits base cs ds) : MoreDigits base ('_' :: c :: cs) (d :: ds)

/-- One or more digits below a base, with at most one underscore between two of them. -/
inductive Digits (base : Nat) : List Char → List Nat → Prop
  | mk {c : Char} {d : Nat} {cs : List Char} {ds : List Nat} (h : IsDigit c d) (hd : d < base)
      (hrest : MoreDigits base cs ds) : Digits base (c :: cs) (d :: ds)

theorem ofDigits_eq (base : Nat) (ds : List Nat) :
    ofDigits base ds = Nat.ofDigits base ds.reverse := by
  rw [Nat.ofDigits_eq_foldr, List.foldr_reverse, ofDigits]
  congr
  funext n d
  rw [Nat.cast_id]
  ring

/-! ## Digits of ASCII in place of others -/

theorem exists_zero_of_digitValue? {c : Char} {d : Nat} (h : digitValue? c = some d) :
    ∃ z ∈ digitZeros, d < 10 ∧ c = Char.ofNat (z + d) := by
  obtain ⟨z, hz, rfl⟩ := Option.map_eq_some_iff.mp h
  have hrange := List.find?_some hz
  simp only [Bool.and_eq_true, decide_eq_true_eq] at hrange
  refine ⟨z, List.mem_of_find?_eq_some hz, by omega, ?_⟩
  rw [Nat.add_sub_cancel' hrange.1, Char.ofNat_toNat]

theorem digitValue_ascii : ∀ d < 10, digitValue (Char.ofNat (48 + d)) = d := by decide

theorem digitValue?_ascii : ∀ d < 10, digitValue? (Char.ofNat (48 + d)) = some d := by decide

theorem digitValue_upper : ∀ d < 36, 10 ≤ d → digitValue (Char.ofNat (55 + d)) = d := by decide

theorem digitValue_lower : ∀ d < 36, 10 ≤ d → digitValue (Char.ofNat (87 + d)) = d := by decide

/-- No letter of ASCII is a decimal digit. -/
theorem digitValue?_letter : ∀ d < 36, 10 ≤ d →
    digitValue? (Char.ofNat (55 + d)) = none ∧ digitValue? (Char.ofNat (87 + d)) = none := by
  decide +kernel

theorem plainDigit_of_some {c : Char} {d : Nat} (h : digitValue? c = some d) :
    plainDigit c = Char.ofNat (48 + d) := by
  rw [plainDigit, h]

theorem plainDigit_of_none {c : Char} (h : digitValue? c = none) : plainDigit c = c := by
  rw [plainDigit, h]

/-- A character that is no decimal digit is found only where it was written. -/
theorem plainDigit_eq_iff {c s : Char} (hs : digitValue? s = none) : plainDigit c = s ↔ c = s := by
  cases hc : digitValue? c with
  | none => rw [plainDigit_of_none hc]
  | some d =>
    obtain ⟨_, _, hd, -⟩ := exists_zero_of_digitValue? hc
    rw [plainDigit_of_some hc]
    constructor
    · rintro rfl
      rw [digitValue?_ascii d hd] at hs
      cases hs
    · rintro rfl
      rw [hc] at hs
      cases hs

theorem plainDigit_eq_zero_iff {c : Char} : plainDigit c = '0' ↔ digitValue? c = some 0 := by
  constructor
  · intro h
    cases hc : digitValue? c with
    | none =>
      rw [plainDigit_of_none hc] at h
      rw [h] at hc
      exact absurd hc (by decide)
    | some d =>
      obtain ⟨_, _, hd, -⟩ := exists_zero_of_digitValue? hc
      rw [plainDigit_of_some hc] at h
      rw [← digitValue?_ascii d hd, h]
      decide
  · intro h
    rw [plainDigit_of_some h]

/-- What a character is worth among the digits is found behind its replacement. -/
theorem digitValue_plainDigit {c : Char} {d : Nat} (hd : d < 36) :
    digitValue (plainDigit c) = d ↔ IsDigit c d := by
  cases hc : digitValue? c with
  | some e =>
    obtain ⟨_, _, he, -⟩ := exists_zero_of_digitValue? hc
    rw [plainDigit_of_some hc, digitValue_ascii e he]
    constructor
    · rintro rfl
      exact .decimal hc
    · intro h
      cases h with
      | decimal h => exact Option.some.inj (hc.symm.trans h)
      | upper hlow hhigh =>
        rw [(digitValue?_letter d hhigh hlow).1] at hc
        cases hc
      | lower hlow hhigh =>
        rw [(digitValue?_letter d hhigh hlow).2] at hc
        cases hc
  | none =>
    rw [plainDigit_of_none hc]
    constructor
    · intro h
      unfold digitValue at h
      simp only [Bool.and_eq_true, decide_eq_true_eq] at h
      split at h
      · rename_i hrange
        -- a digit of ASCII is a decimal digit
        have hsome := digitValue?_ascii (c.toNat - 48) (by omega)
        rw [Nat.add_sub_cancel' hrange.1, Char.ofNat_toNat, hc] at hsome
        cases hsome
      · split at h
        · rename_i hrange
          have hupper : c = Char.ofNat (55 + d) := by
            rw [← h, show 55 + (c.toNat - 55) = c.toNat by omega, Char.ofNat_toNat]
          rw [hupper]
          exact .upper (by omega) hd
        · split at h
          · rename_i hrange
            have hlower : c = Char.ofNat (87 + d) := by
              rw [← h, show 87 + (c.toNat - 87) = c.toNat by omega, Char.ofNat_toNat]
            rw [hlower]
            exact .lower (by omega) hd
          · omega
    · intro h
      cases h with
      | decimal h =>
        rw [hc] at h
        cases h
      | upper hlow hhigh => exact digitValue_upper d hhigh hlow
      | lower hlow hhigh => exact digitValue_lower d hhigh hlow

/-! ## Reading digits -/

variable {base : Nat}

/-- A character that is worth nothing in the base is none of its digits. -/
theorem IsDigit.ne (hbase : base ≤ 36) {c s : Char} {d : Nat} (h : IsDigit c d) (hd : d < base)
    (hs : base ≤ digitValue s) (hnone : digitValue? s = none) : c ≠ s := by
  rintro rfl
  have hvalue := (digitValue_plainDigit (by omega)).mpr h
  rw [plainDigit_of_none hnone] at hvalue
  omega

theorem underscore_worth_nothing : digitValue '_' = 36 ∧ digitValue? '_' = none := by decide

theorem moreDigits_cons {c : Char} (hc : c ≠ '_') (rest : List Char) :
    moreDigits base (c :: rest) =
      if digitValue c < base then (moreDigits base rest).map (digitValue c :: ·) else none := by
  rw [moreDigits.eq_def]
  split
  · contradiction
  · rename_i heq
    exact absurd (List.cons_eq_cons.mp heq).1 hc
  · rename_i heq
    obtain ⟨rfl, rfl⟩ := List.cons_eq_cons.mp heq
    rfl

/-- A digit in front of what is read as digits. -/
theorem digit_cons_eq_some_iff (hbase : base ≤ 36) {c : Char} {rest : Option (List Nat)}
    {ds : List Nat} :
    (if digitValue (plainDigit c) < base then rest.map (digitValue (plainDigit c) :: ·)
      else none) = some ds ↔
    ∃ d ds', ds = d :: ds' ∧ IsDigit c d ∧ d < base ∧ rest = some ds' := by
  constructor
  · intro h
    split at h
    · rename_i hd
      obtain ⟨ds', hrest, rfl⟩ := Option.map_eq_some_iff.mp h
      exact ⟨_, ds', rfl, (digitValue_plainDigit (by omega)).mp rfl, hd, hrest⟩
    · cases h
  · rintro ⟨d, ds', rfl, hc, hd, rfl⟩
    rw [(digitValue_plainDigit (by omega)).mpr hc, if_pos hd, Option.map_some]

theorem moreDigits_eq_some_iff (hbase : base ≤ 36) : ∀ {cs : List Char} {ds : List Nat},
    moreDigits base (cs.map plainDigit) = some ds ↔ MoreDigits base cs ds
  | [], ds => by
    constructor
    · rintro ⟨⟩
      exact .nil
    · rintro ⟨⟩
      rfl
  | c :: cs, ds => by
    obtain ⟨hworth, hnone⟩ := underscore_worth_nothing
    by_cases hc : c = '_'
    · subst hc
      rw [List.map_cons, plainDigit_of_none hnone]
      cases cs with
      | nil =>
        have hread : moreDigits base ['_'] = none := by
          rw [moreDigits.eq_def]
          exact if_neg (by omega)
        rw [List.map_nil, hread]
        constructor
        · rintro ⟨⟩
        · intro h
          cases h with
          | digit h hd => exact absurd rfl (h.ne hbase hd (by omega) hnone)
      | cons c cs =>
        rw [List.map_cons, moreDigits, digit_cons_eq_some_iff hbase]
        constructor
        · rintro ⟨d, ds', rfl, hc, hd, hrest⟩
          exact .gap hc hd ((moreDigits_eq_some_iff hbase).mp hrest)
        · intro h
          cases h with
          | digit h hd => exact absurd rfl (h.ne hbase hd (by omega) hnone)
          | gap h hd hrest =>
            exact ⟨_, _, rfl, h, hd, (moreDigits_eq_some_iff hbase).mpr hrest⟩
    · have hplain : plainDigit c ≠ '_' := fun h => hc ((plainDigit_eq_iff hnone).mp h)
      rw [List.map_cons, moreDigits_cons hplain, digit_cons_eq_some_iff hbase]
      constructor
      · rintro ⟨d, ds', rfl, hc, hd, hrest⟩
        exact .digit hc hd ((moreDigits_eq_some_iff hbase).mp hrest)
      · intro h
        cases h with
        | digit h hd hrest => exact ⟨_, _, rfl, h, hd, (moreDigits_eq_some_iff hbase).mpr hrest⟩
        | gap => exact absurd rfl hc

theorem digits_eq_some_iff (hbase : base ≤ 36) {cs : List Char} {ds : List Nat} :
    digits base (cs.map plainDigit) = some ds ↔ Digits base cs ds := by
  cases cs with
  | nil =>
    constructor
    · rintro ⟨⟩
    · rintro ⟨⟩
  | cons c cs =>
    rw [List.map_cons, digits, digit_cons_eq_some_iff hbase]
    constructor
    · rintro ⟨d, ds', rfl, hc, hd, hrest⟩
      exact .mk hc hd ((moreDigits_eq_some_iff hbase).mp hrest)
    · intro h
      cases h with
      | mk h hd hrest => exact ⟨_, _, rfl, h, hd, (moreDigits_eq_some_iff hbase).mpr hrest⟩

/-! ## The mark of base 16, and the sign -/

/-- What may come before the digits in base 16: nothing, or a zero and an `x` in either case, with
an underscore behind them or not. -/
inductive Mark : List Char → Prop
  | none : Mark []
  | bare {z x : Char} (hz : digitValue? z = some 0) (hx : x = 'x' ∨ x = 'X') : Mark [z, x]
  | gap {z x : Char} (hz : digitValue? z = some 0) (hx : x = 'x' ∨ x = 'X') : Mark [z, x, '_']

inductive Sign : List Char → Int → Prop
  | none : Sign [] 1
  | plus : Sign ['+'] 1
  | minus : Sign ['-'] (-1)

/-- A numeral in base 16 for an integer, with nothing around it. -/
inductive Written : List Char → Int → Prop
  | mk {sign mark body : List Char} {s : Int} {ds : List Nat} (hsign : Sign sign s)
      (hmark : Mark mark) (hbody : Digits 16 body ds) :
      Written (sign ++ (mark ++ body)) (s * (Nat.ofDigits 16 ds.reverse : Nat))

theorem markLetter_worth_nothing : ∀ x : Char, x = 'x' ∨ x = 'X' →
    16 ≤ digitValue x ∧ digitValue? x = none := by
  rintro x (rfl | rfl)
  · decide
  · decide

/-- The letter of the mark stays as it is, and is found. -/
theorem plainDigit_markLetter {x : Char} (hx : x = 'x' ∨ x = 'X') :
    plainDigit x = x ∧ (decide (x = 'x') || decide (x = 'X')) = true :=
  ⟨plainDigit_of_none (markLetter_worth_nothing x hx).2, by simpa using hx⟩

theorem unmarked_of_gap {z x : Char} (hz : digitValue? z = some 0) (hx : x = 'x' ∨ x = 'X')
    (body : List Char) :
    unmarked ((z :: x :: '_' :: body).map plainDigit) = body.map plainDigit := by
  obtain ⟨hplain, hletter⟩ := plainDigit_markLetter hx
  obtain ⟨-, hunderscore⟩ := underscore_worth_nothing
  simp only [List.map_cons, plainDigit_eq_zero_iff.mpr hz, hplain,
    plainDigit_of_none hunderscore, unmarked, if_pos hletter]

theorem unmarked_of_bare {z x : Char} (hz : digitValue? z = some 0) (hx : x = 'x' ∨ x = 'X')
    {body : List Char} (hbody : body.head? ≠ some '_') :
    unmarked ((z :: x :: body).map plainDigit) = body.map plainDigit := by
  obtain ⟨hplain, hletter⟩ := plainDigit_markLetter hx
  obtain ⟨-, hunderscore⟩ := underscore_worth_nothing
  have hfirst : ∀ cs, body.map plainDigit = '_' :: cs → False := by
    intro cs h
    cases body with
    | nil => cases h
    | cons c body =>
      obtain ⟨hc, -⟩ := List.cons_eq_cons.mp h
      rw [(plainDigit_eq_iff hunderscore).mp hc] at hbody
      exact hbody rfl
  rw [List.map_cons, List.map_cons, plainDigit_eq_zero_iff.mpr hz, hplain,
    unmarked.eq_2 x _ hfirst, if_pos hletter]

theorem unmarked_of_no_mark {cs : List Char}
    (h : ∀ z x rest, cs = z :: x :: rest → digitValue? z = some 0 → ¬ (x = 'x' ∨ x = 'X')) :
    unmarked (cs.map plainDigit) = cs.map plainDigit := by
  rw [unmarked.eq_def]
  split
  · rename_i x' rest' heq
    obtain ⟨z, cs, rfl, hz, htail⟩ := List.map_eq_cons_iff.mp heq
    obtain ⟨x, rest, rfl, rfl, rfl⟩ := List.map_eq_cons_iff.mp htail
    have hx := h z x rest rfl (plainDigit_eq_zero_iff.mp hz)
    have letter {l : Char} (hl : l = 'x' ∨ l = 'X') : plainDigit x = l ↔ x = l :=
      plainDigit_eq_iff (markLetter_worth_nothing l hl).2
    rw [if_neg (by simpa [letter] using hx), ← heq]
  · rfl

/-- The first of some digits is no underscore. -/
theorem Digits.head {cs : List Char} {ds : List Nat} (h : Digits 16 cs ds) :
    cs.head? ≠ some '_' := by
  obtain ⟨hworth, hnone⟩ := underscore_worth_nothing
  cases h with
  | mk h hd =>
    intro heq
    exact h.ne (by decide) hd (by omega) hnone (Option.some.inj heq)

/-- Behind a digit there is no letter of the mark. -/
theorem Digits.second {z x : Char} {rest : List Char} {ds : List Nat}
    (h : Digits 16 (z :: x :: rest) ds) : ¬ (x = 'x' ∨ x = 'X') := by
  intro hx
  obtain ⟨hworth, hnone⟩ := markLetter_worth_nothing x hx
  cases h with
  | mk _ _ hrest =>
    cases hrest with
    | digit h hd => exact h.ne (by decide) hd hworth hnone rfl
    | gap => exact absurd hx (by decide)

theorem digits_unmarked_eq_some_iff {cs : List Char} {ds : List Nat} :
    digits 16 (unmarked (cs.map plainDigit)) = some ds ↔
      ∃ mark body, cs = mark ++ body ∧ Mark mark ∧ Digits 16 body ds := by
  have hread {body : List Char} :
      digits 16 (body.map plainDigit) = some ds ↔ Digits 16 body ds :=
    digits_eq_some_iff (by decide)
  constructor
  · intro h
    by_cases hmark : ∃ z x rest, cs = z :: x :: rest ∧ digitValue? z = some 0 ∧
        (x = 'x' ∨ x = 'X')
    · obtain ⟨z, x, rest, rfl, hz, hx⟩ := hmark
      by_cases hrest : rest.head? = some '_'
      · obtain ⟨body, rfl⟩ := List.head?_eq_some_iff.mp hrest
        rw [unmarked_of_gap hz hx] at h
        exact ⟨[z, x, '_'], body, rfl, .gap hz hx, hread.mp h⟩
      · rw [unmarked_of_bare hz hx hrest] at h
        exact ⟨[z, x], rest, rfl, .bare hz hx, hread.mp h⟩
    · rw [unmarked_of_no_mark fun z x rest hcs hz hx => hmark ⟨z, x, rest, hcs, hz, hx⟩] at h
      exact ⟨[], cs, rfl, .none, hread.mp h⟩
  · rintro ⟨mark, body, rfl, hmark, hbody⟩
    cases hmark with
    | none =>
      rw [List.nil_append, unmarked_of_no_mark, hread]
      · exact hbody
      · rintro z x rest rfl -
        exact hbody.second
    | bare hz hx =>
      rw [List.cons_append, List.cons_append, List.nil_append, unmarked_of_bare hz hx hbody.head,
        hread]
      exact hbody
    | gap hz hx =>
      rw [List.cons_append, List.cons_append, List.cons_append, List.nil_append,
        unmarked_of_gap hz hx, hread]
      exact hbody

/-! ## Whole numerals -/

theorem signed_of_sign {sign rest : List Char} {s : Int} (hsign : Sign sign s)
    (hrest : sign = [] → rest.head? ≠ some '+' ∧ rest.head? ≠ some '-') :
    signed ((sign ++ rest).map plainDigit) = (s, rest.map plainDigit) := by
  have hplus : plainDigit '+' = '+' := by decide
  have hminus : plainDigit '-' = '-' := by decide
  cases hsign with
  | plus => rw [List.cons_append, List.map_cons, hplus]; rfl
  | minus => rw [List.cons_append, List.map_cons, hminus]; rfl
  | none =>
    obtain ⟨hnotplus, hnotminus⟩ := hrest rfl
    rw [List.nil_append, signed.eq_def]
    split
    · rename_i heq
      obtain ⟨c, rest, rfl, hc, -⟩ := List.map_eq_cons_iff.mp heq
      rw [(plainDigit_eq_iff (by decide)).mp hc] at hnotminus
      exact absurd rfl hnotminus
    · rename_i heq
      obtain ⟨c, rest, rfl, hc, -⟩ := List.map_eq_cons_iff.mp heq
      rw [(plainDigit_eq_iff (by decide)).mp hc] at hnotplus
      exact absurd rfl hnotplus
    · rfl

/-- Every text is a sign, which may be none, and a rest. -/
theorem exists_sign (cs : List Char) : ∃ sign rest s, cs = sign ++ rest ∧ Sign sign s ∧
    signed (cs.map plainDigit) = (s, rest.map plainDigit) := by
  by_cases hplus : cs.head? = some '+'
  · obtain ⟨rest, rfl⟩ := List.head?_eq_some_iff.mp hplus
    exact ⟨['+'], rest, 1, rfl, .plus, signed_of_sign .plus (fun h => by cases h)⟩
  · by_cases hminus : cs.head? = some '-'
    · obtain ⟨rest, rfl⟩ := List.head?_eq_some_iff.mp hminus
      exact ⟨['-'], rest, -1, rfl, .minus, signed_of_sign .minus (fun h => by cases h)⟩
    · exact ⟨[], cs, 1, rfl, .none, signed_of_sign .none fun _ => ⟨hplus, hminus⟩⟩

/-- What begins with a digit begins with no sign. -/
theorem IsDigit.not_sign {c : Char} {d : Nat} (h : IsDigit c d) (hd : d < 16)
    (rest : List Char) : (c :: rest).head? ≠ some '+' ∧ (c :: rest).head? ≠ some '-' := by
  have hbase : 16 ≤ 36 := by decide
  have hplus : c ≠ '+' := h.ne hbase hd (by decide) (by decide)
  have hminus : c ≠ '-' := h.ne hbase hd (by decide) (by decide)
  exact ⟨fun heq => hplus (Option.some.inj heq), fun heq => hminus (Option.some.inj heq)⟩

theorem Mark.not_sign {mark body : List Char} {ds : List Nat} (hmark : Mark mark)
    (hbody : Digits 16 body ds) :
    (mark ++ body).head? ≠ some '+' ∧ (mark ++ body).head? ≠ some '-' := by
  cases hmark with
  | none =>
    cases hbody with
    | mk h hd => exact h.not_sign hd _
  | bare hz | gap hz => exact (IsDigit.decimal hz).not_sign (by decide) _

/-- A text with no blanks around it is read as an integer if it is a numeral for it. -/
theorem hex?_trimmed {cs : List Char} {n : Int} :
    ((digits 16 (unmarked (signed (cs.map plainDigit)).2)).map fun ds =>
      (signed (cs.map plainDigit)).1 * ofDigits 16 ds) = some n ↔ Written cs n := by
  constructor
  · obtain ⟨sign, rest, s, rfl, hsign, hsigned⟩ := exists_sign cs
    rw [hsigned, Option.map_eq_some_iff]
    rintro ⟨ds, hds, rfl⟩
    obtain ⟨mark, body, rfl, hmark, hbody⟩ := digits_unmarked_eq_some_iff.mp hds
    rw [ofDigits_eq]
    exact .mk hsign hmark hbody
  · rintro ⟨hsign, hmark, hbody⟩
    rw [signed_of_sign hsign fun _ => hmark.not_sign hbody,
      digits_unmarked_eq_some_iff.mpr ⟨_, _, rfl, hmark, hbody⟩, Option.map_some, ofDigits_eq]

/-- No character of a numeral is one that stands between numerals. -/
def IsInside (c : Char) : Prop := isBlank c = false ∧ c ≠ ',' ∧ c ≠ ';'

instance (c : Char) : Decidable (IsInside c) :=
  inferInstanceAs (Decidable (isBlank c = false ∧ c ≠ ',' ∧ c ≠ ';'))

theorem inside_decimal : ∀ z ∈ digitZeros, ∀ d < 10, IsInside (Char.ofNat (z + d)) := by
  decide +kernel

theorem inside_letter : ∀ d < 36, 10 ≤ d →
    IsInside (Char.ofNat (55 + d)) ∧ IsInside (Char.ofNat (87 + d)) := by
  decide +kernel

theorem IsDigit.inside {c : Char} {d : Nat} (h : IsDigit c d) : IsInside c := by
  cases h with
  | decimal h =>
    obtain ⟨z, hz, hd, rfl⟩ := exists_zero_of_digitValue? h
    exact inside_decimal z hz d hd
  | upper hlow hhigh => exact (inside_letter d hhigh hlow).1
  | lower hlow hhigh => exact (inside_letter d hhigh hlow).2

theorem MoreDigits.inside {cs : List Char} {ds : List Nat} (h : MoreDigits base cs ds) :
    ∀ c ∈ cs, IsInside c := by
  induction h with
  | nil => exact List.forall_mem_nil _
  | digit h _ _ ih => exact List.forall_mem_cons.mpr ⟨h.inside, ih⟩
  | gap h _ _ ih =>
    exact List.forall_mem_cons.mpr ⟨by decide, List.forall_mem_cons.mpr ⟨h.inside, ih⟩⟩

theorem Mark.inside {mark : List Char} (h : Mark mark) : ∀ c ∈ mark, IsInside c := by
  have letter : ∀ x : Char, x = 'x' ∨ x = 'X' → IsInside x := by
    rintro x (rfl | rfl)
    · decide
    · decide
  cases h with
  | none => exact List.forall_mem_nil _
  | bare hz hx => simp [(IsDigit.decimal hz).inside, letter _ hx]
  | gap hz hx =>
    have hunderscore : IsInside '_' := by decide
    simp [(IsDigit.decimal hz).inside, letter _ hx, hunderscore]

theorem Sign.inside {sign : List Char} {s : Int} (h : Sign sign s) : ∀ c ∈ sign, IsInside c := by
  cases h with
  | none => exact List.forall_mem_nil _
  | plus | minus => exact List.forall_mem_singleton.mpr (by decide)

theorem Digits.inside {cs : List Char} {ds : List Nat} (h : Digits base cs ds) :
    ∀ c ∈ cs, IsInside c := by
  cases h with
  | mk h _ hrest => exact List.forall_mem_cons.mpr ⟨h.inside, hrest.inside⟩

theorem Written.inside {cs : List Char} {n : Int} (h : Written cs n) : ∀ c ∈ cs, IsInside c := by
  obtain ⟨hsign, hmark, hbody⟩ := h
  exact List.forall_mem_append.mpr
    ⟨hsign.inside, List.forall_mem_append.mpr ⟨hmark.inside, hbody.inside⟩⟩

theorem Written.ne_nil {cs : List Char} {n : Int} (h : Written cs n) : cs ≠ [] := by
  obtain ⟨-, -, hbody⟩ := h
  cases hbody with
  | mk => simp

/-- **What is read as an integer in base 16 is a numeral for it**, with blanks around it. -/
theorem hex?_eq_some_iff {cs : List Char} {n : Int} : hex? cs = some n ↔
    ∃ before body after, cs = before ++ (body ++ after) ∧ (∀ c ∈ before, isPadding c = true) ∧
      (∀ c ∈ after, isPadding c = true) ∧ Written body n := by
  constructor
  · intro h
    obtain ⟨before, after, hcs, hbefore, hafter⟩ := exists_trim isPadding cs
    exact ⟨before, _, after, hcs, hbefore, hafter, hex?_trimmed.mp h⟩
  · rintro ⟨before, body, after, rfl, hbefore, hafter, hbody⟩
    have hinside : ∀ c ∈ body, isPadding c = false := fun c hc => by
      rw [isPadding, (hbody.inside c hc).1, Bool.false_and]
    have hread := hex?_trimmed.mpr hbody
    rw [← trim_append hbefore hinside hafter] at hread
    exact hread

/-- Nothing is cut off a word without blanks. -/
theorem trim_of_word {cs : List Char} (hcs : ∀ c ∈ cs, isBlank c = false) :
    trim isPadding cs = cs := by
  have hinside : ∀ c ∈ cs, isPadding c = false := fun c hc => by
    rw [isPadding, hcs c hc, Bool.false_and]
  have hnil : ∀ c ∈ ([] : List Char), isPadding c = true := List.forall_mem_nil _
  have h := trim_append hnil hinside hnil
  rwa [List.nil_append, List.append_nil] at h

/-- A word without blanks is a numeral as it stands, or none. -/
theorem hex?_eq_some_iff_of_word {cs : List Char} (hcs : ∀ c ∈ cs, isBlank c = false) {n : Int} :
    hex? cs = some n ↔ Written cs n := by
  rw [← hex?_trimmed, hex?, trim_of_word hcs]

end Chip8.Text.Numeral
