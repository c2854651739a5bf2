import Chip8.Proofs.Text.Numeral

/-!
# Decimal forms are read back

A decimal numeral has a greatest length, so that not every integer has one that is read. Which
integers have is said here for the form in which they are written out: those with no more digits
than a numeral may have (`decimal?_toString`).
-/

set_option autoImplicit false

namespace Chip8.Text.Numeral

/-! ## The digits of a number -/

theorem Digits.concat {base : Nat} {cs : List Char} {ds : List Nat} {c : Char} {d : Nat}
    (h : Digits base cs ds) (hc : IsDigit c d) (hd : d < base) :
    Digits base (cs ++ [c]) (ds ++ [d]) := by
  have more {cs : List Char} {ds : List Nat} (h : MoreDigits base cs ds) :
      MoreDigits base (cs ++ [c]) (ds ++ [d]) := by
    induction h with
    | nil => exact .digit hc hd .nil
    | digit h hd _ ih => exact .digit h hd ih
    | gap h hd _ ih => exact .gap h hd ih
  cases h with
  | mk h hd hrest => exact .mk h hd (more hrest)

theorem isDigit_digitChar : ∀ d < 10, IsDigit (Nat.digitChar d) d := by
  have hvalue : ∀ d < 10, digitValue? (Nat.digitChar d) = some d := by decide
  exact fun d hd => .decimal (hvalue d hd)

/-- The digits of a number stand for it. -/
theorem digits_toDigits (n : Nat) : ∃ ds, Digits 10 (Nat.toDigits 10 n) ds ∧
    ds.length = (Nat.toDigits 10 n).length ∧ Nat.ofDigits 10 ds.reverse = n := by
  induction n using Nat.strongRecOn with
  | ind n ih =>
    rw [Nat.toDigits_eq_if (by decide)]
    by_cases hn : n < 10
    · rw [if_pos hn]
      exact ⟨[n], .mk (isDigit_digitChar n hn) hn .nil, rfl, Nat.ofDigits_singleton⟩
    · obtain ⟨ds, hds, hlength, hvalue⟩ := ih (n / 10) (by omega)
      have hlast : n % 10 < 10 := Nat.mod_lt n (by decide)
      rw [if_neg hn]
      refine ⟨ds ++ [n % 10], hds.concat (isDigit_digitChar _ hlast) hlast, ?_, ?_⟩
      · rw [List.length_append, List.length_append, hlength, List.length_singleton,
          List.length_singleton]
      · rw [List.reverse_append, List.reverse_singleton, List.singleton_append,
          Nat.ofDigits_cons, hvalue, Nat.mod_add_div]

/-! ## Whole numerals -/

theorem Digits.not_sign {cs : List Char} {ds : List Nat} (h : Digits 10 cs ds) :
    cs.head? ≠ some '+' ∧ cs.head? ≠ some '-' := by
  cases h with
  | mk h hd => exact h.not_sign (by omega) _

theorem decimal?_of_digits {sign body : List Char} {s : Int} {ds : List Nat} (hsign : Sign sign s)
    (hbody : Digits 10 body ds) : decimal? (sign ++ body) =
      if ds.length ≤ maxDecimalDigits then some (s * (Nat.ofDigits 10 ds.reverse : Nat))
      else none := by
  have hsolid : ∀ c ∈ sign ++ body, isBlank c = false := by
    intro c hc
    exact (List.forall_mem_append.mpr ⟨hsign.inside, hbody.inside⟩ c hc).1
  have hread : digits 10 (body.map plainDigit) = some ds :=
    (digits_eq_some_iff (by decide)).mpr hbody
  rw [decimal?, trim_of_word hsolid, signed_of_sign hsign fun _ => hbody.not_sign]
  dsimp only
  rw [hread]
  dsimp only
  rw [ofDigits_eq]

/-- An integer is written as its sign, if it is negative, and the digits of its size. -/
theorem toString_eq_sign_append (n : Int) : ∃ sign s, Sign sign s ∧ s * (n.natAbs : Int) = n ∧
    (toString n).toList = sign ++ Nat.toDigits 10 n.natAbs := by
  rw [Int.toString_eq_repr, Int.repr_eq_if]
  by_cases hn : 0 ≤ n
  · have habs : n.toNat = n.natAbs := by omega
    refine ⟨[], 1, .none, by omega, ?_⟩
    rw [if_pos hn, habs, Nat.repr_eq_ofList_toDigits, String.toList_ofList, List.nil_append]
  · have habs : (-n).toNat = n.natAbs := by omega
    refine ⟨['-'], -1, .minus, by omega, ?_⟩
    rw [if_neg hn, habs, Nat.repr_eq_ofList_toDigits, String.toList_append,
      @String.toList_ofList (Nat.toDigits _ _)]
    rfl

theorem oneLine_toString (n : Int) : OneLine (toString n) := by
  obtain ⟨sign, s, hsign, -, htext⟩ := toString_eq_sign_append n
  obtain ⟨ds, hds, -, -⟩ := digits_toDigits n.natAbs
  refine .of_solid fun c hc => ?_
  rw [htext] at hc
  exact (List.forall_mem_append.mpr ⟨hsign.inside, hds.inside⟩ c hc).1

/-- **What is written out is read back**, unless it has more digits than a numeral may have. -/
theorem decimal?_toString (n : Int) : decimal? (toString n).toList =
    if n.natAbs < 10 ^ maxDecimalDigits then some n else none := by
  obtain ⟨sign, s, hsign, hn, htext⟩ := toString_eq_sign_append n
  obtain ⟨ds, hds, hlength, hvalue⟩ := digits_toDigits n.natAbs
  have hfits : ds.length ≤ maxDecimalDigits ↔ n.natAbs < 10 ^ maxDecimalDigits := by
    rw [hlength]
    exact Nat.length_toDigits_le_iff (by decide) (by decide)
  rw [htext, decimal?_of_digits hsign hds, hvalue, hn]
  exact if_congr hfits rfl rfl

end Chip8.Text.Numeral
