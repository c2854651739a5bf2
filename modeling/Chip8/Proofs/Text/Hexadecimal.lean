import Chip8.Text.Hex
import Chip8.Proofs.Text.Decimal

/-!
# Hexadecimal forms are read back

The machine shows addresses, bytes and words in base 16, with zeros before the digits. What it shows
is a numeral as a user may write one, with its mark (`written_marked`) or without it
(`written_padded`), so that it is read back as the number it was made from, however wide it is
padded.
-/

set_option autoImplicit false

namespace Chip8.Text.Numeral

theorem isDigit_digit : ∀ d < 16, IsDigit (Hex.digit d) d := by
  intro d hd
  by_cases hten : d < 10
  · rw [Hex.digit, if_pos hten]
    exact .decimal (digitValue?_ascii d hten)
  · rw [Hex.digit, if_neg hten]
    exact .upper (by omega) (by omega)

theorem Digits.cons {base : Nat} {cs : List Char} {ds : List Nat} {c : Char} {d : Nat}
    (hc : IsDigit c d) (hd : d < base) (h : Digits base cs ds) :
    Digits base (c :: cs) (d :: ds) := by
  cases h with
  | mk h' hd' hrest => exact .mk hc hd (.digit h' hd' hrest)

/-- The digits of a number stand for it. -/
theorem digits_hexDigits (n : Nat) :
    ∃ ds, Digits 16 (Hex.digits n) ds ∧ Nat.ofDigits 16 ds.reverse = n := by
  induction n using Nat.strongRecOn with
  | ind n ih =>
    rw [Hex.digits_eq]
    by_cases hn : n < 16
    · rw [if_pos hn]
      exact ⟨[n], .mk (isDigit_digit n hn) hn .nil, Nat.ofDigits_singleton⟩
    · obtain ⟨ds, hds, hvalue⟩ := ih (n / 16) (by omega)
      have hlast : n % 16 < 16 := Nat.mod_lt n (by decide)
      rw [if_neg hn]
      refine ⟨ds ++ [n % 16], hds.concat (isDigit_digit _ hlast) hlast, ?_⟩
      rw [List.reverse_append, List.reverse_singleton, List.singleton_append, Nat.ofDigits_cons,
        hvalue, Nat.mod_add_div]

/-- Zeros before the digits change nothing. -/
theorem Digits.zeros {cs : List Char} {ds : List Nat} (h : Digits 16 cs ds) (k : Nat) :
    ∃ ds', Digits 16 (List.replicate k '0' ++ cs) ds' ∧
      Nat.ofDigits 16 ds'.reverse = Nat.ofDigits 16 ds.reverse := by
  induction k with
  | zero => exact ⟨ds, h, rfl⟩
  | succ k ih =>
    obtain ⟨ds', hds', hvalue⟩ := ih
    have hzero : IsDigit '0' 0 := .decimal (by decide)
    refine ⟨0 :: ds', hds'.cons hzero (by decide), ?_⟩
    rw [List.reverse_cons, Nat.ofDigits_append_zero, hvalue]

theorem digits_zeroPad (width n : Nat) :
    ∃ ds, Digits 16 (Hex.zeroPad width (Hex.digits n)) ds ∧ Nat.ofDigits 16 ds.reverse = n := by
  obtain ⟨ds, hds, hvalue⟩ := digits_hexDigits n
  obtain ⟨ds', hds', hvalue'⟩ := hds.zeros (width - (Hex.digits n).length)
  exact ⟨ds', hds', hvalue'.trans hvalue⟩

theorem digits_padded (width n : Nat) : ∃ ds, Digits 16 (Hex.padded width n).toList ds ∧
    Nat.ofDigits 16 ds.reverse = n := by
  obtain ⟨ds, hds, hvalue⟩ := digits_zeroPad width n
  refine ⟨ds, ?_, hvalue⟩
  show Digits 16 (String.ofList (Hex.zeroPad width (Hex.digits n))).toList ds
  rw [String.toList_ofList]
  exact hds

/-- A number that is shown without a mark is a numeral for it, also one below zero. -/
theorem written_padded (width : Nat) (n : Int) : Written (Hex.padded width n).toList n := by
  cases n with
  | ofNat n =>
    obtain ⟨ds, hds, hvalue⟩ := digits_padded width n
    have hwritten := Written.mk .none .none hds
    rw [hvalue, Int.one_mul] at hwritten
    exact hwritten
  | negSucc n =>
    obtain ⟨ds, hds, hvalue⟩ := digits_zeroPad (width - 1) (n + 1)
    have hwritten := Written.mk .minus .none hds
    rw [hvalue, Int.neg_one_mul] at hwritten
    show Written (String.ofList ('-' :: Hex.zeroPad (width - 1) (Hex.digits (n + 1)))).toList _
    rw [String.toList_ofList]
    exact hwritten

/-- **A number that is shown with its mark is a numeral for it.** -/
theorem written_marked (width n : Nat) : Written ("0x" ++ Hex.padded width n).toList n := by
  obtain ⟨ds, hds, hvalue⟩ := digits_padded width n
  have hwritten : Written ([] ++ (['0', 'x'] ++ (Hex.padded width n).toList))
      (1 * (Nat.ofDigits 16 ds.reverse : Nat)) :=
    .mk .none (.bare (by decide) (.inl rfl)) hds
  rw [hvalue, Int.one_mul] at hwritten
  rw [String.toList_append]
  exact hwritten

theorem oneLine_padded (width : Nat) (n : Int) : OneLine (Hex.padded width n) :=
  .of_solid fun c hc => ((written_padded width n).inside c hc).1

theorem hex?_of_written {cs : List Char} {n : Int} (h : Written cs n) : hex? cs = some n :=
  (hex?_eq_some_iff_of_word fun c hc => (h.inside c hc).1).mpr h

end Chip8.Text.Numeral
