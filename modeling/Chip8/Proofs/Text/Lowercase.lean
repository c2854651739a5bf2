import Chip8.Text.Lowercase

/-!
# What has a small letter of ASCII for its lower-case form

Texts are compared in lower case, and lower case is Unicode's. So it has to be known which texts
come to be a given small letter or digit: the character itself and its capital, and

> **no other text does, unless the letter is `k`** (`lower_eq_singleton_iff`),

which is also the small letter of the sign for the unit kelvin. The other character from outside
ASCII that leads back into it, the capital I with a dot, has a form of two characters. That there
are no more is a fact about the table, which is gone through run by run.
-/

set_option autoImplicit false

namespace Chip8.Text

/-- A digit of ASCII, or a small letter. -/
def IsSmall (k : Char) : Prop :=
  (0x30 ≤ k.toNat ∧ k.toNat ≤ 0x39) ∨ (0x61 ≤ k.toNat ∧ k.toNat ≤ 0x7A)

instance (k : Char) : Decidable (IsSmall k) := inferInstanceAs (Decidable (_ ∨ _))

variable {c k : Char} {cs : List Char}

/-! ## Single characters -/

/-- All runs of capitals lie outside ASCII and lead to places outside it but that of ASCII itself
and the kelvin sign. -/
theorem caseRuns_image : ∀ r ∈ caseRuns, (r.first = 0x41 ∧ r.last = 0x5A ∧ r.shift = 32) ∨
    (r.first = 0x212A ∧ r.last = 0x212A ∧ r.shift = -8383) ∨
    (0x80 ≤ r.first ∧ 0x80 ≤ (r.first : Int) + r.shift) := by
  decide +kernel

/-- A character that is not its own lower-case form is in one of the runs. -/
theorem lowerChar_cases (c : Char) : lowerChar c = c ∨ ∃ r ∈ caseRuns,
    r.first ≤ c.toNat ∧ c.toNat ≤ r.last ∧
      lowerChar c = Char.ofNat (c.toNat + r.shift).toNat := by
  unfold lowerChar
  split
  · rename_i r hrun
    have hmem := Array.find?_some hrun
    simp only [CaseRun.mem, Bool.and_eq_true, decide_eq_true_eq] at hmem
    exact Or.inr ⟨r, Array.mem_of_find?_eq_some hrun, hmem.1.1, hmem.1.2, rfl⟩
  · exact Or.inl rfl

/-- What is small already stays as it is. -/
theorem IsSmall.lowerChar_self (h : IsSmall k) : lowerChar k = k := by
  rcases lowerChar_cases k with hself | ⟨r, hr, hfirst, hlast, -⟩
  · exact hself
  · rw [IsSmall] at h
    exfalso
    rcases caseRuns_image r hr with ⟨hf, hl, -⟩ | ⟨hf, -⟩ | ⟨hf, -⟩
    · omega
    · omega
    · omega

theorem toUpper_of_capital : ∀ n < 0x5B, 0x41 ≤ n →
    (Char.ofNat (n + 32)).toUpper = Char.ofNat n := by decide

theorem toUpper_of_digit : ∀ n < 0x3A, 0x30 ≤ n → (Char.ofNat n).toUpper = Char.ofNat n := by decide

theorem lowerChar_of_capital : ∀ n < 0x5B, 0x41 ≤ n →
    lowerChar (Char.ofNat n) = Char.ofNat (n + 32) := by decide +kernel

theorem IsSmall.lowerChar_toUpper (h : IsSmall k) : lowerChar k.toUpper = k := by
  have hself := h.lowerChar_self
  rcases h with ⟨hlow, hhigh⟩ | ⟨hlow, hhigh⟩
  · have hsame := toUpper_of_digit k.toNat (by omega) hlow
    rw [Char.ofNat_toNat] at hsame
    rw [hsame, hself]
  · have hplace : k.toNat - 32 + 32 = k.toNat := by omega
    have hupper := toUpper_of_capital (k.toNat - 32) (by omega) (by omega)
    rw [hplace, Char.ofNat_toNat] at hupper
    rw [hupper, lowerChar_of_capital _ (by omega) (by omega), hplace, Char.ofNat_toNat]

/-- What is no character is replaced by one that is neither letter nor digit. -/
theorem IsSmall.eq_of_ofNat {n : Nat} (h : IsSmall (Char.ofNat n)) : (Char.ofNat n).toNat = n := by
  by_cases hvalid : n.isValidChar
  · rw [Char.ofNat, dif_pos hvalid]
    rfl
  · rw [Char.ofNat, dif_neg hvalid] at h
    exact absurd h (by decide)

theorem lowerChar_eq_iff (h : IsSmall k) (hk : k ≠ 'k') :
    lowerChar c = k ↔ c = k ∨ c = k.toUpper := by
  constructor
  · rintro rfl
    rcases lowerChar_cases c with hself | ⟨r, hr, hfirst, hlast, heq⟩
    · exact Or.inl hself.symm
    · rw [heq] at h hk ⊢
      have hnumber := h.eq_of_ofNat
      rw [IsSmall, hnumber] at h
      rcases caseRuns_image r hr with ⟨hf, hl, hs⟩ | ⟨hf, hl, hs⟩ | ⟨-, himage⟩
      · -- a capital of ASCII
        have hplace : (c.toNat + r.shift).toNat = c.toNat + 32 := by omega
        rw [hplace, toUpper_of_capital c.toNat (by omega) (by omega), Char.ofNat_toNat]
        exact Or.inr rfl
      · have hplace : (c.toNat + r.shift).toNat = 107 := by omega
        rw [hplace] at hk
        exact absurd rfl hk
      · omega
  · rintro (rfl | rfl)
    · exact h.lowerChar_self
    · exact h.lowerChar_toUpper

/-! ## Texts -/

/-- A character alone has the one form that it has, with one exception. -/
theorem lower_singleton (c : Char) :
    lower [c] = if c = '\u0130' then ['i', '\u0307'] else [lowerChar c] := by
  have hnone : meetsCased [] = false := rfl
  rw [lower, lowerFrom, lowerFrom, List.append_nil]
  by_cases hdotted : c = '\u0130'
  · rw [if_pos hdotted, if_pos hdotted]
  · rw [if_neg hdotted, if_neg hdotted, hnone]
    by_cases hsigma : c = '\u03A3'
    · rw [if_pos hsigma, hsigma]
      decide +kernel
    · rw [if_neg hsigma]

/-- No character is lost. -/
theorem length_le_lowerFrom (cs : List Char) : ∀ before : List Char,
    cs.length ≤ (lowerFrom before cs).length := by
  induction cs with
  | nil => exact fun _ => Nat.zero_le _
  | cons c cs ih =>
    intro before
    have hrest := ih (c :: before)
    rw [lowerFrom, List.length_append, List.length_cons]
    split
    · rw [List.length_cons, List.length_singleton]
      omega
    · split
      · rw [List.length_singleton]
        omega
      · rw [List.length_singleton]
        omega

theorem lower_eq_nil_iff : lower cs = [] ↔ cs = [] := by
  constructor
  · intro h
    have hlength := length_le_lowerFrom cs []
    rw [← lower, h] at hlength
    exact List.length_eq_zero_iff.mp (Nat.le_zero.mp hlength)
  · rintro rfl
    rfl

/-- **No text comes to be a small letter or a digit but the character itself and its capital.** -/
theorem lower_eq_singleton_iff (h : IsSmall k) (hk : k ≠ 'k') :
    lower cs = [k] ↔ cs = [k] ∨ cs = [k.toUpper] := by
  have hone (c : Char) : lower [c] = [k] ↔ c = k ∨ c = k.toUpper := by
    rw [lower_singleton]
    by_cases hdotted : c = '\u0130'
    · rw [if_pos hdotted]
      refine iff_of_false (by rintro ⟨⟩) ?_
      rw [hdotted, ← lowerChar_eq_iff h hk]
      rintro rfl
      exact absurd h (by decide +kernel)
    · rw [if_neg hdotted, List.singleton_inj, lowerChar_eq_iff h hk]
  constructor
  · intro heq
    have hlength := length_le_lowerFrom cs []
    rw [← lower, heq, List.length_singleton] at hlength
    match cs, hlength with
    | [], _ => cases heq
    | [c], _ =>
      rw [List.singleton_inj, List.singleton_inj]
      exact (hone c).mp heq
  · rintro (rfl | rfl)
    · exact (hone k).mpr (Or.inl rfl)
    · exact (hone k.toUpper).mpr (Or.inr rfl)

end Chip8.Text
