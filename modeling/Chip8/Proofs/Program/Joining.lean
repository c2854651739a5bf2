import Chip8.Program.Source
import Chip8.Proofs.Text.Fields

/-!
# Inline programs put one behind the other

Programs are put together as texts: one, some separators, another. What the whole is read as must
not depend on where it was cut.

> **Reading takes texts set apart to images put together, and the first mistake in the text is the
> mistake that is reported** (`ofInline_joined`),

whichever texts they are, also such that begin or end in separators or are nothing else. That the
image of the whole is the two images in order is not the half of it. A word is read and packed
before the next one is looked at, so a number too large in the first text comes before a word in the
second that is no number at all, which a listing would report in its place.
-/

set_option autoImplicit false

namespace Chip8.Program

open Text

variable {gap : List Char}

/-- No word goes across a separator. -/
theorem inlineWords_joined (hne : gap ≠ []) (hgap : ∀ c ∈ gap, isSeparator c = true)
    (cs cs' : List Char) : inlineWords (cs ++ gap ++ cs') = inlineWords cs ++ inlineWords cs' := by
  rw [inlineWords, List.append_assoc, fields_append_gap hne hgap]
  rfl

/-- The second text is read after the first one, and only if there is an image of that. -/
theorem ofInline_joined_eq (hne : gap ≠ []) (hgap : ∀ c ∈ gap, isSeparator c = true)
    (cs cs' : List Char) : ofInline (cs ++ gap ++ cs') = do
      let bytes ← ofInline cs
      let bytes' ← ofInline cs'
      return bytes ++ bytes' := by
  rw [ofInline, inlineWords_joined hne hgap, List.mapM_append, ofInline, ofInline]
  cases (inlineWords cs).mapM fun w => readWord w >>= wordBytes with
  | error e => rfl
  | ok parts =>
    cases (inlineWords cs').mapM fun w => readWord w >>= wordBytes with
    | error e => rfl
    | ok parts' => exact congrArg Except.ok List.flatten_append

/-- **Inline programs are read from left to right, text by text.** With some separators between
them, two programs are the program of both; a mistake in the first text is reported whatever the
second one is, and one in the second where the first has none. A text that is a program is one on
either side of any separators in it. -/
theorem ofInline_joined (hne : gap ≠ []) (hgap : ∀ c ∈ gap, isSeparator c = true)
    (cs cs' : List Char) :
    (∀ bytes bytes', ofInline cs = .ok bytes → ofInline cs' = .ok bytes' →
      ofInline (cs ++ gap ++ cs') = .ok (bytes ++ bytes')) ∧
    (∀ e, ofInline cs = .error e → ofInline (cs ++ gap ++ cs') = .error e) ∧
    (∀ bytes e, ofInline cs = .ok bytes → ofInline cs' = .error e →
      ofInline (cs ++ gap ++ cs') = .error e) ∧
    ∀ image, ofInline (cs ++ gap ++ cs') = .ok image →
      ∃ bytes bytes', ofInline cs = .ok bytes ∧ ofInline cs' = .ok bytes' ∧
        image = bytes ++ bytes' := by
  rw [ofInline_joined_eq hne hgap]
  refine ⟨?_, ?_, ?_, ?_⟩
  · intro bytes bytes' hfirst hsecond
    rw [hfirst, hsecond]
    rfl
  · intro e hfirst
    rw [hfirst]
    rfl
  · intro bytes e hfirst hsecond
    rw [hfirst, hsecond]
    rfl
  · intro image himage
    cases hfirst : ofInline cs with
    | error e =>
      rw [hfirst] at himage
      cases himage
    | ok bytes =>
      cases hsecond : ofInline cs' with
      | error e =>
        rw [hfirst, hsecond] at himage
        cases himage
      | ok bytes' =>
        rw [hfirst, hsecond] at himage
        cases himage
        exact ⟨bytes, bytes', rfl, rfl, rfl⟩

/-- A number too large before a word that is none. -/
theorem ofInline_joined_mistakes :
    ofInline ("6005 12345".toList ++ ",;".toList ++ " zz;".toList) =
        .error (.wordOutOfRange 0x12345) ∧
      ofInline ("; 6005".toList ++ "\t".toList ++ "zz 12345".toList) =
        .error (.badNumeral ['z', 'z']) := by
  have hlarge : ofInline "6005 12345".toList = .error (.wordOutOfRange 0x12345) := rfl
  have hgood : ofInline "; 6005".toList = .ok [0x60, 0x05] := rfl
  have hbad : ofInline "zz 12345".toList = .error (.badNumeral ['z', 'z']) := rfl
  have hmarks : ∀ c ∈ ",;".toList, isSeparator c = true := List.all_eq_true.mp rfl
  have htab : ∀ c ∈ "\t".toList, isSeparator c = true := List.all_eq_true.mp rfl
  exact ⟨(ofInline_joined (by decide) hmarks _ _).2.1 _ hlarge,
    (ofInline_joined (by decide) htab _ _).2.2.1 _ _ hgood hbad⟩

end Chip8.Program
