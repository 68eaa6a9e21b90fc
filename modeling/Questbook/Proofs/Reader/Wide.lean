/-
Questbook.Proofs.Reader.Wide — reading widely makes a difference to words only.

What a token is shows at its first character, and only where a word ends depends
on the mode. So line breaks, a `:` and the end of the file are the same in either
mode (`next_widen`). A text is read widely up to such a token, and what is read
behind it is read narrowly again, from the same place.
-/
import Questbook.Proofs.Reader.Steps

namespace Questbook

open Text Extent

namespace Reader

theorem isSome_word?_ofWord (cs : List Char) : (Lexeme.ofWord cs).word?.isSome = true := by
  unfold Lexeme.ofWord
  split <;> rfl

/-- Line breaks start with a newline. -/
theorem cutToken_eq_lineBreaks {wide : Bool} {cs : List Char} {count : Nat}
    (h : (cutToken wide cs).1 = .lineBreaks count) : ∃ rest, cs = '\n' :: rest := by
  unfold cutToken at h
  split at h
  · cases h
  · cases h
  · next rest => exact ⟨rest, rfl⟩
  · have hword := isSome_word?_ofWord (trimRight (splitWord wide cs).1)
    rw [show Lexeme.ofWord _ = _ from h] at hword
    cases hword

theorem cutToken_widen {wide : Bool} {cs : List Char} (h : (cutToken wide cs).1.word? = none)
    (wide' : Bool) : cutToken wide' cs = cutToken wide cs := by
  unfold cutToken at h ⊢
  split
  · rfl
  · rfl
  · rfl
  · split at h
    · rfl
    · cases h
    · rfl
    · have := isSome_word?_ofWord (trimRight (splitWord wide cs).1)
      rw [h] at this
      cases this

/-- In either mode, a token that is no word is the same. -/
theorem next_widen {r : Reader} (h : r.next.1.lexeme.word? = none) (wide : Bool) :
    { r with wide }.next = (r.next.1, { r.next.2 with wide }) := by
  have hcut : cutToken wide (splitGap false r.rest).2 = cutToken r.wide (splitGap false r.rest).2 :=
    cutToken_widen h wide
  simp [next, toToken, pass, hcut]

theorem widely_next {r : Reader} (h : r.next.1.lexeme.word? = none) : r.widely next = r.next := by
  rw [widely, next_widen h]
  rfl

/-- A text ends at a token that ends it in either mode. -/
theorem next_of_widely {r : Reader} (h : (r.widely next).1.lexeme.word? = none) :
    r.next = r.widely next :=
  next_widen (r := { r with wide := true }) h r.wide

theorem lexeme_widely_next_ne {r : Reader} (h : ∀ count, r.next.1.lexeme ≠ .lineBreaks count)
    (count : Nat) : (r.widely next).1.lexeme ≠ .lineBreaks count := by
  intro hcount
  rw [← next_of_widely (by rw [hcount]; rfl)] at hcount
  exact h count hcount

theorem length_widely_next_lt {r : Reader} (h : (r.widely next).1.lexeme ≠ .endOfFile) :
    (r.widely next).2.rest.length < r.rest.length :=
  length_next_lt (r := { r with wide := true }) h

theorem widely_words_of_word? {r : Reader} {word : String}
    (h : (r.widely next).1.lexeme.word? = some word) :
    r.widely words =
      (word :: ((r.widely next).2.widely words).1, ((r.widely next).2.widely words).2) := by
  rw [widely, words_of_word? (r := { r with wide := true }) h]
  rfl

theorem widely_words_of_word?_eq_none {r : Reader} (h : (r.widely next).1.lexeme.word? = none) :
    r.widely words = ([], r) := by
  rw [widely, words_of_word?_eq_none (r := { r with wide := true }) h]

theorem widely_blockLines_of_word? {r : Reader} {word : String}
    (h : (r.widely next).1.lexeme.word? = some word) (pending : Nat) :
    r.widely (blockLines pending) =
      (String.ofList (List.replicate pending '\n') ++ word ++
          ((r.widely next).2.widely (blockLines 0)).1,
        ((r.widely next).2.widely (blockLines 0)).2) := by
  rw [widely, blockLines_of_word? (r := { r with wide := true }) h]
  rfl

theorem widely_blockLines_of_endOfFile {r : Reader}
    (h : (r.widely next).1.lexeme = .endOfFile) (pending : Nat) :
    r.widely (blockLines pending) = ("", r) := by
  rw [widely, blockLines_of_endOfFile (r := { r with wide := true }) h]

theorem widely_blockLines_of_isBlankLine {r : Reader}
    (h : (r.widely next).1.lexeme.isBlankLine = true) (pending : Nat) :
    r.widely (blockLines pending) = ("", (r.widely next).2) := by
  rw [widely, blockLines_of_isBlankLine (r := { r with wide := true }) h]
  rfl

theorem widely_blockLines_of_lineBreak {r : Reader} {count : Nat}
    (h : (r.widely next).1.lexeme = .lineBreaks count) (hcount : count < 2) (pending : Nat) :
    r.widely (blockLines pending) = (r.widely next).2.widely (blockLines (pending + 1)) := by
  rw [widely, blockLines_of_lineBreak (r := { r with wide := true }) h hcount]
  rfl

end Reader

end Questbook
