/-
Questbook.Reader.Take — reading one thing of a known sort.

Two families. The first (`expect`, `identifier`, `word`, `number`) passes over
line breaks and takes one token, which has to be of the right sort; on a
failure the token is taken all the same, so reading can go on behind it. The
second (`textLine`, `textBlock`) reads text for the player with blanks kept
inside words; it cannot fail, and the reader comes back in the mode it was in.
-/
import Questbook.ParseError
import Questbook.Reader

namespace Questbook

open Text

/-- An identifier of a source, where it stands. -/
structure Identifier where
  text : String
  offset : Nat
deriving DecidableEq, Repr

namespace Reader

/-! ## 1. Single tokens -/

/-- Takes one token behind the line breaks, if `accept` does. -/
def take {α : Type} (expected : String) (accept : Token → Option α) (r : Reader) :
    Except ParseError α × Reader :=
  let (token, last) := r.skipBreaks.next
  match accept token with
  | some a => (.ok a, last)
  | none => (.error ⟨.unexpectedToken expected token.lexeme.describe, token.offset⟩, last)

/-- Takes the identifier `keyword`, in any case of its ASCII letters. -/
def expect (keyword : String) : Reader → Except ParseError Unit × Reader :=
  take s!"'{keyword}'" fun token =>
    if token.lexeme.isKeyword keyword then some () else none

/-- Takes an identifier. -/
def identifier : Reader → Except ParseError Identifier × Reader :=
  take "an identifier" fun token => token.lexeme.identifier?.map (⟨·, token.offset⟩)

/-- Takes a word and gives its text. -/
def word : Reader → Except ParseError String × Reader :=
  take "a word" fun token => token.lexeme.word?

/-- Takes an integer and gives its value. -/
def number : Reader → Except ParseError Int64 × Reader :=
  take "a number" fun token => token.lexeme.integer?

/-! ## 2. Text -/

/-- Reads with blanks kept inside words, and goes back to the former mode. -/
def widely {α : Type} (read : Reader → α × Reader) (r : Reader) : α × Reader :=
  let (a, last) := read { r with wide := true }
  (a, { last with wide := r.wide })

/-- The words up to the next line break, with nothing between them. -/
def textLine (r : Reader) : String × Reader :=
  r.skipBreaks.widely fun r =>
    let (words, last) := r.words
    (String.join words, last)

/-- The text of the lines up to a blank line, which is taken too, or up to the
end of the file. `pending` line breaks were read since the last word; they are
written only when another word follows, so no text ends in a newline. -/
def blockLines (pending : Nat) (r : Reader) : String × Reader :=
  match _ : r.next.1.lexeme.word? with
  | some word =>
    let (others, last) := r.next.2.blockLines 0
    (String.ofList (List.replicate pending '\n') ++ word ++ others, last)
  | none =>
    if _ : r.next.1.lexeme = .endOfFile then ("", r)
    else if r.next.1.lexeme.isBlankLine then ("", r.next.2)
    else r.next.2.blockLines (pending + 1)
termination_by r.rest.length
decreasing_by
  · exact length_next_lt (by intro he; simp_all [Lexeme.word?])
  · exact length_next_lt ‹_›

/-- Lines of text up to a blank line or the end of the file, a newline between
each two. -/
def textBlock (r : Reader) : String × Reader :=
  r.skipBreaks.widely (blockLines 0)

/-! ## 3. The text gets no longer -/

theorem length_skipBreaks_le (r : Reader) : r.skipBreaks.rest.length ≤ r.rest.length := by
  fun_induction skipBreaks r with
  | case1 r count h ih => exact Nat.le_trans ih r.length_next_le
  | case2 r h => exact Nat.le_refl _

theorem length_words_le (r : Reader) : r.words.2.rest.length ≤ r.rest.length := by
  fun_induction words r with
  | case1 r word h others last heq ih =>
    rw [heq] at ih
    exact Nat.le_trans ih r.length_next_le
  | case2 r h => exact Nat.le_refl _

theorem length_blockLines_le (pending : Nat) (r : Reader) :
    (r.blockLines pending).2.rest.length ≤ r.rest.length := by
  fun_induction blockLines pending r with
  | case1 pending r word h others last heq ih =>
    rw [heq] at ih
    exact Nat.le_trans ih r.length_next_le
  | case2 pending r h he => exact Nat.le_refl _
  | case3 pending r h he hb => exact r.length_next_le
  | case4 pending r h he hb ih => exact Nat.le_trans ih r.length_next_le

theorem length_textLine_le (r : Reader) : r.textLine.2.rest.length ≤ r.rest.length :=
  Nat.le_trans (length_words_le { r.skipBreaks with wide := true }) r.length_skipBreaks_le

theorem length_textBlock_le (r : Reader) : r.textBlock.2.rest.length ≤ r.rest.length :=
  Nat.le_trans (length_blockLines_le 0 { r.skipBreaks with wide := true })
    r.length_skipBreaks_le

theorem length_take_le {α : Type} (expected : String) (accept : Token → Option α) (r : Reader) :
    (r.take expected accept).2.rest.length ≤ r.rest.length := by
  have h := Nat.le_trans r.skipBreaks.length_next_le r.length_skipBreaks_le
  unfold take
  split
  split <;> simp_all

end Reader

end Questbook
