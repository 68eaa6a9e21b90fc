/-
Questbook.Proofs.Text.Position — the place behind a piece of text.

An offset that no character is cut by is the size of what stands before it, and
its line and column follow from that text alone (`ofOffset_append`): the line
from the newlines in it, the column from what stands behind the last of them.
-/
import Questbook.Text.Position

namespace Questbook.Text.Position

/-- The place behind a text that starts at `here`. -/
def behind (here : Position) : List Char → Position
  | [] => here
  | c :: cs =>
    if c = '\n' then behind ⟨here.line + 1, 1⟩ cs
    else behind { here with column := here.column + c.utf8Size } cs

theorem behind_append (here : Position) (cs ds : List Char) :
    behind here (cs ++ ds) = behind (behind here cs) ds := by
  induction cs generalizing here with
  | nil => rfl
  | cons c cs ih =>
    simp only [List.cons_append, behind]
    split <;> exact ih _

theorem advance_append (here : Position) (cs rest : List Char) :
    advance here (cs ++ rest) (size cs) = behind here cs := by
  induction cs generalizing here with
  | nil =>
    cases rest with
    | nil => rfl
    | cons c rest => simp [advance, behind, Char.utf8Size_pos]
  | cons c cs ih =>
    simp only [List.cons_append, advance, size_cons, behind, Nat.add_sub_cancel_left,
      if_neg (Nat.not_lt.2 (Nat.le_add_right c.utf8Size (size cs)))]
    split <;> exact ih _

/-- The line and column of an offset are those behind the text before it. -/
theorem ofOffset_append {source : String} {front rest : List Char}
    (h : source.toList = front ++ rest) :
    ofOffset source (size front) = behind ⟨1, 1⟩ front := by
  rw [ofOffset, h, advance_append]

theorem line_behind_congr {here there : Position} (h : here.line = there.line) (cs : List Char) :
    (behind here cs).line = (behind there cs).line := by
  induction cs generalizing here there with
  | nil => exact h
  | cons c cs ih =>
    simp only [behind]
    split
    · exact ih (by rw [h])
    · exact ih h

/-- A newline makes up for different columns. -/
theorem behind_newline_congr {here there : Position} (h : here.line = there.line)
    (cs : List Char) : behind here ('\n' :: cs) = behind there ('\n' :: cs) := by
  simp only [behind, if_true, h]

/-- A character that is no newline makes no difference to the line. -/
theorem line_behind_cons {c : Char} (hc : c ≠ '\n') (here : Position) (cs : List Char) :
    (behind here (c :: cs)).line = (behind here cs).line := by
  rw [behind, if_neg hc]
  refine line_behind_congr ?_ cs
  rfl

theorem line_behind_of_forall_ne {cs : List Char} (h : ∀ c ∈ cs, c ≠ '\n') (here : Position) :
    (behind here cs).line = here.line := by
  induction cs generalizing here with
  | nil => rfl
  | cons c cs ih =>
    obtain ⟨hc, hcs⟩ := List.forall_mem_cons.1 h
    rw [line_behind_cons hc, ih hcs]

theorem advance_congr (here : Position) (cs rest rest' : List Char) {offset : Nat}
    (h : offset ≤ size cs) : advance here (cs ++ rest) offset = advance here (cs ++ rest') offset := by
  induction cs generalizing here offset with
  | nil =>
    obtain rfl : offset = 0 := Nat.le_zero.1 h
    have hnone (rest : List Char) : advance here ([] ++ rest) 0 = here :=
      advance_append here [] rest
    rw [hnone, hnone]
  | cons c cs ih =>
    rw [size_cons] at h
    simp only [List.cons_append, advance]
    split
    · rfl
    · split <;> exact ih _ (by omega)

/-- Texts that begin alike have the same lines and columns there. -/
theorem ofOffset_congr {source source' : String} {front rest rest' : List Char}
    (h : source.toList = front ++ rest) (h' : source'.toList = front ++ rest') {offset : Nat}
    (hoffset : offset ≤ size front) : ofOffset source offset = ofOffset source' offset := by
  rw [ofOffset, ofOffset, h, h', advance_congr _ _ rest rest' hoffset]

end Questbook.Text.Position
