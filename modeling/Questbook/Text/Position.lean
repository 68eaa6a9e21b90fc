/-
Questbook.Text.Position — byte offsets, and the line and column they stand for.

An offset counts bytes of UTF-8 from the start of a source, and a column
counts bytes from the start of its line, so an offset may fall inside a
character. Lines and columns are numbered from one, and an offset past the end
stands for the end.
-/

namespace Questbook.Text

/-- The length of a text in bytes of UTF-8. -/
def size : List Char → Nat
  | [] => 0
  | c :: cs => c.utf8Size + size cs

@[simp] theorem size_nil : size [] = 0 := rfl

@[simp] theorem size_cons (c : Char) (cs : List Char) :
    size (c :: cs) = c.utf8Size + size cs := rfl

@[simp] theorem size_append (cs ds : List Char) : size (cs ++ ds) = size cs + size ds := by
  induction cs with
  | nil => simp
  | cons c cs ih => simp [ih, Nat.add_assoc]

theorem size_pos {cs : List Char} (h : cs ≠ []) : 0 < size cs := by
  cases cs with
  | nil => exact absurd rfl h
  | cons c cs => exact Nat.add_pos_left c.utf8Size_pos (size cs)

@[simp] theorem utf8Size_newline : '\n'.utf8Size = 1 := rfl

@[simp] theorem utf8Size_space : ' '.utf8Size = 1 := rfl

@[simp] theorem utf8Size_colon : ':'.utf8Size = 1 := rfl

/-- A place in a source as a reader of the file finds it. -/
structure Position where
  line : Nat
  column : Nat
deriving DecidableEq, Repr

namespace Position

/-- The place `offset` bytes into the text, when the text starts at `here`. -/
def advance (here : Position) : List Char → Nat → Position
  | [], _ => here
  | c :: cs, offset =>
    if offset < c.utf8Size then { here with column := here.column + offset }
    else if c = '\n' then advance ⟨here.line + 1, 1⟩ cs (offset - c.utf8Size)
    else advance { here with column := here.column + c.utf8Size } cs (offset - c.utf8Size)

/-- The line and column of a byte offset. -/
def ofOffset (source : String) (offset : Nat) : Position :=
  advance ⟨1, 1⟩ source.toList offset

end Position

end Questbook.Text
