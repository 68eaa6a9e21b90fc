/-
Questbook.Reader — a place in a source, and the tokens from there on.

A reader is a value: the text still unread, the offset of its first byte, and
whether the next word is read wide. Reading a token gives the token and the
reader behind it, so looking ahead is reading and keeping the old reader, and
a reader kept earlier can be taken up again at any time.

Reading never fails. Each token other than the end of the file takes some of
the text (`length_next_lt`), which is what makes every loop over tokens end.
-/
import Questbook.Text.Position
import Questbook.Token
import Questbook.Token.Extent

namespace Questbook

open Text Extent

/-- A place in a source. In wide reading, blanks stay inside a word. -/
structure Reader where
  rest : List Char
  offset : Nat
  wide : Bool
deriving DecidableEq, Repr

namespace Reader

/-- At the start of a source, reading narrowly. -/
def ofSource (source : String) : Reader :=
  ⟨source.toList, 0, false⟩

/-- Behind the first part of a text cut in two. -/
def pass (r : Reader) (cut : List Char × List Char) : Reader :=
  { r with rest := cut.2, offset := r.offset + size cut.1 }

/-! ## 1. One token -/

/-- The token that a text starts with, and the text cut in two behind it. The
text starts with neither blank nor comment. -/
def cutToken (wide : Bool) : List Char → Lexeme × (List Char × List Char)
  | [] => (.endOfFile, [], [])
  | ':' :: cs => (.identifier scope, [':'], cs)
  | '\n' :: cs =>
    let cut := splitBreaks ('\n' :: cs)
    (.lineBreaks (cut.1.count '\n'), cut)
  | cs =>
    let cut := splitWord wide cs
    (.ofWord (trimRight cut.1), cut)

/-- Behind the blanks and comments that stand before the next token. -/
def toToken (r : Reader) : Reader :=
  r.pass (splitGap false r.rest)

/-- The next token, and the place behind it. -/
def next (r : Reader) : Token × Reader :=
  let start := r.toToken
  let (lexeme, cut) := cutToken start.wide start.rest
  (⟨lexeme, start.offset⟩, start.pass cut)

/-- The next token, looked at only. -/
def peek (r : Reader) : Token :=
  r.next.1

/-- No token is left. -/
def atEnd (r : Reader) : Bool :=
  r.peek.lexeme == .endOfFile

/-! ## 2. Progress -/

@[simp] theorem wide_next (r : Reader) : r.next.2.wide = r.wide := rfl

theorem ofWord_ne_endOfFile (cs : List Char) : Lexeme.ofWord cs ≠ .endOfFile := by
  unfold Lexeme.ofWord
  split <;> simp

/-- What is neither a `:` nor a newline starts a word. -/
theorem cutToken_of_ne {c : Char} (hscope : c ≠ ':') (hnewline : c ≠ '\n') (wide : Bool)
    (cs : List Char) :
    cutToken wide (c :: cs) =
      (.ofWord (trimRight (splitWord wide (c :: cs)).1), splitWord wide (c :: cs)) := by
  unfold cutToken
  split
  · next heq => cases heq
  · next heq => exact absurd (List.cons.inj heq).1 hscope
  · next heq => exact absurd (List.cons.inj heq).1 hnewline
  · rfl

theorem append_cutToken (wide : Bool) (cs : List Char) :
    (cutToken wide cs).2.1 ++ (cutToken wide cs).2.2 = cs := by
  unfold cutToken
  split
  · rfl
  · rfl
  · exact append_splitBreaks _
  · exact append_splitWord _ _

theorem length_cutToken_lt (wide : Bool) {c : Char} (cs : List Char) (h : isBlank c = false) :
    (cutToken wide (c :: cs)).2.2.length < (c :: cs).length := by
  unfold cutToken
  split
  · next heq => cases heq
  · next ds heq =>
    obtain ⟨rfl, rfl⟩ := List.cons.inj heq
    simp
  · next ds heq =>
    obtain ⟨rfl, rfl⟩ := List.cons.inj heq
    exact length_splitBreaks_lt _ rfl
  · next h₁ h₂ =>
    refine length_splitWord_lt wide cs ?_
    have hs : c ≠ ':' := fun hc => h₁ cs (by rw [hc])
    have hn : c ≠ '\n' := fun hc => h₂ cs (by rw [hc])
    simp [inWord, endsWord, h, hs, hn]

theorem length_toToken_le (r : Reader) : r.toToken.rest.length ≤ r.rest.length :=
  length_splitGap_le false r.rest

/-- A token other than the end of the file takes some of the text. -/
theorem length_next_lt {r : Reader} (h : r.next.1.lexeme ≠ .endOfFile) :
    r.next.2.rest.length < r.rest.length := by
  have hle := r.length_toToken_le
  cases hr : r.toToken.rest with
  | nil => exact absurd (show r.next.1.lexeme = .endOfFile by simp [next, hr, cutToken]) h
  | cons c cs =>
    have hc : isBlank c = false := isBlank_head_splitGap false hr
    have := length_cutToken_lt r.toToken.wide cs hc
    simp only [next, pass, hr] at this hle ⊢
    omega

/-- Reading a token never makes the text longer. -/
theorem length_next_le (r : Reader) : r.next.2.rest.length ≤ r.rest.length := by
  by_cases h : r.next.1.lexeme = .endOfFile
  · cases hr : r.toToken.rest with
    | nil => simp [next, pass, hr, cutToken]
    | cons c cs =>
      have hle := r.length_toToken_le
      have := length_cutToken_lt r.toToken.wide cs (isBlank_head_splitGap false hr)
      simp only [next, pass, hr] at this hle ⊢
      omega
  · exact Nat.le_of_lt (length_next_lt h)

/-! ## 3. Runs of tokens -/

/-- The tokens from here on, without the end of the file. -/
def tokens (r : Reader) : List Token :=
  if _ : r.next.1.lexeme = .endOfFile then []
  else r.next.1 :: r.next.2.tokens
termination_by r.rest.length
decreasing_by exact length_next_lt ‹_›

/-- Behind the line breaks that stand next. Comments between lines can leave
several tokens of line breaks in a row. -/
def skipBreaks (r : Reader) : Reader :=
  match _ : r.next.1.lexeme with
  | .lineBreaks _ => r.next.2.skipBreaks
  | _ => r
termination_by r.rest.length
decreasing_by exact length_next_lt (by simp [*])

/-- The texts of the words before the next line break or the end of the file,
and the place behind them. -/
def words (r : Reader) : List String × Reader :=
  match _ : r.next.1.lexeme.word? with
  | some word =>
    let (others, last) := r.next.2.words
    (word :: others, last)
  | none => ([], r)
termination_by r.rest.length
decreasing_by exact length_next_lt (by intro he; simp_all [Lexeme.word?])

end Reader

/-- The tokens of a source, without the end of the file. -/
def tokenize (source : String) : List Token :=
  (Reader.ofSource source).tokens

end Questbook
