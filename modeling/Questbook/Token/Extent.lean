/-
Questbook.Token.Extent — how far a gap, a run of line breaks and a word reach.

Each function here cuts the unread text in two, the piece that is passed over
and the rest, and loses nothing: the two parts appended are the text
(`append_splitGap`, `append_splitWord`). Offsets come in later, as sizes of
pieces.

* A *gap* is any mix of blanks and comments. A comment opens with `$-` where a
  token could start and reaches through the end of its line, newline included.
* A run of *line breaks* is newlines with blanks between and after them.
* A *word* ends before a newline or a `:`. In narrow reading it ends before a
  blank too; in wide reading blanks stay inside, and those at its end are no
  part of its text. A word that opens with `(` is a *span*: it keeps its
  blanks in either reading and ends right after the parenthesis that closes
  the first one.
-/
import Questbook.Text.Blank

namespace Questbook.Extent

open Text

/-! ## 1. Gaps -/

/-- Cuts off the blanks and comments at the start. `comment` tells whether the
text starts inside a comment. -/
def splitGap (comment : Bool) : List Char → List Char × List Char
  | [] => ([], [])
  | c :: cs =>
    if comment then
      let (gap, rest) := splitGap (c != '\n') cs
      (c :: gap, rest)
    else if isBlank c then
      let (gap, rest) := splitGap false cs
      (c :: gap, rest)
    else if c == '$' && cs.head? == some '-' then
      let (gap, rest) := splitGap true cs
      (c :: gap, rest)
    else
      ([], c :: cs)

theorem append_splitGap (comment : Bool) (cs : List Char) :
    (splitGap comment cs).1 ++ (splitGap comment cs).2 = cs := by
  induction cs generalizing comment with
  | nil => rfl
  | cons c cs ih => grind [splitGap]

theorem length_splitGap_le (comment : Bool) (cs : List Char) :
    (splitGap comment cs).2.length ≤ cs.length := by
  have h := congrArg List.length (append_splitGap comment cs)
  simp at h
  omega

/-- A gap takes every blank it meets. -/
theorem isBlank_head_splitGap (comment : Bool) {cs rest : List Char} {c : Char}
    (h : (splitGap comment cs).2 = c :: rest) : isBlank c = false := by
  induction cs generalizing comment with
  | nil => simp [splitGap] at h
  | cons d ds ih => grind [splitGap]

/-! ## 2. Line breaks -/

/-- Cuts off the run of newlines and blanks at the start. -/
def splitBreaks (cs : List Char) : List Char × List Char :=
  (cs.takeWhile isSpacing, cs.dropWhile isSpacing)

theorem append_splitBreaks (cs : List Char) :
    (splitBreaks cs).1 ++ (splitBreaks cs).2 = cs :=
  List.takeWhile_append_dropWhile

theorem length_splitBreaks_lt {c : Char} (cs : List Char) (h : isSpacing c = true) :
    (splitBreaks (c :: cs)).2.length < (c :: cs).length := by
  have := (List.dropWhile_sublist isSpacing (l := cs)).length_le
  simp [splitBreaks, h]
  omega

/-! ## 3. Words -/

/-- A newline or a `:` ends every word. -/
def endsWord (c : Char) : Bool :=
  c == '\n' || c == ':'

/-- A blank may stand inside a span. -/
theorem endsWord_of_isBlank {c : Char} (h : isBlank c = true) : endsWord c = false := by
  rw [Bool.eq_false_iff]
  intro hc
  simp only [endsWord, Bool.or_eq_true, beq_iff_eq] at hc
  rcases hc with rfl | rfl <;> cases h

/-- Cuts off a span, where `depth` parentheses are open already. The depth has no bound
here. A counter of 32 bits holds it as long as the source has less than 2³¹ bytes, and up
to there a scanner with such a counter gives what a reader gives (`Scanner.scan_safe` in
`Proofs.Bytes.Safety`). -/
def splitSpan (depth : Nat) : List Char → List Char × List Char
  | [] => ([], [])
  | c :: cs =>
    if endsWord c then ([], c :: cs)
    else if c == '(' then
      let (word, rest) := splitSpan (depth + 1) cs
      (c :: word, rest)
    else if c == ')' then
      if depth ≤ 1 then ([c], cs)
      else
        let (word, rest) := splitSpan (depth - 1) cs
        (c :: word, rest)
    else
      let (word, rest) := splitSpan depth cs
      (c :: word, rest)

/-- A character that a word without parentheses passes over. -/
def inWord (wide : Bool) (c : Char) : Bool :=
  !endsWord c && (wide || !isBlank c)

/-- Cuts off the word at the start, the blanks at its end included. -/
def splitWord (wide : Bool) : List Char → List Char × List Char
  | '(' :: cs => splitSpan 0 ('(' :: cs)
  | cs => (cs.takeWhile (inWord wide), cs.dropWhile (inWord wide))

theorem append_splitSpan (depth : Nat) (cs : List Char) :
    (splitSpan depth cs).1 ++ (splitSpan depth cs).2 = cs := by
  induction cs generalizing depth with
  | nil => rfl
  | cons c cs ih => grind [splitSpan]

theorem append_splitWord (wide : Bool) (cs : List Char) :
    (splitWord wide cs).1 ++ (splitWord wide cs).2 = cs := by
  unfold splitWord
  split
  · exact append_splitSpan 0 _
  · exact List.takeWhile_append_dropWhile

/-- A word that is no span goes on as long as its characters may be inside. -/
theorem splitWord_of_ne_open {c : Char} (h : c ≠ '(') (wide : Bool) (cs : List Char) :
    splitWord wide (c :: cs) =
      ((c :: cs).takeWhile (inWord wide), (c :: cs).dropWhile (inWord wide)) := by
  unfold splitWord
  split
  · next heq => exact absurd (List.cons.inj heq).1 h
  · rfl

/-- No newline and no `:` is part of a word. -/
theorem endsWord_of_mem_splitSpan {depth : Nat} {cs : List Char} {c : Char}
    (h : c ∈ (splitSpan depth cs).1) : endsWord c = false := by
  induction cs generalizing depth with
  | nil => cases h
  | cons d ds ih => grind [splitSpan]

theorem endsWord_of_mem_splitWord {wide : Bool} {cs : List Char} {c : Char}
    (h : c ∈ (splitWord wide cs).1) : endsWord c = false := by
  unfold splitWord at h
  split at h
  · exact endsWord_of_mem_splitSpan h
  · have hc := List.all_eq_true.1 List.all_takeWhile c h
    simp only [inWord, Bool.and_eq_true, Bool.not_eq_true'] at hc
    exact hc.1

/-- A word takes at least the character it starts with. -/
theorem length_splitWord_lt (wide : Bool) {c : Char} (cs : List Char)
    (hw : inWord wide c = true) : (splitWord wide (c :: cs)).2.length < (c :: cs).length := by
  have he : endsWord c = false := by
    cases h : endsWord c <;> simp [inWord, h] at hw ⊢
  unfold splitWord
  split
  · next ds heq =>
    obtain ⟨rfl, rfl⟩ := List.cons.inj heq
    have h := congrArg List.length (append_splitSpan 1 cs)
    simp at h
    simp [splitSpan, he]
    omega
  · have := (List.dropWhile_sublist (inWord wide) (l := cs)).length_le
    simp [hw]
    omega

end Questbook.Extent
