/-
Questbook.Proofs.Source.Lines — lines of text as authors write them.

An author need not write a text the way a quest keeps it. Blanks at either end of a line
are lost, and a line that is a numeral comes back in canonical form; both are what
`Text.tidy` does to the lines of a text. A line is plain if that is all that happens to
it: with blanks kept inside words it is one word.

A newline takes the blanks behind it along, so behind the first line of a block a reader
never stands at the start of a line but at its first word. For what is read this is the
same (`Reader.blockLines_newline`).
-/
import Questbook.Proofs.Layout.Lines
import Questbook.Proofs.Reader.Line
import Questbook.Proofs.Source.Words

namespace Questbook

open Text Extent Reader

namespace Text

/-- A line without the blanks at its ends, a numeral in canonical form. -/
def tidyLine (line : List Char) : List Char :=
  Numeral.respell (trim line)

/-- A text with its lines made tidy. -/
def tidy (text : List Char) : List Char :=
  ['\n'].intercalate ((lines text).map tidyLine)

end Text

/-- A line that is one word in wide reading, but for the blanks before it. -/
structure IsPlainLine (line : List Char) : Prop where
  plain : ∀ c ∈ line, c ≠ '\n' ∧ c ≠ ':'
  not_blank : line.dropWhile isBlank ≠ []
  not_span : (line.dropWhile isBlank).head? ≠ some '('
  not_comment : ¬OpensComment (line.dropWhile isBlank)

instance (line : List Char) : Decidable (IsPlainLine line) :=
  decidable_of_iff (line.all (fun c => c ≠ '\n' ∧ c ≠ ':') ∧ line.dropWhile isBlank ≠ [] ∧
      (line.dropWhile isBlank).head? ≠ some '(' ∧ ¬OpensComment (line.dropWhile isBlank))
    ⟨fun ⟨h₁, h₂, h₃, h₄⟩ => ⟨by simpa using h₁, h₂, h₃, h₄⟩,
      fun ⟨h₁, h₂, h₃, h₄⟩ => ⟨by simpa using h₁, h₂, h₃, h₄⟩⟩

/-- Plain lines with a newline between each two. -/
def IsPlainText (text : List Char) : Prop :=
  ∀ line ∈ lines text, IsPlainLine line

instance (text : List Char) : Decidable (IsPlainText text) :=
  inferInstanceAs (Decidable (∀ line ∈ lines text, IsPlainLine line))

/-! ## 1. One line -/

theorem endsBreaks_of_opensWord {cs : List Char} (h : opensWord cs = true) : EndsBreaks cs := by
  rintro c hc
  cases cs with
  | nil => cases hc
  | cons d cs =>
    cases hc
    simp only [opensWord, Bool.and_eq_true, Bool.not_eq_true', Extent.endsWord,
      Bool.or_eq_false_iff] at h
    simp [isSpacing, h.1.1, h.1.2.1]

namespace IsPlainLine

variable {line : List Char}

/-- A plain line is its leading blanks and one word. -/
theorem exists_word (h : IsPlainLine line) :
    ∃ blanks word, line = blanks ++ word ∧ (∀ c ∈ blanks, isBlank c = true) ∧
      trim line = trimRight word ∧ ∀ behind,
        opensWord (word ++ '\n' :: behind) = true ∧
        splitWord true (word ++ '\n' :: behind) = (word, '\n' :: behind) := by
  have hmem : ∀ c ∈ line.dropWhile isBlank, c ∈ line :=
    fun c hc => (List.dropWhile_sublist isBlank).mem hc
  refine ⟨line.takeWhile isBlank, line.dropWhile isBlank, List.takeWhile_append_dropWhile.symm,
    fun c hc => List.mem_takeWhile_imp hc, rfl, fun behind => ⟨?_, ?_⟩⟩
  · refine opensWord_append h.not_blank (fun c hc => ?_) h.not_comment (by simp)
    have hblank := List.head?_dropWhile_not isBlank line
    rw [hc] at hblank
    have hplain := h.plain c (hmem c (List.mem_of_mem_head? hc))
    exact ⟨hblank, by simp [endsWord, hplain.1, hplain.2]⟩
  · exact splitWord_append (fun c hc => inWord_true_iff.2 (h.plain c (hmem c hc))) h.not_span
      h.not_blank (endsWords_newline true behind)

/-- In front of a newline, the next token is the word of the line. -/
theorem next_wide (h : IsPlainLine line) (behind : List Char) (offset : Nat) :
    ∃ offset', (⟨line ++ '\n' :: behind, offset, true⟩ : Reader).next =
      (⟨.ofWord (trim line), offset'⟩, ⟨'\n' :: behind, offset + size line, true⟩) := by
  obtain ⟨blanks, word, rfl, hblanks, htrim, hword⟩ := h.exists_word
  obtain ⟨hopen, hsplit⟩ := hword behind
  refine ⟨offset + size blanks, ?_⟩
  rw [List.append_assoc, next_blanks hblanks, next_of_opensWord hopen, hsplit, htrim, size_append,
    Nat.add_assoc]

/-- A line of a block is read as the tidy line. -/
theorem blockLines (h : IsPlainLine line) (behind : List Char) (pending offset : Nat) :
    (⟨line ++ '\n' :: behind, offset, true⟩ : Reader).blockLines pending =
      (String.ofList (List.replicate pending '\n' ++ tidyLine line) ++
          ((⟨'\n' :: behind, offset + size line, true⟩ : Reader).blockLines 0).1,
        ((⟨'\n' :: behind, offset + size line, true⟩ : Reader).blockLines 0).2) := by
  obtain ⟨offset', hnext⟩ := h.next_wide behind offset
  rw [blockLines_of_word? (by rw [hnext]; exact word?_ofWord (trim line)), hnext,
    String.ofList_append]
  rfl

/-- The blanks at the start of a line go with the newline before it; the block goes on as
if they did not. -/
theorem blockLines_newline (h : IsPlainLine line) (behind : List Char) (pending offset : Nat) :
    (⟨'\n' :: (line ++ '\n' :: behind), offset, true⟩ : Reader).blockLines pending =
      (⟨line ++ '\n' :: behind, offset + 1, true⟩ : Reader).blockLines (pending + 1) := by
  obtain ⟨blanks, word, rfl, hblanks, -, hword⟩ := h.exists_word
  obtain ⟨hopen, -⟩ := hword behind
  have hspacing : ∀ c ∈ blanks, isSpacing c = true := fun c hc => by simp [isSpacing, hblanks c hc]
  obtain ⟨htake, hdrop⟩ := takeWhile_of_endsBreaks (endsBreaks_of_opensWord hopen)
  have hcount : blanks.count '\n' = 0 :=
    List.count_eq_zero.2 fun hc => absurd (hblanks '\n' hc) (by simp [isBlank_newline])
  -- The newline is one token with the blanks behind it.
  have hbreak : (⟨'\n' :: (blanks ++ word ++ '\n' :: behind), offset, true⟩ : Reader).next =
      (⟨.lineBreaks 1, offset⟩, ⟨word ++ '\n' :: behind, offset + 1 + size blanks, true⟩) := by
    rw [next_newline, List.append_assoc, List.takeWhile_append_of_pos hspacing,
      List.dropWhile_append_of_pos hspacing, htake, hdrop, List.append_nil, hcount, Nat.add_assoc]
  obtain ⟨text, htext⟩ := word?_next_of_opensWord hopen (offset + 1 + size blanks) true
  rw [blockLines_of_lineBreak (by rw [hbreak]) (by omega), hbreak, List.append_assoc]
  exact (blockLines_congr (next_blanks hblanks _ _ _) htext _).symm

end IsPlainLine

/-! ## 2. A block of lines -/

theorem intercalate_newline (line line' : List Char) (others : List (List Char)) :
    ['\n'].intercalate (line :: line' :: others) =
      line ++ '\n' :: ['\n'].intercalate (line' :: others) := by
  simp [List.intercalate]

/-- What stands in front of a newline starts with its first line. -/
theorem exists_intercalate_append (line : List Char) (others : List (List Char)) (cs : List Char) :
    ∃ behind, ['\n'].intercalate (line :: others) ++ '\n' :: cs = line ++ '\n' :: behind := by
  cases others with
  | nil => exact ⟨cs, by simp⟩
  | cons line' others =>
    exact ⟨['\n'].intercalate (line' :: others) ++ '\n' :: cs, by
      rw [intercalate_newline, List.append_assoc, List.cons_append]⟩

/-- A block of plain lines ends at the blank line behind it. -/
theorem blockLines_intercalate {line : List Char} {others : List (List Char)} {cs : List Char}
    (h : ∀ l ∈ line :: others, IsPlainLine l) (hcs : EndsBreaks cs) (pending offset : Nat) :
    (⟨['\n'].intercalate (line :: others) ++ '\n' :: '\n' :: cs, offset, true⟩ :
        Reader).blockLines pending =
      (String.ofList (List.replicate pending '\n' ++
          ['\n'].intercalate ((line :: others).map tidyLine)),
        ⟨cs, offset + size (['\n'].intercalate (line :: others)) + 2, true⟩) := by
  induction others generalizing line pending offset with
  | nil =>
    have hbreaks : (⟨'\n' :: '\n' :: cs, offset + size line, true⟩ : Reader).next =
        (⟨.lineBreaks 2, offset + size line⟩, ⟨cs, offset + size line + 2, true⟩) :=
      readsAs_lineBreaks true 1 hcs _
    rw [List.intercalate_singleton, (h line List.mem_cons_self).blockLines,
      blockLines_of_isBlankLine (by rw [hbreaks]; rfl), hbreaks]
    simp
  | cons line' others ih =>
    -- The next line is read from its start, as if its blanks were still in front.
    obtain ⟨behind, hbehind⟩ := exists_intercalate_append line' others ('\n' :: cs)
    have hline' : IsPlainLine line' := h line' (by simp)
    rw [intercalate_newline, List.append_assoc, List.cons_append,
      (h line List.mem_cons_self).blockLines, hbehind, hline'.blockLines_newline, ← hbehind,
      ih fun l hl => h l (List.mem_cons_of_mem _ hl)]
    simp [← String.toList_inj, Nat.add_assoc]

/-- The lines of a text make the text. -/
theorem exists_lines (text : List Char) :
    ∃ line others, lines text = line :: others ∧ ['\n'].intercalate (line :: others) = text := by
  have htext : ['\n'].intercalate (lines text) = text := List.intercalate_splitOn ..
  cases hlines : lines text with
  | nil => exact absurd hlines (List.splitOn_ne_nil _ _)
  | cons line others => exact ⟨line, others, rfl, hlines ▸ htext⟩

/-- A block of text is read as the tidy text. -/
theorem blockLines_plain {text cs : List Char} (h : IsPlainText text) (hcs : EndsBreaks cs)
    (pending offset : Nat) :
    (⟨text ++ '\n' :: '\n' :: cs, offset, true⟩ : Reader).blockLines pending =
      (String.ofList (List.replicate pending '\n' ++ tidy text),
        ⟨cs, offset + size text + 2, true⟩) := by
  obtain ⟨line, others, hlines, rfl⟩ := exists_lines text
  rw [IsPlainText, hlines] at h
  rw [blockLines_intercalate h hcs, tidy, hlines]

/-- Behind its leading blanks, a plain text opens with a word. -/
theorem IsPlainText.exists_word {text : List Char} (h : IsPlainText text) (cs : List Char) :
    ∃ blanks word, text ++ '\n' :: cs = blanks ++ word ∧ (∀ c ∈ blanks, isBlank c = true) ∧
      opensWord word = true := by
  obtain ⟨line, others, hlines, rfl⟩ := exists_lines text
  rw [IsPlainText, hlines] at h
  obtain ⟨behind, hbehind⟩ := exists_intercalate_append line others cs
  obtain ⟨blanks, word, rfl, hblanks, -, hword⟩ := (h line List.mem_cons_self).exists_word
  exact ⟨blanks, word ++ '\n' :: behind, by rw [hbehind, List.append_assoc], hblanks,
    (hword behind).1⟩

/-! ## 3. Texts that are tidy already -/

namespace IsTextLine

variable {line : List Char}

theorem dropWhile_isBlank (h : IsTextLine line) : line.dropWhile isBlank = line := by
  cases line with
  | nil => rfl
  | cons c line => exact List.dropWhile_cons_of_neg (by simp [h.head c rfl])

theorem isPlainLine (h : IsTextLine line) : IsPlainLine line := by
  refine ⟨h.plain, ?_, ?_, ?_⟩ <;> rw [h.dropWhile_isBlank]
  · exact h.ne_nil
  · exact h.not_span
  · exact h.not_comment

theorem tidyLine_eq (h : IsTextLine line) : tidyLine line = line := by
  rw [tidyLine, trim, h.dropWhile_isBlank, trimRight_eq_self h.last, Numeral.respell]
  split
  · next n hn => exact (h.canonical n hn).symm
  · rfl

end IsTextLine

namespace IsText

variable {text : List Char}

theorem mem_lines (h : IsText text) : ∀ line ∈ lines text, IsTextLine line := by
  have hsplit : ∃ ls : List (List Char), ls ≠ [] ∧ (∀ l ∈ ls, IsTextLine l) ∧
      ['\n'].intercalate ls = text := by
    induction h with
    | @line line h => exact ⟨[line], by simp, by simpa using h, List.intercalate_singleton⟩
    | @more line text h others ih =>
      obtain ⟨ls, hne, hls, rfl⟩ := ih
      obtain ⟨line', ls, rfl⟩ := List.exists_cons_of_ne_nil hne
      exact ⟨line :: line' :: ls, by simp, List.forall_mem_cons.2 ⟨h, hls⟩,
        intercalate_newline line line' ls⟩
  obtain ⟨ls, hne, hls, rfl⟩ := hsplit
  have hlines : lines (['\n'].intercalate ls) = ls :=
    List.splitOn_intercalate '\n' (fun l hl hc => ((hls l hl).plain '\n' hc).1 rfl) hne
  rwa [hlines]

theorem isPlainText (h : IsText text) : IsPlainText text :=
  fun line hline => (h.mem_lines line hline).isPlainLine

/-- A text for the player comes back as it is. -/
theorem tidy_eq (h : IsText text) : tidy text = text := by
  have hlines : (lines text).map tidyLine = lines text :=
    (List.map_congr_left fun line hline => (h.mem_lines line hline).tidyLine_eq).trans
      (List.map_id' _)
  rw [tidy, hlines, lines, List.intercalate_splitOn]

end IsText

end Questbook
