/-
Questbook.Proofs.Grammar.Passed — what the machine passes over.

Gaps are passed over at every stage: the machine comes to the same end from
before a gap as from behind it (`Stage.run_gap`). Line breaks are passed over at
the stages that wait for something (`Stage.run_newline`). Behind a word of a
command a line break ends the command, so it can be left out there only if what
follows ends the command too (`Stage.run_arguments_newline`).

A comment takes the newline at its end along. So to know what a comment does to
a source is to know what the loss of one newline does, and these are the answers.
-/
import Questbook.Proofs.Grammar.Stage
import Questbook.Proofs.Reader.Coverage

namespace Questbook

open Text Extent

/-- The tokens that end a block of text. -/
def Lexeme.EndsText (lexeme : Lexeme) : Prop :=
  lexeme = .endOfFile ∨ lexeme.isBlankLine = true

theorem Lexeme.EndsText.word?_eq_none {lexeme : Lexeme} (h : lexeme.EndsText) :
    lexeme.word? = none := by
  obtain rfl | h := h
  · rfl
  · cases lexeme <;> first | rfl | cases h

namespace Stage

/-! ## 1. Gaps -/

/-- The gap before a token makes no difference to how it is read. -/
theorem read_congr {r s : Reader} (h : r.toToken = s.toToken) (stage : Stage) :
    stage.read r = stage.read s := by
  have hwide : r.wide = s.wide := by
    have hstart : r.toToken.wide = s.toToken.wide := by rw [h]
    exact hstart
  have htuned : (stage.tune r).toToken = (stage.tune s).toToken := by
    have hstart := congrArg (fun u : Reader => { u with wide := stage.wide || r.wide }) h
    rw [tune, tune, ← hwide]
    exact hstart
  rw [read_eq, read_eq, hwide, ← Reader.next_toToken, htuned, Reader.next_toToken]

theorem run_congr {r s : Reader} (h : r.toToken = s.toToken) (stage : Stage) (q : Quest) :
    stage.run q r = stage.run q s := by
  rw [run_eq, run_eq, read_congr h]

theorem run_gap {gap : List Char} (hgap : IsGap false gap) (stage : Stage) (q : Quest)
    (cs : List Char) (offset : Nat) (wide : Bool) :
    stage.run q ⟨gap ++ cs, offset, wide⟩ = stage.run q ⟨cs, offset + size gap, wide⟩ :=
  run_congr (Reader.toToken_gap hgap cs offset wide) stage q

/-- A comment is passed over with the newline at its end. -/
theorem run_comment {text : List Char} (htext : ∀ c ∈ text, c ≠ '\n') (stage : Stage) (q : Quest)
    (cs : List Char) (offset : Nat) (wide : Bool) :
    stage.run q ⟨'$' :: '-' :: (text ++ '\n' :: cs), offset, wide⟩ =
      stage.run q ⟨cs, offset + size ('$' :: '-' :: (text ++ ['\n'])), wide⟩ :=
  run_congr (Reader.toToken_comment htext cs offset wide) stage q

theorem run_openComment {text : List Char} (htext : ∀ c ∈ text, c ≠ '\n') (stage : Stage)
    (q : Quest) (offset : Nat) (wide : Bool) :
    stage.run q ⟨'$' :: '-' :: text, offset, wide⟩ =
      stage.run q ⟨[], offset + size ('$' :: '-' :: text), wide⟩ :=
  run_congr (Reader.toToken_openComment htext offset wide) stage q

/-! ## 2. Line breaks -/

/-- A newline leads on, whatever stands behind it. -/
theorem run_lineBreaks {stage stage' : Stage} {q q' : Quest} {cs : List Char} {offset : Nat}
    {wide : Bool}
    (h : stage.feed q ⟨.lineBreaks ((cs.takeWhile isSpacing).count '\n' + 1), offset⟩ =
      .on q' stage') :
    stage.run q ⟨'\n' :: cs, offset, wide⟩ =
      stage'.run q' ⟨cs.dropWhile isSpacing, offset + (1 + size (cs.takeWhile isSpacing)), wide⟩ := by
  have hnext := Reader.next_newline cs offset wide
  rw [run_eq, read_of_word?_eq_none (by rw [hnext]; rfl), hnext, h]
  rfl

variable {stage : Stage} (h : stage.passesBreaks = true)

include h

theorem run_dropWhile (q : Quest) (cs : List Char) (offset : Nat) (wide : Bool) :
    stage.run q ⟨cs.dropWhile isSpacing, offset + size (cs.takeWhile isSpacing), wide⟩ =
      stage.run q ⟨cs, offset, wide⟩ := by
  induction cs generalizing offset with
  | nil => rfl
  | cons c cs ih =>
    cases hblank : isBlank c with
    | true =>
      have hspacing : isSpacing c = true := by simp [isSpacing, hblank]
      rw [run_congr (Reader.toToken_blank hblank cs offset wide), ← ih]
      simp [hspacing, Nat.add_assoc]
    | false =>
      by_cases hnewline : c = '\n'
      · subst hnewline
        rw [run_lineBreaks (feed_lineBreaks h q rfl)]
        simp [isSpacing]
      · have hspacing : isSpacing c = false := by simp [isSpacing, hblank, hnewline]
        simp [hspacing]

/-- Newlines and blanks are passed over. -/
theorem run_spacing {breaks : List Char} (hbreaks : ∀ c ∈ breaks, isSpacing c = true) (q : Quest)
    (cs : List Char) (offset : Nat) (wide : Bool) :
    stage.run q ⟨breaks ++ cs, offset, wide⟩ =
      stage.run q ⟨cs, offset + size breaks, wide⟩ := by
  rw [← run_dropWhile h, ← run_dropWhile h q cs, List.takeWhile_append_of_pos hbreaks,
    List.dropWhile_append_of_pos hbreaks, size_append, Nat.add_assoc]

theorem run_newline (q : Quest) (cs : List Char) (offset : Nat) (wide : Bool) :
    stage.run q ⟨'\n' :: cs, offset, wide⟩ = stage.run q ⟨cs, offset + 1, wide⟩ :=
  @run_spacing _ h ['\n'] (by simp [isSpacing]) q cs offset wide

omit h

/-- A token that is no word ends a command. -/
theorem run_arguments_of_word?_eq_none {r : Reader} (h : r.next.1.lexeme.word? = none) (q : Quest)
    (blocks : List Task) (block : Task) (last : Command) :
    (arguments blocks block last).run q r =
      (command blocks { block with commands := block.commands ++ [last] }).run q r := by
  rw [run_of_narrow rfl, run_of_narrow rfl, feed, feed, feedArguments, h]

/-- A newline that ends a command may be left out if no word follows. -/
theorem run_arguments_newline {cs : List Char} {offset : Nat} {wide : Bool}
    (h : (⟨cs, offset + 1, wide⟩ : Reader).next.1.lexeme.word? = none) (q : Quest)
    (blocks : List Task) (block : Task) (last : Command) :
    (arguments blocks block last).run q ⟨'\n' :: cs, offset, wide⟩ =
      (arguments blocks block last).run q ⟨cs, offset + 1, wide⟩ := by
  have hnewline : (⟨'\n' :: cs, offset, wide⟩ : Reader).next.1.lexeme.word? = none := by
    rw [Reader.next_newline]
    rfl
  rw [run_arguments_of_word?_eq_none hnewline, run_arguments_of_word?_eq_none h, run_newline rfl]

/-- A token that is no word ends the line of a title. -/
theorem run_titleLine_of_word?_eq_none {r : Reader} (h : r.next.1.lexeme.word? = none) (q : Quest)
    (written : String) :
    (titleLine written).run q r = directive.run ((Directive.title written).applyTo q) r := by
  rw [run_eq, read_of_word?_eq_none h, run_of_narrow rfl, feed, feed, feedTitleLine, h]

/-- A newline that ends a title may be left out if no word follows. -/
theorem run_titleLine_newline {cs : List Char} {offset : Nat} {wide : Bool}
    (h : (⟨cs, offset + 1, wide⟩ : Reader).next.1.lexeme.word? = none) (q : Quest)
    (written : String) :
    (titleLine written).run q ⟨'\n' :: cs, offset, wide⟩ =
      (titleLine written).run q ⟨cs, offset + 1, wide⟩ := by
  have hnewline : (⟨'\n' :: cs, offset, wide⟩ : Reader).next.1.lexeme.word? = none := by
    rw [Reader.next_newline]
    rfl
  rw [run_titleLine_of_word?_eq_none hnewline, run_titleLine_of_word?_eq_none h, run_newline rfl]

theorem passesBreaks_behindText (q : Quest) (written : String) (use : TextUse) :
    (behindText q written use).2.passesBreaks = true := by
  cases use <;> rfl

theorem run_textLine_of_endsText {r : Reader} (h : r.next.1.lexeme.EndsText) (q : Quest)
    (use : TextUse) (written : String) (pending : Nat) :
    (textLine use written pending).run q r =
      (behindText q written use).2.run (behindText q written use).1 r := by
  rw [run_eq, read_of_word?_eq_none h.word?_eq_none, feed, feedTextLine, h.word?_eq_none]
  simp only [if_pos (show _ ∨ _ from h)]
  exact (run_behindText q written use r).symm

/-- A newline in a block of text may be left out if the block ends behind it. -/
theorem run_textLine_newline {cs : List Char} {offset : Nat} {wide : Bool}
    (h : (⟨cs, offset + 1, wide⟩ : Reader).next.1.lexeme.EndsText) (q : Quest) (use : TextUse)
    (written : String) (pending : Nat) :
    (textLine use written pending).run q ⟨'\n' :: cs, offset, wide⟩ =
      (textLine use written pending).run q ⟨cs, offset + 1, wide⟩ := by
  have hpass := passesBreaks_behindText q written use
  rw [run_textLine_of_endsText h]
  by_cases hcount : (cs.takeWhile isSpacing).count '\n' = 0
  · -- The newline stands alone and is counted; what ends the block comes behind blanks.
    have hblanks : ∀ c ∈ cs.takeWhile isSpacing, isBlank c = true := by
      intro c hc
      have hspacing : isSpacing c = true := List.all_eq_true.1 List.all_takeWhile c hc
      have hne : c ≠ '\n' := by
        rintro rfl
        exact absurd hc (List.count_eq_zero.1 hcount)
      simpa [isSpacing, hne] using hspacing
    have hgap : IsGap false (cs.takeWhile isSpacing) := by
      rw [← List.append_nil (List.takeWhile _ _)]
      exact IsGap.nil.blanks hblanks
    have hbehind : (⟨cs.dropWhile isSpacing, offset + 1 + size (cs.takeWhile isSpacing), wide⟩ :
        Reader).next = (⟨cs, offset + 1, wide⟩ : Reader).next := by
      rw [← Reader.next_gap hgap, List.takeWhile_append_dropWhile]
    have hfeed := @feed_textLine_of_lt
      ⟨.lineBreaks ((cs.takeWhile isSpacing).count '\n' + 1), offset⟩ _ rfl (by omega) q use written
      pending
    rw [← hbehind] at h
    rw [run_lineBreaks hfeed, ← Nat.add_assoc, run_textLine_of_endsText h, run_dropWhile hpass]
  · have hblank : (⟨'\n' :: cs, offset, wide⟩ : Reader).next.1.lexeme.EndsText := by
      rw [Reader.next_newline]
      exact .inr (decide_eq_true (by omega))
    rw [run_textLine_of_endsText hblank, run_newline hpass]

end Stage

end Questbook
