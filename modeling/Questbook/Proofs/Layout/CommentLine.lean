/-
Questbook.Proofs.Layout.CommentLine — a line that is a comment can be put in or
left out.

A comment takes its newline along, so a comment on a line of its own is passed
over as if the line were not there: the source makes the same quest, or fails
with the same fault at the same token (`Quest.parse_comment_line`). Only what
stands behind the line is further on by its length.

Two readers go through the source without the line and the source with it, side
by side (`Across`). Before the line they have the same text in front of them. No
token reaches over its place but a run of line breaks, which goes on there with
blanks, if at all, because the next line is not empty; then the one reader is
behind these blanks and the other before the comment (`between`). A token later
both are behind the line.
-/
import Mathlib
import Questbook.Proofs.Grammar.Automaton
import Questbook.Proofs.Grammar.Passed
import Questbook.Proofs.Reader.Seam
import Questbook.Proofs.Reader.Simulation

namespace Questbook

open Text Extent Reader

/-- A line that is a comment. -/
def commentLine (comment : List Char) : List Char :=
  '$' :: '-' :: (comment ++ ['\n'])

/-- Where a token is when `size` bytes are put in at `mark`. -/
def MovedAt (mark size : Nat) (offset offset' : Nat) : Prop :=
  offset' = if offset < mark then offset else offset + size

/-- Readers of a source without and with a comment line, which is put in at the
offset `mark` before `back`. -/
inductive Across (comment back : List Char) (mark : Nat) : Reader → Reader → Prop where
  | before {front : List Char} {offset : Nat} {wide : Bool}
      (hplace : offset + size (front ++ ['\n']) = mark) :
      Across comment back mark ⟨front ++ '\n' :: back, offset, wide⟩
        ⟨front ++ '\n' :: (commentLine comment ++ back), offset, wide⟩
  | between {blanks rest : List Char} {wide : Bool} (hblanks : ∀ c ∈ blanks, isBlank c = true)
      (hback : back = blanks ++ rest) :
      Across comment back mark ⟨rest, mark + size blanks, wide⟩
        ⟨commentLine comment ++ back, mark, wide⟩
  | behind {r : Reader} (hplace : mark ≤ r.offset) :
      Across comment back mark r (r.shift (size (commentLine comment)))

/-! ## 1. Pieces before a newline -/

/-- A gap ends before a newline, or it goes on behind it. -/
theorem splitGap_line (comment : Bool) (front : List Char) :
    (∀ cs, splitGap comment (front ++ '\n' :: cs) =
        ((splitGap comment front).1, (splitGap comment front).2 ++ '\n' :: cs)) ∨
      ∀ cs, splitGap comment (front ++ '\n' :: cs) =
        (front ++ '\n' :: (splitGap false cs).1, (splitGap false cs).2) := by
  induction front generalizing comment with
  | nil =>
    cases comment with
    | true => exact .inr fun cs => rfl
    | false => exact .inl fun cs => by simp [splitGap, isBlank]
  | cons c front ih =>
    have hdash (cs : List Char) : ((front ++ '\n' :: cs).head? == some '-') =
        (front.head? == some '-') := by cases front <;> rfl
    have hstep (comment : Bool) :
        (∀ cs, (c :: (splitGap comment (front ++ '\n' :: cs)).1,
            (splitGap comment (front ++ '\n' :: cs)).2) =
          (c :: (splitGap comment front).1, (splitGap comment front).2 ++ '\n' :: cs)) ∨
        ∀ cs, (c :: (splitGap comment (front ++ '\n' :: cs)).1,
            (splitGap comment (front ++ '\n' :: cs)).2) =
          (c :: front ++ '\n' :: (splitGap false cs).1, (splitGap false cs).2) :=
      (ih comment).imp (fun h cs => by rw [h cs]) fun h cs => by rw [h cs]; rfl
    simp only [List.cons_append, splitGap, hdash]
    split
    · exact hstep _
    · split
      · exact hstep _
      · split
        · exact hstep _
        · exact .inl fun cs => rfl

/-- A run of line breaks ends before the last newline of a text, or it goes on
behind it. -/
theorem splitBreaks_line (front : List Char) :
    (∀ cs, splitBreaks (front ++ '\n' :: cs) =
        ((splitBreaks front).1, (splitBreaks front).2 ++ '\n' :: cs)) ∨
      ∀ cs, splitBreaks (front ++ '\n' :: cs) =
        (front ++ '\n' :: (splitBreaks cs).1, (splitBreaks cs).2) := by
  induction front with
  | nil => exact .inr fun cs => by simp [splitBreaks, isSpacing]
  | cons c front ih =>
    cases hc : isSpacing c with
    | true =>
      have hcut (cs : List Char) : splitBreaks (c :: cs) =
          (c :: (splitBreaks cs).1, (splitBreaks cs).2) := by simp [splitBreaks, hc]
      refine ih.imp (fun h cs => ?_) fun h cs => ?_
      · rw [List.cons_append, hcut, hcut, h]
      · rw [List.cons_append, hcut, h]
        rfl
    | false => exact .inl fun cs => by simp [splitBreaks, hc]

/-- Line breaks before a line that is not empty end with the blanks it starts
with. -/
theorem splitBreaks_of_head?_ne {back : List Char}
    (h : (back.dropWhile isBlank).head? ≠ some '\n') :
    splitBreaks back = (back.takeWhile isBlank, back.dropWhile isBlank) := by
  induction back with
  | nil => rfl
  | cons c back ih =>
    cases hc : isBlank c with
    | true =>
      rw [List.dropWhile_cons_of_pos hc] at h
      have hcut : splitBreaks (c :: back) = (c :: (splitBreaks back).1, (splitBreaks back).2) := by
        simp [splitBreaks, isSpacing, hc]
      rw [hcut, ih h, List.takeWhile_cons_of_pos hc, List.dropWhile_cons_of_pos hc]
    | false =>
      have hne : c ≠ '\n' := by
        rintro rfl
        simp [hc] at h
      simp [splitBreaks, isSpacing, hc, hne]

/-! ## 2. One token -/

theorem toToken_commentLine {comment : List Char} (hcomment : ∀ c ∈ comment, c ≠ '\n')
    (back : List Char) (offset : Nat) (wide : Bool) :
    (⟨commentLine comment ++ back, offset, wide⟩ : Reader).toToken =
      (⟨back, offset + size (commentLine comment), wide⟩ : Reader).toToken := by
  have hassoc : commentLine comment ++ back = '$' :: '-' :: (comment ++ '\n' :: back) := by
    simp [commentLine]
  rw [hassoc, toToken_comment hcomment]
  rfl

namespace Across

variable {comment back : List Char} {mark : Nat} {r s : Reader}

theorem wide_eq (h : Across comment back mark r s) : r.wide = s.wide := by
  cases h <;> rfl

/-- The mode makes no difference to where the readers are. -/
theorem widen (h : Across comment back mark r s) (wide : Bool) :
    Across comment back mark { r with wide } { s with wide } := by
  cases h with
  | before hplace => exact .before hplace
  | between hblanks hback => exact .between hblanks hback
  | behind hplace => exact .behind hplace

/-- Behind a piece that ends before the line. -/
theorem pass {front piece others : List Char} {offset : Nat}
    (hplace : offset + size (front ++ ['\n']) = mark) (hpiece : piece ++ others = front)
    (wide : Bool) :
    Across comment back mark
      ((⟨front ++ '\n' :: back, offset, wide⟩ : Reader).pass (piece, others ++ '\n' :: back))
      ((⟨front ++ '\n' :: (commentLine comment ++ back), offset, wide⟩ : Reader).pass
        (piece, others ++ '\n' :: (commentLine comment ++ back))) := by
  refine .before ?_
  rw [Nat.add_assoc, ← size_append, ← List.append_assoc, hpiece, hplace]

/-- A run of line breaks ends before the line, or at it. In the source without it,
the run ends behind the blanks that the next line starts with. -/
theorem splitBreaks (comment : List Char) (hback : (back.dropWhile isBlank).head? ≠ some '\n')
    {front : List Char} {offset : Nat} (hplace : offset + size (front ++ ['\n']) = mark)
    (wide : Bool) :
    (splitBreaks (front ++ '\n' :: back)).1.count '\n' =
        (Extent.splitBreaks (front ++ '\n' :: (commentLine comment ++ back))).1.count '\n' ∧
      Across comment back mark
        ((⟨front ++ '\n' :: back, offset, wide⟩ : Reader).pass
          (Extent.splitBreaks (front ++ '\n' :: back)))
        ((⟨front ++ '\n' :: (commentLine comment ++ back), offset, wide⟩ : Reader).pass
          (Extent.splitBreaks (front ++ '\n' :: (commentLine comment ++ back)))) := by
  rcases splitBreaks_line front with hcut | hcut
  · rw [hcut, hcut]
    exact ⟨rfl, pass hplace (append_splitBreaks front) wide⟩
  · have hline : Extent.splitBreaks (commentLine comment ++ back) =
        ([], commentLine comment ++ back) := rfl
    have hblanks : ∀ c ∈ back.takeWhile isBlank, isBlank c = true :=
      fun c hc => List.all_eq_true.1 List.all_takeWhile c hc
    have hcount : (back.takeWhile isBlank).count '\n' = 0 :=
      List.count_eq_zero.2 fun hmem => ne_newline_of_isBlank (hblanks _ hmem) rfl
    rw [hcut, hcut, splitBreaks_of_head?_ne hback, hline]
    refine ⟨by simp [hcount], ?_⟩
    have hbetween : Across comment back mark ⟨_, _, wide⟩ ⟨_, mark, wide⟩ :=
      .between hblanks List.takeWhile_append_dropWhile.symm
    simpa [Reader.pass, ← hplace, Nat.add_assoc] using hbetween

/-- Before the line the same token is cut off. -/
theorem cutToken (comment : List Char) (hback : (back.dropWhile isBlank).head? ≠ some '\n')
    {front : List Char} {offset : Nat} (hplace : offset + size (front ++ ['\n']) = mark)
    (wide : Bool) :
    (cutToken wide (front ++ '\n' :: back)).1 =
        (Reader.cutToken wide (front ++ '\n' :: (commentLine comment ++ back))).1 ∧
      Across comment back mark
        ((⟨front ++ '\n' :: back, offset, wide⟩ : Reader).pass
          (Reader.cutToken wide (front ++ '\n' :: back)).2)
        ((⟨front ++ '\n' :: (commentLine comment ++ back), offset, wide⟩ : Reader).pass
          (Reader.cutToken wide (front ++ '\n' :: (commentLine comment ++ back))).2) := by
  have hbreaks (cs : List Char) : Reader.cutToken wide ('\n' :: cs) =
      (.lineBreaks ((Extent.splitBreaks ('\n' :: cs)).1.count '\n'),
        Extent.splitBreaks ('\n' :: cs)) := rfl
  cases front with
  | nil =>
    obtain ⟨hcount, hpass⟩ := splitBreaks comment hback hplace wide
    rw [List.nil_append, List.nil_append, hbreaks, hbreaks]
    exact ⟨congrArg Lexeme.lineBreaks hcount, hpass⟩
  | cons c front =>
    by_cases hnewline : c = '\n'
    · subst hnewline
      obtain ⟨hcount, hpass⟩ := splitBreaks comment hback hplace wide
      rw [List.cons_append, List.cons_append, hbreaks, hbreaks]
      exact ⟨congrArg Lexeme.lineBreaks hcount, hpass⟩
    · by_cases hscope : c = ':'
      · subst hscope
        have hmark : [':'] ++ front = ':' :: front := rfl
        exact ⟨rfl, pass hplace hmark wide⟩
      · rw [List.cons_append, List.cons_append, cutToken_of_ne hscope hnewline,
          cutToken_of_ne hscope hnewline, splitWord_newline, splitWord_newline]
        exact ⟨rfl, pass hplace (append_splitWord wide (c :: front)) wide⟩

section Line

variable (hcomment : ∀ c ∈ comment, c ≠ '\n')

include hcomment

/-- The next token stands behind the line, or it starts before it. -/
theorem cases_next (h : Across comment back mark r s) :
    (∃ u : Reader, mark ≤ u.offset ∧ r.next = u.next ∧
        s.next = (u.shift (size (commentLine comment))).next) ∨
      ∃ front offset, offset + size (front ++ ['\n']) = mark ∧
        r.toToken = ⟨front ++ '\n' :: back, offset, r.wide⟩ ∧
        s.toToken = ⟨front ++ '\n' :: (commentLine comment ++ back), offset, r.wide⟩ := by
  -- At the place of the line, what is left of the gap is passed over on both sides.
  have hthrough {r s : Reader} (wide : Bool)
      (hr : r.toToken = (⟨back, mark, wide⟩ : Reader).toToken)
      (hs : s.toToken = (⟨commentLine comment ++ back, mark, wide⟩ : Reader).toToken) :
      ∃ u : Reader, mark ≤ u.offset ∧ r.next = u.next ∧
        s.next = (u.shift (size (commentLine comment))).next := by
    refine ⟨⟨back, mark, wide⟩, Nat.le_refl _, ?_, ?_⟩
    · rw [← next_toToken, hr, next_toToken]
    · rw [← next_toToken, hs, toToken_commentLine hcomment, next_toToken]
      rfl
  cases h with
  | @before front offset wide hplace =>
    rcases splitGap_line false front with hgap | hgap
    · refine .inr ⟨(splitGap false front).2, offset + size (splitGap false front).1, ?_, ?_, ?_⟩
      · rw [Nat.add_assoc, ← size_append, ← List.append_assoc, append_splitGap, hplace]
      · simp [toToken, Reader.pass, hgap]
      · simp [toToken, Reader.pass, hgap]
    · have hcut (cs : List Char) : (⟨front ++ '\n' :: cs, offset, wide⟩ : Reader).toToken =
          (⟨cs, mark, wide⟩ : Reader).toToken := by
        rw [← hplace]
        simp [toToken, Reader.pass, hgap, Nat.add_assoc]
      exact .inl (hthrough wide (hcut back) (hcut _))
  | @between blanks rest wide hblanks hback =>
    refine .inl (hthrough wide ?_ rfl)
    have hgap : IsGap false (blanks ++ []) := IsGap.nil.blanks hblanks
    rw [List.append_nil] at hgap
    rw [hback, toToken_gap hgap]
  | behind hplace => exact .inl ⟨r, hplace, rfl, rfl⟩

variable (hback : (back.dropWhile isBlank).head? ≠ some '\n')

include hback

/-- One token is found by both readers, at offsets that the line accounts for. -/
theorem next (h : Across comment back mark r s) :
    r.next.1.lexeme = s.next.1.lexeme ∧
      MovedAt mark (size (commentLine comment)) r.next.1.offset s.next.1.offset ∧
      Across comment back mark r.next.2 s.next.2 := by
  obtain ⟨u, hplace, hr, hs⟩ | ⟨front, offset, hplace, hr, hs⟩ := h.cases_next hcomment
  · rw [hr, hs, next_shift]
    have hle : u.offset ≤ u.next.1.offset := Nat.le_add_right _ _
    have hle' := u.offset_next_le
    refine ⟨rfl, ?_, .behind (by omega)⟩
    rw [MovedAt, if_neg (by omega)]
    rfl
  · obtain ⟨hlexeme, hpass⟩ := cutToken comment hback hplace r.wide
    have hr' : r.next = (⟨(Reader.cutToken r.wide (front ++ '\n' :: back)).1, offset⟩,
        (⟨front ++ '\n' :: back, offset, r.wide⟩ : Reader).pass
          (Reader.cutToken r.wide (front ++ '\n' :: back)).2) := by
      rw [Reader.next, hr]
    have hs' : s.next =
        (⟨(Reader.cutToken r.wide (front ++ '\n' :: (commentLine comment ++ back))).1, offset⟩,
          (⟨front ++ '\n' :: (commentLine comment ++ back), offset, r.wide⟩ : Reader).pass
            (Reader.cutToken r.wide (front ++ '\n' :: (commentLine comment ++ back))).2) := by
      rw [Reader.next, hs]
    rw [hr', hs']
    refine ⟨hlexeme, ?_, hpass⟩
    have hpos := size_pos (show front ++ ['\n'] ≠ [] by simp)
    have hlt : offset < mark := by omega
    exact (if_pos hlt).symm

/-- **Reading side by side.** Both readers find the same tokens. -/
theorem simulation :
    Simulation (Across comment back mark) (MovedAt mark (size (commentLine comment))) :=
  ⟨fun h => (h.next hcomment hback).1, fun h _ => (h.next hcomment hback).2.1,
    fun h => (h.next hcomment hback).2.2, wide_eq, fun wide h => h.widen wide⟩

end Line

end Across

/-! ## 3. The whole source -/

/-- **A comment on a line of its own makes no difference.** Put in at the start of
a line that is not empty, it leaves the quest as it is, and an error too, whose
offset grows by the size of the line if it stands behind it. -/
theorem Quest.parse_comment_line {front comment back : List Char}
    (hfront : ∀ c ∈ front.getLast?, c = '\n') (hcomment : ∀ c ∈ comment, c ≠ '\n')
    (hback : (back.dropWhile isBlank).head? ≠ some '\n') :
    Alike (MovedAt (size front) (size (commentLine comment))) (· = ·)
      (Quest.parse (.ofList (front ++ back)))
      (Quest.parse (.ofList (front ++ (commentLine comment ++ back)))) := by
  refine Quest.parse_alike (Across.simulation hcomment hback) ?_
  rw [ofSource, ofSource, String.toList_ofList, String.toList_ofList]
  rcases List.eq_nil_or_concat front with rfl | ⟨others, c, rfl⟩
  · exact .between (List.forall_mem_nil _) rfl
  · cases hfront c (by simp)
    have hbefore : Across comment back _ ⟨_, 0, false⟩ ⟨_, 0, false⟩ :=
      .before (Nat.zero_add (size (others ++ ['\n'])))
    simpa using hbefore

/-- Before the line of a title, which is indented. An error comes behind it. -/
theorem parse_comment_line_title :
    (∀ c ∈ "title :\n".toList.getLast?, c = '\n') ∧ (∀ c ∈ " x".toList, c ≠ '\n') ∧
      (" a\n1".toList.dropWhile isBlank).head? ≠ some '\n' ∧
      Alike (MovedAt 8 5) (· = ·) (Quest.parse "title :\n a\n1")
        (Quest.parse "title :\n$- x\n a\n1") ∧
      Quest.parse "title :\n a\n1" =
        .error ⟨.unexpectedToken "an identifier" "integer 1", 11⟩ ∧
      Quest.parse "title :\n$- x\n a\n1" =
        .error ⟨.unexpectedToken "an identifier" "integer 1", 16⟩ := by
  have hfront : ∀ c ∈ "title :\n".toList.getLast?, c = '\n' := by simp
  have hcomment : ∀ c ∈ " x".toList, c ≠ '\n' := by simp
  have hback : (" a\n1".toList.dropWhile isBlank).head? ≠ some '\n' := by decide
  have halike := Quest.parse_comment_line hfront hcomment hback
  have hsource : String.ofList ("title :\n".toList ++ " a\n1".toList) = "title :\n a\n1" := by
    decide
  have hsource' : String.ofList ("title :\n".toList ++
      (commentLine " x".toList ++ " a\n1".toList)) = "title :\n$- x\n a\n1" := by decide
  have hsize : size "title :\n".toList = 8 := by decide
  have hline : size (commentLine " x".toList) = 5 := by decide
  rw [hsource, hsource', hsize, hline] at halike
  exact ⟨hfront, hcomment, hback, halike, Quest.parse_of_runFor (n := 12) (by cbv),
    Quest.parse_of_runFor (n := 12) (by cbv)⟩

end Questbook
