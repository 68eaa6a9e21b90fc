/-
Questbook.Proofs.Layout.Cut — a blank more at the edge of a line.

Two texts are compared here that differ by one blank, which stands at the start
or at the end of a line (`AtEdge`). The scanner cuts pieces off the front of a
text: gaps, line breaks, words. Such a cut falls in the same place of both texts
(`Cut`): either before the blank, and then the piece is the same, or behind it,
and then the piece has the blank in it and the rest is the same. In no case
does the blank move the cut.

Each sort of piece has its own reason. A gap and a run of line breaks take any
blank. A word ends where the line ends, and the blanks at its end are no part of
it. At the start of a line there is no word that the blank could be part of.
-/
import Questbook.Reader

namespace Questbook

open Text Extent

/-- Between these texts a line starts or ends. -/
def AtEdge (front back : List Char) : Prop :=
  (∀ c ∈ front.getLast?, c = '\n') ∨ ∀ c ∈ back.head?, c = '\n'

/-- Cuts of `front ++ back` and of `front ++ blank :: back` in the same place. -/
inductive Cut (blank : Char) (front back : List Char) :
    List Char × List Char → List Char × List Char → Prop where
  | before (piece others : List Char) (h : front = piece ++ others) :
      Cut blank front back (piece, others ++ back) (piece, others ++ blank :: back)
  | behind (piece rest : List Char) (h : back = piece ++ rest) :
      Cut blank front back (front ++ piece, rest) (front ++ blank :: piece, rest)

theorem AtEdge.of_append {piece others back : List Char} (h : AtEdge (piece ++ others) back) :
    AtEdge others back := by
  refine h.imp_left fun hlast c hc => hlast c ?_
  rw [List.getLast?_append, Option.mem_def.1 hc]
  rfl

theorem AtEdge.tail {c : Char} {front back : List Char} (h : AtEdge (c :: front) back) :
    AtEdge front back := by
  rw [← List.singleton_append] at h
  exact h.of_append

/-- Where a line does not start, it ends. -/
theorem AtEdge.endsLine {front back : List Char} (h : AtEdge front back) (hne : front ≠ [])
    (hfront : ∀ c ∈ front, c ≠ '\n') : ∀ c ∈ back.head?, c = '\n' := by
  refine h.resolve_left fun hlast => ?_
  exact hfront _ (List.getLast_mem hne) (hlast _ (List.getLast?_eq_some_getLast hne))

namespace Cut

variable {blank : Char} {front back : List Char} {cut cut' : List Char × List Char}

theorem cons (c : Char) (h : Cut blank front back cut cut') :
    Cut blank (c :: front) back (c :: cut.1, cut.2) (c :: cut'.1, cut'.2) := by
  cases h with
  | before piece others h => exact .before (c :: piece) others (by rw [h, List.cons_append])
  | behind piece rest h => exact .behind piece rest h

/-- The blank is no newline. -/
theorem count_newline (h : Cut blank front back cut cut') (hblank : blank ≠ '\n') :
    cut.1.count '\n' = cut'.1.count '\n' := by
  cases h with
  | before piece others h => rfl
  | behind piece rest h => simp [hblank]

/-- The blank at the end of a word is no part of its text. -/
theorem trimRight_eq (h : Cut blank front back cut cut') (hblank : isBlank blank = true)
    (hback : (∀ c ∈ front, c ≠ '\n') → ∀ c ∈ back.head?, c = '\n')
    (hcut : ∀ c ∈ cut.1, c ≠ '\n') :
    trimRight cut.1 = trimRight cut'.1 := by
  cases h with
  | before piece others h => rfl
  | behind piece rest h =>
    have hpiece : piece = [] := by
      cases piece with
      | nil => rfl
      | cons c piece =>
        have hc := hback (fun c hc => hcut c (List.mem_append_left _ hc)) c (by rw [h]; rfl)
        exact absurd hc (hcut c (by simp))
    simp [hpiece, trimRight, hblank]

end Cut

/-! ## 1. Gaps and line breaks -/

theorem cut_splitGap {blank : Char} (hblank : isBlank blank = true) {front back : List Char}
    (hedge : AtEdge front back) (comment : Bool) :
    Cut blank front back (splitGap comment (front ++ back))
      (splitGap comment (front ++ blank :: back)) := by
  have hnewline : (blank != '\n') = true := bne_iff_ne.2 (ne_newline_of_isBlank hblank)
  induction front generalizing comment with
  | nil =>
    have hstep : splitGap comment (blank :: back) =
        (blank :: (splitGap comment back).1, (splitGap comment back).2) := by
      cases comment <;> simp [splitGap, hblank, hnewline]
    rw [List.nil_append, List.nil_append, hstep]
    exact .behind _ _ (append_splitGap comment back).symm
  | cons c front ih =>
    have hdollar : (c == '$' && (front ++ back).head? == some '-') =
        (c == '$' && (front ++ blank :: back).head? == some '-') := by
      cases front with
      | cons d front => rfl
      | nil =>
        have hdash : (blank == '-') = false := by
          refine beq_eq_false_iff_ne.2 ?_
          rintro rfl
          cases hblank
        by_cases hc : c = '$'
        · have hend := hedge.endsLine (by simp) (by simp [hc])
          have hback : (back.head? == some '-') = false :=
            beq_eq_false_iff_ne.2 fun h => by cases hend '-' h
          simp [hback, hdash]
        · simp [beq_eq_false_iff_ne.2 hc]
    simp only [List.cons_append, splitGap, hdollar]
    split
    · exact (ih hedge.tail _).cons c
    · split
      · exact (ih hedge.tail _).cons c
      · split
        · exact (ih hedge.tail _).cons c
        · exact .before [] (c :: front) rfl

/-- A piece that goes on as long as its characters pass a test. Where the whole
front passes it, the blank has to pass it, or the back must not go on. -/
theorem cut_takeWhile {p : Char → Bool} {blank : Char} {front back : List Char}
    (hback : (∀ c ∈ front, p c = true) → p blank = false → ∀ c ∈ back.head?, p c = false) :
    Cut blank front back ((front ++ back).takeWhile p, (front ++ back).dropWhile p)
      ((front ++ blank :: back).takeWhile p, (front ++ blank :: back).dropWhile p) := by
  induction front with
  | nil =>
    cases hp : p blank with
    | true =>
      have hcut : Cut blank [] back (back.takeWhile p, back.dropWhile p)
          (blank :: back.takeWhile p, back.dropWhile p) :=
        .behind _ _ List.takeWhile_append_dropWhile.symm
      simpa [hp] using hcut
    | false =>
      have hhead := hback (by simp) hp
      have hnone : back.takeWhile p = [] ∧ back.dropWhile p = back := by
        cases back with
        | nil => exact ⟨rfl, rfl⟩
        | cons c back => simp [hhead c rfl]
      have hcut : Cut blank [] back ([], back) ([], blank :: back) := .before [] [] rfl
      simpa [hp, hnone.1, hnone.2] using hcut
  | cons c front ih =>
    cases hp : p c with
    | true =>
      have hrest := (ih fun h => hback (by simpa [hp] using h)).cons c
      simpa [hp] using hrest
    | false =>
      have hcut : Cut blank (c :: front) back ([], c :: front ++ back)
          ([], c :: front ++ blank :: back) := .before [] (c :: front) rfl
      simpa [hp] using hcut

/-! ## 2. Words -/

theorem cut_splitSpan {blank : Char} (hblank : isBlank blank = true) {front back : List Char}
    (hback : (∀ c ∈ front, c ≠ '\n') → ∀ c ∈ back.head?, c = '\n') (depth : Nat) :
    Cut blank front back (splitSpan depth (front ++ back))
      (splitSpan depth (front ++ blank :: back)) := by
  induction front generalizing depth with
  | nil =>
    have hends := endsWord_of_isBlank hblank
    have hstop : splitSpan depth back = ([], back) := by
      cases back with
      | nil => rfl
      | cons c back =>
        cases hback (by simp) c rfl
        rfl
    have hopen : blank ≠ '(' := by
      rintro rfl
      cases hblank
    have hclose : blank ≠ ')' := by
      rintro rfl
      cases hblank
    have hstep : splitSpan depth (blank :: back) = ([blank], back) := by
      simp [splitSpan, hends, hopen, hclose, hstop]
    rw [List.nil_append, List.nil_append, hstop, hstep]
    exact .behind [] back rfl
  | cons c front ih =>
    have hrest (hc : c ≠ '\n') (depth : Nat) :=
      (ih (fun h => hback (List.forall_mem_cons.2 ⟨hc, h⟩)) depth).cons c
    simp only [List.cons_append, splitSpan]
    split
    · exact .before [] (c :: front) rfl
    · next hc =>
      have hc' : c ≠ '\n' := by
        rintro rfl
        exact hc rfl
      split
      · exact hrest hc' _
      · split
        · split
          · exact .before [c] front rfl
          · exact hrest hc' _
        · exact hrest hc' _

/-- No newline is part of a word. -/
theorem ne_newline_of_mem_splitWord {wide : Bool} {cs : List Char} {c : Char}
    (h : c ∈ (splitWord wide cs).1) : c ≠ '\n' := by
  rintro rfl
  cases endsWord_of_mem_splitWord h

theorem cut_splitWord {blank : Char} (hblank : isBlank blank = true) {front back : List Char}
    (hedge : AtEdge front back) (hne : front ≠ []) (wide : Bool) :
    Cut blank front back (splitWord wide (front ++ back))
      (splitWord wide (front ++ blank :: back)) := by
  cases front with
  | nil => exact absurd rfl hne
  | cons c front =>
    by_cases hspan : c = '('
    · subst hspan
      exact cut_splitSpan hblank (hedge.endsLine hne) 0
    · rw [List.cons_append, List.cons_append, splitWord_of_ne_open hspan,
        splitWord_of_ne_open hspan]
      rw [← List.cons_append, ← List.cons_append]
      refine cut_takeWhile fun hfront _ d hd => ?_
      have hline : ∀ c' ∈ c :: front, c' ≠ '\n' := by
        rintro _ hmem rfl
        have := hfront _ hmem
        simp [inWord, endsWord] at this
      rw [hedge.endsLine hne hline d hd]
      simp [inWord, endsWord]

/-! ## 3. Tokens -/

/-- The same token is cut off both texts, if it starts before the blank. -/
theorem cut_cutToken {blank : Char} (hblank : isBlank blank = true) {front back : List Char}
    (hedge : AtEdge front back) (hne : front ≠ []) (wide : Bool) :
    (Reader.cutToken wide (front ++ back)).1 = (Reader.cutToken wide (front ++ blank :: back)).1 ∧
      Cut blank front back (Reader.cutToken wide (front ++ back)).2
        (Reader.cutToken wide (front ++ blank :: back)).2 := by
  cases front with
  | nil => exact absurd rfl hne
  | cons c front =>
    by_cases hscope : c = ':'
    · subst hscope
      exact ⟨rfl, .before [':'] front rfl⟩
    · by_cases hnewline : c = '\n'
      · subst hnewline
        have hcut : Cut blank ('\n' :: front) back (splitBreaks ('\n' :: front ++ back))
            (splitBreaks ('\n' :: front ++ blank :: back)) := by
          refine cut_takeWhile fun _ hp => ?_
          simp [isSpacing, hblank] at hp
        refine ⟨?_, hcut⟩
        exact congrArg Lexeme.lineBreaks (hcut.count_newline (ne_newline_of_isBlank hblank))
      · have hcut := cut_splitWord hblank hedge hne wide
        rw [List.cons_append, List.cons_append, Reader.cutToken_of_ne hscope hnewline,
          Reader.cutToken_of_ne hscope hnewline]
        refine ⟨congrArg Lexeme.ofWord ?_, hcut⟩
        exact hcut.trimRight_eq hblank (hedge.endsLine hne) fun _ => ne_newline_of_mem_splitWord

end Questbook
