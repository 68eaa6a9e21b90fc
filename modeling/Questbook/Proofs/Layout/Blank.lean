/-
Questbook.Proofs.Layout.Blank — one blank more makes the same quest.

Two sources are read side by side, the second of which has one blank more, at
the start or at the end of a line. Their readers are related (`Beside`) while
both stand before the blank, with the same text behind them, and when both stand
behind it, with the same text before them. Between the two is one token, and
`Cut` says that it is the same.

Lines are easy: the blank is no newline, so as many lines are behind the one
reader as behind the other. Columns differ from the blank to the end of its
line. If the blank stands before a newline, this line is over, and the only
token whose column differs is that of the line break.
-/
import Questbook.Proofs.Layout.Cut
import Questbook.Proofs.Reader.Simulation
import Questbook.Proofs.Text.Position

namespace Questbook

open Text Reader

/-- The offsets stand for the same line. If the line ends where the blank is put
in, they stand for the same column too. -/
def SamePlace (source source' : String) (back : List Char) (offset offset' : Nat) : Prop :=
  (Position.ofOffset source offset).line = (Position.ofOffset source' offset').line ∧
    (back.head? = some '\n' →
      Position.ofOffset source offset = Position.ofOffset source' offset')

/-- Readers of two sources side by side. The second source has a blank more,
before `back`. -/
inductive Beside (source source' : String) (blank : Char) (back : List Char) :
    Reader → Reader → Prop where
  | before {read front : List Char} {wide : Bool} (h : source.toList = read ++ (front ++ back))
      (h' : source'.toList = read ++ (front ++ blank :: back)) (edge : AtEdge front back) :
      Beside source source' blank back ⟨front ++ back, size read, wide⟩
        ⟨front ++ blank :: back, size read, wide⟩
  | behind {read read' rest : List Char} {wide : Bool} (h : source.toList = read ++ rest)
      (h' : source'.toList = read' ++ rest)
      (line : (Position.behind ⟨1, 1⟩ read).line = (Position.behind ⟨1, 1⟩ read').line)
      (column : back.head? = some '\n' → rest.head? ≠ some '\n' →
        Position.behind ⟨1, 1⟩ read = Position.behind ⟨1, 1⟩ read') :
      Beside source source' blank back ⟨rest, size read, wide⟩ ⟨rest, size read', wide⟩

namespace Beside

variable {source source' : String} {blank : Char} {back : List Char} {r s : Reader}

/-! ## 1. Passing over a piece -/

/-- Behind a piece in which the blank may be. -/
theorem pass_of_cut {read front : List Char} {wide : Bool}
    (h : source.toList = read ++ (front ++ back))
    (h' : source'.toList = read ++ (front ++ blank :: back)) (hblank : blank ≠ '\n')
    (edge : AtEdge front back) {cut cut' : List Char × List Char}
    (hcut : Cut blank front back cut cut') :
    Beside source source' blank back ((⟨front ++ back, size read, wide⟩ : Reader).pass cut)
      ((⟨front ++ blank :: back, size read, wide⟩ : Reader).pass cut') := by
  cases hcut with
  | before piece others hfront =>
    subst hfront
    simp only [Reader.pass, ← size_append]
    exact .before (by rw [h]; simp) (by rw [h']; simp) edge.of_append
  | behind piece rest hback =>
    simp only [Reader.pass, ← size_append]
    have hline : (Position.behind (Position.behind ⟨1, 1⟩ (read ++ front)) piece).line =
        (Position.behind (Position.behind ⟨1, 1⟩ (read ++ front)) (blank :: piece)).line :=
      (Position.line_behind_cons hblank _ piece).symm
    refine .behind (by rw [h, hback]; simp) (by rw [h', hback]; simp) ?_ ?_
    · simpa [Position.behind_append] using hline
    · -- The newline that the blank stands before is part of the piece.
      intro hnewline hrest
      cases piece with
      | nil =>
        rw [hback] at hnewline
        exact absurd hnewline hrest
      | cons c piece =>
        rw [hback] at hnewline
        cases Option.some.inj hnewline
        simp [Position.behind_append, Position.behind, hblank]

/-- Behind a piece that does not have the blank in it. -/
theorem pass_of_eq {read read' rest : List Char} {wide : Bool}
    (h : source.toList = read ++ rest) (h' : source'.toList = read' ++ rest)
    (line : (Position.behind ⟨1, 1⟩ read).line = (Position.behind ⟨1, 1⟩ read').line)
    (column : back.head? = some '\n' → rest.head? ≠ some '\n' →
      Position.behind ⟨1, 1⟩ read = Position.behind ⟨1, 1⟩ read')
    {cut : List Char × List Char} (hcut : cut.1 ++ cut.2 = rest) :
    Beside source source' blank back ((⟨rest, size read, wide⟩ : Reader).pass cut)
      ((⟨rest, size read', wide⟩ : Reader).pass cut) := by
  obtain ⟨piece, others⟩ := cut
  simp only [Reader.pass, ← size_append]
  refine .behind (by rw [h, ← hcut, List.append_assoc])
    (by rw [h', ← hcut, List.append_assoc]) ?_ ?_
  · rw [Position.behind_append, Position.behind_append]
    exact Position.line_behind_congr line piece
  · intro hback hothers
    rw [Position.behind_append, Position.behind_append]
    cases piece with
    | nil => exact column hback (hcut ▸ hothers)
    | cons c piece =>
      by_cases hc : c = '\n'
      · subst hc
        exact Position.behind_newline_congr line piece
      · rw [column hback (by rw [← hcut]; simpa using hc)]

/-! ## 2. One token -/

variable (hblank : isBlank blank = true)

include hblank

theorem toToken (h : Beside source source' blank back r s) :
    Beside source source' blank back r.toToken s.toToken := by
  cases h with
  | before h h' edge =>
    exact pass_of_cut h h' (ne_newline_of_isBlank hblank) edge (cut_splitGap hblank edge false)
  | behind h h' line column =>
    exact pass_of_eq h h' line column (Extent.append_splitGap false _)

/-- What is found where no gap is, and what comes behind it. -/
theorem cutToken (h : Beside source source' blank back r s)
    (hgap : ∀ c ∈ s.rest.head?, isBlank c = false) :
    (cutToken r.wide r.rest).1 = (cutToken s.wide s.rest).1 ∧
      ((∀ count, (Reader.cutToken r.wide r.rest).1 ≠ .lineBreaks count) →
        SamePlace source source' back r.offset s.offset) ∧
      Beside source source' blank back (r.pass (Reader.cutToken r.wide r.rest).2)
        (s.pass (Reader.cutToken s.wide s.rest).2) := by
  cases h with
  | @before read front wide h h' edge =>
    have hfront : front ≠ [] := by
      rintro rfl
      have := hgap blank rfl
      rw [hblank] at this
      cases this
    obtain ⟨hlexeme, hcut⟩ := cut_cutToken hblank edge hfront wide
    refine ⟨hlexeme, fun _ => ?_, pass_of_cut h h' (ne_newline_of_isBlank hblank) edge hcut⟩
    have hplace : Position.ofOffset source (size read) = Position.ofOffset source' (size read) := by
      rw [Position.ofOffset_append h, Position.ofOffset_append h']
    exact ⟨congrArg Position.line hplace, fun _ => hplace⟩
  | @behind read read' rest wide h h' line column =>
    refine ⟨rfl, fun hword => ?_, pass_of_eq h h' line column (append_cutToken wide rest)⟩
    rw [SamePlace, Position.ofOffset_append h, Position.ofOffset_append h']
    refine ⟨line, fun hback => column hback fun hrest => ?_⟩
    obtain ⟨others, rfl⟩ : ∃ others, rest = '\n' :: others := by
      cases rest with
      | nil => cases hrest
      | cons c rest => exact ⟨rest, by rw [Option.some.inj hrest]⟩
    exact hword _ rfl

/-- **Reading side by side.** The readers of both sources find the same. -/
theorem simulation :
    Simulation (Beside source source' blank back) (SamePlace source source' back) := by
  have hnext {r s : Reader} (h : Beside source source' blank back r s) :=
    (h.toToken hblank).cutToken hblank fun c hc => by
      cases hrest : s.toToken.rest with
      | nil => rw [hrest] at hc; cases hc
      | cons d rest =>
        rw [hrest] at hc
        cases hc
        exact Extent.isBlank_head_splitGap false hrest
  refine ⟨fun h => (hnext h).1, fun h => (hnext h).2.1, fun h => (hnext h).2.2, ?_, ?_⟩
  · rintro r s (_ | _) <;> rfl
  · rintro r s wide (⟨h, h', edge⟩ | ⟨h, h', line, column⟩)
    · exact .before h h' edge
    · exact .behind h h' line column

end Beside

/-- A blank more at the edge of a line makes the same quest, or the same fault in
the same line. -/
theorem Quest.parse_insert_blank {source source' : String} {blank : Char} {front back : List Char}
    (hblank : isBlank blank = true) (hedge : AtEdge front back)
    (h : source.toList = front ++ back) (h' : source'.toList = front ++ blank :: back) :
    Alike (SamePlace source source' back) (· = ·) (Quest.parse source) (Quest.parse source') := by
  refine Quest.parse_alike (Beside.simulation hblank) ?_
  rw [ofSource, ofSource, h, h']
  exact @Beside.before _ _ _ _ [] front false h h' hedge

end Questbook
