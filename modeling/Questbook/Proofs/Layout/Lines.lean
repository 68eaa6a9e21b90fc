/-
Questbook.Proofs.Layout.Lines — indentation and line ends do not matter.

A source says what its lines say without the blanks at either end of them.
Taking such blanks away is done one at a time, and each time the outcome stays
what it was (`Quest.parse_insert_blank`): the same quest, or the same fault in
the same line. So a source has the outcome of its trimmed lines, and two sources
whose trimmed lines are equal have the same.

A carriage return before a newline is such a blank. It stands behind all other
tokens of its line, so it leaves even their columns alone.
-/
import Questbook.Proofs.Layout.Blank

namespace Questbook

open Text

/-- The lines of a text, without the newlines between them. -/
def Text.lines (cs : List Char) : List (List Char) :=
  cs.splitOn '\n'

/-- The second text has a carriage return more before some newlines of the
first. -/
inductive Text.WithReturns : List Char → List Char → Prop where
  | nil : WithReturns [] []
  | keep (c : Char) {cs ds : List Char} (h : WithReturns cs ds) : WithReturns (c :: cs) (c :: ds)
  | insert {cs ds : List Char} (h : WithReturns cs ds) :
      WithReturns ('\n' :: cs) ('\r' :: '\n' :: ds)

/-- Both sources make the same quest, or both fail with the same fault, at
places that look the same. -/
def SameOutcome {α : Type} (view : Position → α) (source source' : String) : Prop :=
  Alike (fun m n => view (.ofOffset source m) = view (.ofOffset source' n)) (· = ·)
    (Quest.parse source) (Quest.parse source')

namespace SameOutcome

variable {α : Type} {view : Position → α} {s t u : String}

theorem refl (s : String) : SameOutcome view s s := by
  unfold SameOutcome
  cases Quest.parse s with
  | error e => exact ⟨rfl, rfl⟩
  | ok q => exact rfl

theorem symm (h : SameOutcome view s t) : SameOutcome view t s := by
  unfold SameOutcome at h ⊢
  cases hs : Quest.parse s <;> cases ht : Quest.parse t <;> rw [hs, ht] at h
  · exact ⟨h.1.symm, h.2.symm⟩
  · exact h.elim
  · exact h.elim
  · exact Eq.symm h

theorem trans (h : SameOutcome view s t) (h' : SameOutcome view t u) : SameOutcome view s u := by
  unfold SameOutcome at h h' ⊢
  cases hs : Quest.parse s <;> cases ht : Quest.parse t <;> cases hu : Quest.parse u <;>
    rw [hs, ht] at h <;> rw [ht, hu] at h'
  · exact ⟨h.1.trans h'.1, h.2.trans h'.2⟩
  · exact h'.elim
  · exact h.elim
  · exact h.elim
  · exact h.elim
  · exact h.elim
  · exact h'.elim
  · exact Eq.trans h h'

/-! ## 1. Blanks at the edges of a line -/

theorem insert_blank {blank : Char} (hblank : isBlank blank = true) {front back : List Char}
    (hedge : AtEdge front back) :
    SameOutcome Position.line (.ofList (front ++ back)) (.ofList (front ++ blank :: back)) :=
  (Quest.parse_insert_blank hblank hedge String.toList_ofList String.toList_ofList).mono
    fun _ _ h => h.1

theorem insert_return (front back : List Char) :
    SameOutcome id (.ofList (front ++ '\n' :: back)) (.ofList (front ++ '\r' :: '\n' :: back)) := by
  have hedge : AtEdge front ('\n' :: back) := .inr fun c hc => (Option.some.inj hc).symm
  exact (Quest.parse_insert_blank rfl hedge String.toList_ofList String.toList_ofList).mono
    fun _ _ h => h.2 rfl

/-- Blanks at the start of a line. The last of them is put in first. -/
theorem insert_start {front : List Char} (hfront : ∀ c ∈ front.getLast?, c = '\n')
    {blanks : List Char} (hblanks : ∀ c ∈ blanks, isBlank c = true) (back : List Char) :
    SameOutcome Position.line (.ofList (front ++ back)) (.ofList (front ++ (blanks ++ back))) := by
  induction blanks with
  | nil => exact refl _
  | cons blank blanks ih =>
    obtain ⟨hblank, hblanks⟩ := List.forall_mem_cons.1 hblanks
    exact (ih hblanks).trans (insert_blank hblank (.inl hfront))

/-- Blanks at the end of a line. The first of them is put in first. -/
theorem insert_end {back : List Char} (hback : ∀ c ∈ back.head?, c = '\n')
    {blanks : List Char} (hblanks : ∀ c ∈ blanks, isBlank c = true) (front : List Char) :
    SameOutcome Position.line (.ofList (front ++ back)) (.ofList (front ++ (blanks ++ back))) := by
  induction blanks generalizing front with
  | nil => exact refl _
  | cons blank blanks ih =>
    obtain ⟨hblank, hblanks⟩ := List.forall_mem_cons.1 hblanks
    have hothers := ih hblanks (front ++ [blank])
    rw [List.append_assoc, List.append_assoc] at hothers
    exact (insert_blank hblank (.inr hback)).trans hothers

/-! ## 2. Lines -/

/-- One line between others. -/
theorem trim_line {front : List Char} (hfront : ∀ c ∈ front.getLast?, c = '\n')
    (line back : List Char) (hback : ∀ c ∈ back.head?, c = '\n') :
    SameOutcome Position.line (.ofList (front ++ (trim line ++ back)))
      (.ofList (front ++ (line ++ back))) := by
  obtain ⟨blanks, blanks', hblanks, hblanks', hline⟩ := exists_append_trim line
  have hend := insert_end hback hblanks' (front ++ trim line)
  have hstart := insert_start hfront hblanks (trim line ++ (blanks' ++ back))
  rw [List.append_assoc, List.append_assoc] at hend
  have hboth := hend.trans hstart
  have hwhole : blanks ++ (trim line ++ (blanks' ++ back)) = line ++ back := by
    rw [← List.append_assoc (trim line), ← List.append_assoc, ← hline]
  rwa [hwhole] at hboth

theorem trim_lines (lines : List (List Char)) (front : List Char)
    (hfront : ∀ c ∈ front.getLast?, c = '\n') :
    SameOutcome Position.line (.ofList (front ++ ['\n'].intercalate (lines.map trim)))
      (.ofList (front ++ ['\n'].intercalate lines)) := by
  induction lines generalizing front with
  | nil => exact refl _
  | cons line lines ih =>
    cases lines with
    | nil =>
      have hline := trim_line hfront line [] (by simp)
      simpa using hline
    | cons line' lines =>
      have hfront' : ∀ c ∈ (front ++ (trim line ++ ['\n'])).getLast?, c = '\n' := by
        simp
      have hothers := ih _ hfront'
      have hline := trim_line hfront line ('\n' :: ['\n'].intercalate (line' :: lines)) (by simp)
      have hboth := hothers.trans (by simpa using hline)
      simpa using hboth

/-- A source says what its trimmed lines say. -/
theorem of_trim_lines (s : String) :
    SameOutcome Position.line (.ofList (['\n'].intercalate ((lines s.toList).map trim))) s := by
  have h := trim_lines (lines s.toList) [] (by simp)
  rw [lines, List.intercalate_splitOn] at h
  simpa [lines] using h

/-! ## 3. Carriage returns -/

theorem of_withReturns {cs ds : List Char} (h : WithReturns cs ds) (front : List Char) :
    SameOutcome id (.ofList (front ++ cs)) (.ofList (front ++ ds)) := by
  induction h generalizing front with
  | nil => exact refl _
  | keep c h ih => simpa using ih (front ++ [c])
  | @insert cs ds h ih =>
    have hothers : SameOutcome id (.ofList (front ++ '\n' :: cs))
        (.ofList (front ++ '\n' :: ds)) := by
      simpa using ih (front ++ ['\n'])
    exact hothers.trans (insert_return front ds)

end SameOutcome

/-- **Indentation and line ends do not matter.** Sources whose lines are equal but
for blanks at their ends have the same outcome, up to the column of an error. If
the blanks are carriage returns, the column is the same too. -/
theorem Quest.parse_layout (s t : String) :
    ((lines s.toList).map trim = (lines t.toList).map trim → SameOutcome Position.line s t) ∧
      (WithReturns s.toList t.toList → SameOutcome id s t) := by
  refine ⟨fun h => ?_, fun h => ?_⟩
  · have hs := SameOutcome.of_trim_lines s
    rw [h] at hs
    exact hs.symm.trans (.of_trim_lines t)
  · have hreturns := SameOutcome.of_withReturns h []
    rwa [List.nil_append, List.nil_append, String.ofList_toList, String.ofList_toList] at hreturns

/-- A number where a `:` has to stand, indented and with carriage returns. -/
theorem parse_layout_indented :
    ((lines "a\n1\n".toList).map trim = (lines " a\t\r\n \r1 \n\x0c".toList).map trim ∧
        SameOutcome Position.line "a\n1\n" " a\t\r\n \r1 \n\x0c") ∧
      WithReturns "a\n1\n".toList "a\n1\r\n".toList ∧ SameOutcome id "a\n1\n" "a\n1\r\n" := by
  have hlines : (lines "a\n1\n".toList).map trim =
      (lines " a\t\r\n \r1 \n\x0c".toList).map trim := by decide
  have hreturns : WithReturns "a\n1\n".toList "a\n1\r\n".toList :=
    .keep _ (.keep _ (.keep _ (.insert .nil)))
  exact ⟨⟨hlines, (Quest.parse_layout _ _).1 hlines⟩, hreturns,
    (Quest.parse_layout _ _).2 hreturns⟩

end Questbook
