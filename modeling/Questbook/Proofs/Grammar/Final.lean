/-
Questbook.Proofs.Grammar.Final — an error is final: lines put behind the source do
not change it.

A token is told from the text up to the first character that is not its own. So
when a text goes on behind a newline where it used to end, there are three tokens
that may change: a run of line breaks at the very end gets longer, a comment there
gets its newline, and the end of the file is no longer there. In all three nothing
but the end of the file comes next (`Reader.next_extend` excludes them).

A run that fails at a word has read on behind each token before it, so none of those
tokens stood at the end (`State.run_extend`). And an error inside the source is one
that was found at a word: at the end of the file, its offset would be the size of the
source.
-/
import Questbook.Proofs.Grammar.Errors
import Questbook.Proofs.Reader.Seam

namespace Questbook

open Text Extent

namespace State

/-! ## 1. Runs -/

/-- The same state, before a text that goes on with a newline. -/
def extend (s : State) (more : List Char) : State :=
  { s with reader := s.reader.extend more }

variable {s t : State}

theorem token_extend (hend : s.token.lexeme ≠ .endOfFile)
    (hmore : (∀ count, s.token.lexeme ≠ .lineBreaks count) ∨ s.behind.rest ≠ [])
    (more : List Char) :
    (s.extend more).token = s.token ∧ (s.extend more).behind = s.behind.extend more := by
  rw [token, Stage.read_eq] at hend hmore
  rw [behind, Stage.read_eq] at hmore
  have hnext : (s.stage.tune (s.reader.extend more)).next = _ :=
    Reader.next_extend (r := s.stage.tune s.reader) hend hmore more
  simp only [token, behind, extend, Stage.read_eq, hnext, true_and]
  rfl

theorem move_extend (hend : s.token.lexeme ≠ .endOfFile)
    (hmore : (∀ count, s.token.lexeme ≠ .lineBreaks count) ∨ s.behind.rest ≠ [])
    (more : List Char) : (s.extend more).move = s.move := by
  show s.stage.feed s.quest (s.extend more).token = s.stage.feed s.quest s.token
  rw [(token_extend hend hmore more).1]

/-- At the end of the text there is no word. -/
theorem rest_ne_nil_of_word? {word : String} (h : s.token.lexeme.word? = some word) :
    s.reader.rest ≠ [] := by
  intro hnil
  have hend : s.reader.next.1.lexeme = .endOfFile := Reader.lexeme_next_of_rest_eq_nil hnil
  have hread := Stage.read_of_word?_eq_none (r := s.reader) (by rw [hend]; rfl) s.stage
  rw [token, hread, hend] at h
  cases h

/-- The machine goes on behind no end of the file. -/
theorem lexeme_ne_endOfFile_of_on {q : Quest} {stage : Stage} (h : s.move = .on q stage) :
    s.token.lexeme ≠ .endOfFile := by
  intro hend
  obtain ⟨outcome, hstop⟩ := Stage.feed_endOfFile s.quest s.stage s.token.offset
  rw [← hend] at hstop
  cases h.symm.trans hstop

/-- **A run that fails at a word fails the same when the text goes on.** -/
theorem run_extend {e : ParseError} {word : String} (hreach : s.Reaches t)
    (hstop : t.move = .stop (.error e)) (hword : t.token.lexeme.word? = some word)
    (more : List Char) : (s.extend more).run = .error e := by
  induction hreach with
  | refl s =>
    have hend : s.token.lexeme ≠ .endOfFile := by
      intro hend
      rw [hend] at hword
      cases hword
    have hbreaks (count : Nat) : s.token.lexeme ≠ .lineBreaks count := by
      intro hcount
      rw [hcount] at hword
      cases hword
    exact run_of_stop ((move_extend hend (.inl hbreaks) more).trans hstop)
  | @step s t q stage hmove hlast ih =>
    have hend := lexeme_ne_endOfFile_of_on hmove
    have hrest : s.behind.rest ≠ [] := by
      have hle := hlast.length_le
      have hpos := List.length_pos_iff.2 (rest_ne_nil_of_word? hword)
      exact List.length_pos_iff.1 (Nat.lt_of_lt_of_le hpos hle)
    rw [run_of_on ((move_extend hend (.inr hrest) more).trans hmove),
      (token_extend hend (.inr hrest) more).2]
    exact ih hstop hword

/-! ## 2. Errors -/

theorem stop_of_within {source : List Char} {r : Reader} (h : r.Within source) :
    r.stop = size source := by
  obtain ⟨front, rfl, hoffset⟩ := h
  rw [Reader.stop, hoffset, size_append]

/-- An error before the end of the source was found at a word. -/
theorem Placed.word?_of_error {source : List Char} {e : ParseError} (h : s.Placed source)
    (hmove : s.move = .stop (.error e)) (hoffset : e.offset < size source) :
    ∃ word, s.token.lexeme.word? = some word := by
  obtain ⟨hnarrow, ⟨expected, -, rfl, hbreaks⟩ | ⟨heading, -, hscope, -, -⟩⟩ :=
    Stage.feed_error hmove
  · have htoken := (token_of_narrow hnarrow).1
    cases hlexeme : s.token.lexeme with
    | identifier word => exact ⟨word, rfl⟩
    | integer value => exact ⟨Numeral.render value, rfl⟩
    | lineBreaks count => exact absurd hlexeme (hbreaks count)
    | endOfFile =>
      rw [htoken] at hlexeme
      have hend := Reader.next_of_endOfFile hlexeme
      rw [stop_of_within h.within, ← htoken] at hend
      have hplace : s.token.offset < size source := hoffset
      rw [hend] at hplace
      exact absurd hplace (Nat.lt_irrefl _)
  · rw [hscope]
    exact ⟨":", rfl⟩

end State

/-- **An error inside a source is final.** Whatever lines are put behind the source,
reading fails with the same error at the same offset. -/
theorem Quest.parse_error_final (source : String) (e : ParseError)
    (h : Quest.parse source = .error e) (hoffset : e.offset < size source.toList)
    (more : String) : Quest.parse (source ++ "\n" ++ more) = .error e := by
  obtain ⟨t, hreach, hstop⟩ := State.exists_reaches_stop (.start source)
  rw [← Quest.parse_eq_run, h] at hstop
  have hplaced := hreach.invariant State.Placed.step (State.placed_start source)
  obtain ⟨word, hword⟩ := hplaced.word?_of_error hstop hoffset
  have hstart : State.start (source ++ "\n" ++ more) = (State.start source).extend more.toList := by
    have hnewline : "\n".toList = ['\n'] := rfl
    simp [State.start, State.extend, Reader.extend, Reader.ofSource, hnewline]
  rw [Quest.parse_eq_run, hstart]
  exact State.run_extend hreach hstop hword more.toList

/-- A number in the place of a heading, behind a title whose span is not closed. What
is put behind it would close the span and the comment, and give a heading. -/
theorem parse_error_final_unclosed :
    Quest.parse "title: (a\n7 $- c" = .error ⟨.unexpectedToken "an identifier" "integer 7", 10⟩ ∧
      10 < size "title: (a\n7 $- c".toList ∧
      Quest.parse ("title: (a\n7 $- c" ++ "\n" ++ ")\n: x") =
        .error ⟨.unexpectedToken "an identifier" "integer 7", 10⟩ := by
  have hparse : Quest.parse "title: (a\n7 $- c" =
      .error ⟨.unexpectedToken "an identifier" "integer 7", 10⟩ :=
    Quest.parse_of_runFor (n := 20) (by cbv)
  have hoffset : 10 < size "title: (a\n7 $- c".toList := by decide
  exact ⟨hparse, hoffset, Quest.parse_error_final _ _ hparse hoffset ")\n: x"⟩

end Questbook
