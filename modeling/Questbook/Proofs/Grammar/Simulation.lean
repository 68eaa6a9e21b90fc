/-
Questbook.Proofs.Grammar.Simulation — related states make the same quest.

A simulation relates readers that find the same lexemes (`Reader.Simulation`).
Here it is lifted to the machine, so that it may start in the middle of a source:
at the same stage, with the same quest so far, related readers come to the same
end (`State.run_alike`). The one thing that a stage knows of its source is where
its heading stands, and there the stages may differ as errors may.
-/
import Questbook.Proofs.Grammar.Stage
import Questbook.Proofs.Reader.Simulation

namespace Questbook

open Text

variable {place : Nat → Nat → Prop}

/-- The same place in the grammar, with headings at offsets in relation. -/
inductive Stage.Alike (place : Nat → Nat → Prop) : Stage → Stage → Prop where
  | same {stage : Stage} (h : ∀ word, stage ≠ .heading word) : Alike place stage stage
  | heading {word word' : Identifier} (htext : word.text = word'.text)
      (hplace : place word.offset word'.offset) : Alike place (.heading word) (.heading word')

/-- The same quest and stage, or the same end. -/
inductive Move.Alike (place : Nat → Nat → Prop) : Move → Move → Prop where
  | on {q : Quest} {stage stage' : Stage} (h : stage.Alike place stage') :
      Alike place (.on q stage) (.on q stage')
  | stop {outcome outcome' : Except ParseError Quest}
      (h : Questbook.Alike place (· = ·) outcome outcome') :
      Alike place (.stop outcome) (.stop outcome')

/-- The same lexeme, at offsets in relation if an error can point at it. -/
structure Token.Alike (place : Nat → Nat → Prop) (t t' : Token) : Prop where
  lexeme_eq : t.lexeme = t'.lexeme
  place : (∀ count, t.lexeme ≠ .lineBreaks count) → place t.offset t'.offset

/-! ## 1. One token -/

theorem Move.Alike.same {q : Quest} {stage : Stage} (h : ∀ word, stage ≠ .heading word) :
    Move.Alike place (.on q stage) (.on q stage) :=
  .on (.same h)

namespace Stage

variable {q : Quest} {t t' : Token}

/-- Both fail at their tokens. -/
theorem unexpected_alike (h : t.Alike place t') (hbreaks : ∀ count, t.lexeme ≠ .lineBreaks count)
    (expected : String) :
    Move.Alike place (.stop (.error (t.unexpected expected)))
      (.stop (.error (t'.unexpected expected))) := by
  refine .stop ⟨?_, h.place hbreaks⟩
  simp only [Token.unexpected, h.lexeme_eq]

theorem feedDirective_alike (h : t.Alike place t') (q : Quest) :
    Move.Alike place (feedDirective q t) (feedDirective q t') := by
  have hfail := unexpected_alike h
  have hplace := h.place
  unfold feedDirective
  rw [← h.lexeme_eq]
  split
  · next word hword =>
    split
    · exact .same (by simp)
    · exact .on (.heading rfl (hplace (by simp [hword])))
  · exact .same (by simp)
  · exact .stop rfl
  · next value hvalue => exact hfail (by simp [hvalue]) _

theorem feedEntry_alike (h : t.Alike place t') (q : Quest) (entries : List (Int64 × Resource)) :
    Move.Alike place (feedEntry q entries t) (feedEntry q entries t') := by
  have hbetween := feedDirective_alike h ((Directive.resources entries).applyTo q)
  unfold feedEntry
  rw [← h.lexeme_eq]
  split
  · exact .same (by simp)
  · split
    · exact .same (by simp)
    · exact hbetween
  · exact hbetween

theorem feedCommand_alike (h : t.Alike place t') (q : Quest) (blocks : List Task) (block : Task) :
    Move.Alike place (feedCommand q blocks block t) (feedCommand q blocks block t') := by
  have hbetween := feedDirective_alike h (withTasks q blocks block)
  unfold feedCommand
  rw [← h.lexeme_eq]
  split
  · exact .same (by simp)
  · split <;> exact .same (by simp)
  · exact hbetween

theorem feedTitleLine_alike (h : t.Alike place t') (q : Quest) (written : String) :
    Move.Alike place (feedTitleLine q written t) (feedTitleLine q written t') := by
  unfold feedTitleLine
  rw [← h.lexeme_eq]
  split
  · exact .same (by simp)
  · exact feedDirective_alike h _

theorem feedTextLine_alike (h : t.Alike place t') (q : Quest) (use : TextUse) (written : String)
    (pending : Nat) :
    Move.Alike place (feedTextLine q use written pending t)
      (feedTextLine q use written pending t') := by
  unfold feedTextLine
  rw [← h.lexeme_eq]
  split
  · exact .same (by simp)
  · split
    · cases use with
      | briefing => exact feedDirective_alike h _
      | content entries kind id => exact feedEntry_alike h q _
    · exact .same (by simp)

theorem feedMark_alike (h : t.Alike place t') {here here' : Stage} {behind behind' : Move}
    (hhere : here.Alike place here') (hbehind : behind.Alike place behind') (q : Quest) :
    Move.Alike place (feedMark q here behind t) (feedMark q here' behind' t') := by
  have hfail := unexpected_alike h
  unfold feedMark
  rw [← h.lexeme_eq]
  split
  · exact hbehind
  · exact .on hhere
  · next hbreaks => exact hfail hbreaks _

theorem behindHeading_alike {word word' : Identifier} (htext : word.text = word'.text)
    (hplace : place word.offset word'.offset) (q : Quest) :
    Move.Alike place (behindHeading q word) (behindHeading q word') := by
  unfold behindHeading
  rw [← htext]
  split
  · exact .same (by simp)
  · exact .same (by simp)
  · exact .same (by simp)
  · exact .same (by simp)
  · exact .stop ⟨rfl, hplace⟩

/-- The same lexeme leads to the same stage. -/
theorem feed_alike {stage stage' : Stage} (hstage : stage.Alike place stage')
    (h : t.Alike place t') (q : Quest) :
    Move.Alike place (stage.feed q t) (stage'.feed q t') := by
  have hfail := unexpected_alike h
  cases hstage with
  | heading htext hplace =>
    exact feedMark_alike h (.heading htext hplace) (behindHeading_alike htext hplace q) q
  | same hheading =>
    cases stage with
    | directive => exact feedDirective_alike h q
    | heading word => exact absurd rfl (hheading word)
    | title =>
      simp only [feed, ← h.lexeme_eq]
      split
      · exact .same (by simp)
      · exact feedTitleLine_alike h q ""
    | titleLine written => exact feedTitleLine_alike h q written
    | text use =>
      simp only [feed, ← h.lexeme_eq]
      split
      · exact .same (by simp)
      · exact feedTextLine_alike h q use "" 0
    | textLine use written pending => exact feedTextLine_alike h q use written pending
    | entry entries => exact feedEntry_alike h q entries
    | entryMark entries kind => exact feedMark_alike h (.same hheading) (.same (by simp)) q
    | entryNumber entries kind =>
      simp only [feed, ← h.lexeme_eq]
      split
      · exact .same (by simp)
      · exact .same (by simp)
      · next hbreaks _ => exact hfail hbreaks _
    | command blocks block => exact feedCommand_alike h q blocks block
    | arguments blocks block last =>
      simp only [feed, feedArguments, ← h.lexeme_eq]
      split
      · exact .same (by simp)
      · exact feedCommand_alike h q blocks _
    | label blocks isEvent =>
      simp only [feed, ← h.lexeme_eq]
      split
      · exact .same (by simp)
      · exact .same (by simp)
      · next hbreaks _ => exact hfail hbreaks _
    | labelMark blocks isEvent name => exact feedMark_alike h (.same hheading) (.same (by simp)) q

/-! ## 2. Runs -/

theorem Alike.wide_eq {stage stage' : Stage} (h : stage.Alike place stage') :
    stage.wide = stage'.wide := by
  cases h <;> rfl

section Run

variable {related : Reader → Reader → Prop} (sim : Reader.Simulation related place)
  {stage stage' : Stage} {r s : Reader}

include sim

theorem read_alike (hstage : stage.Alike place stage') (h : related r s) :
    (stage.read r).1.Alike place (stage'.read s).1 ∧ related (stage.read r).2 (stage'.read s).2 := by
  unfold read
  rw [← hstage.wide_eq]
  split
  · have hwide := sim.widen true h
    refine ⟨⟨sim.lexeme_eq hwide, sim.place_next hwide⟩, ?_⟩
    simp only [Reader.widely, ← sim.wide_eq h]
    exact sim.widen r.wide (sim.next hwide)
  · exact ⟨⟨sim.lexeme_eq h, sim.place_next h⟩, sim.next h⟩

/-- **Related readers come to the same end.** -/
theorem run_alike (hstage : stage.Alike place stage') (h : related r s) (q : Quest) :
    Questbook.Alike place (· = ·) (stage.run q r) (stage'.run q s) := by
  induction hn : r.rest.length using Nat.strongRecOn generalizing q stage stage' r s with
  | ind n ih =>
    obtain ⟨htoken, hbehind⟩ := read_alike sim hstage h
    have hmove := feed_alike hstage htoken q
    rw [run_eq, run_eq]
    cases hr : stage.feed q (stage.read r).1 with
    | stop outcome =>
      rw [hr] at hmove
      generalize stage'.feed q (stage'.read s).1 = move at hmove ⊢
      cases hmove with
      | stop houtcome => exact houtcome
    | on q' next =>
      have hlt := length_read_lt hr
      rw [hr] at hmove
      generalize stage'.feed q (stage'.read s).1 = move at hmove ⊢
      cases hmove with
      | on hnext => exact ih _ (by omega) hnext hbehind q' rfl

end Run

end Stage

end Questbook
