/-
Questbook.Proofs.LetterCase.Machine — a source with small letters makes the small
quest.

Keywords are compared in several ways in the grammar, and each way is blind to letter
case. So the machine, when it is given a source whose capitals were made small, goes
through the same stages, and whatever it has stored is what it would have stored, made
small (`Stage.feed_toSmall` for one token, `Stage.run_toSmall` for a whole run). Two sources
that differ in letter case only become the same source that way, and their quests, or
their errors, have the same small form.
-/
import Mathlib
import Questbook.Proofs.Grammar.Automaton
import Questbook.Proofs.LetterCase.Quest

namespace Questbook

open Text

/-! ## 1. Small tokens -/

namespace Lexeme

theorem word?_toSmall (lexeme : Lexeme) : lexeme.toSmall.word? = lexeme.word?.map Text.fold := by
  cases lexeme with
  | integer value => simp [toSmall, word?, fold_render]
  | _ => rfl

theorem isBlankLine_toSmall (lexeme : Lexeme) :
    lexeme.toSmall.isBlankLine = lexeme.isBlankLine := by
  cases lexeme <;> rfl

/-- An error names the small token by the small text. -/
theorem describe_toSmall (lexeme : Lexeme) :
    lexeme.toSmall.describe = Text.fold lexeme.describe := by
  cases lexeme with
  | identifier text =>
    have hopen : Text.fold "identifier '" = "identifier '" := by decide
    have hclose : Text.fold "'" = "'" := by decide
    simp only [toSmall, describe, fold_append, toString, hopen, hclose]
  | integer value =>
    have hopen : Text.fold "integer " = "integer " := by decide
    simp only [toSmall, describe, fold_append, toString, hopen, fold_render]
  | lineBreaks count =>
    by_cases hone : count = 1
    · subst hone
      decide
    · have hclose : Text.fold " line breaks" = " line breaks" := by decide
      simp only [toSmall, describe, fold_append, toString, hclose, fold_repr]
  | endOfFile => decide

end Lexeme

theorem Token.unexpected_toSmall (expected : String) (t : Token) :
    t.toSmall.unexpected expected = (t.unexpected expected).toSmall := by
  simp only [unexpected, toSmall, ParseError.toSmall, Fault.toSmall, Lexeme.describe_toSmall]

/-! ## 2. Small stages -/

def TextUse.toSmall : TextUse → TextUse
  | briefing => briefing
  | content entries kind id => content (smallEntries entries) kind id

namespace Stage

/-- The same place in the grammar, with what was read made small. -/
def toSmall : Stage → Stage
  | directive => directive
  | heading word => heading { word with text := Text.fold word.text }
  | title => title
  | titleLine written => titleLine (Text.fold written)
  | text use => text use.toSmall
  | textLine use written pending => textLine use.toSmall (Text.fold written) pending
  | entry entries => entry (smallEntries entries)
  | entryMark entries kind => entryMark (smallEntries entries) kind
  | entryNumber entries kind => entryNumber (smallEntries entries) kind
  | command blocks block => command (blocks.map Task.toSmall) block.toSmall
  | arguments blocks block last => arguments (blocks.map Task.toSmall) block.toSmall last.toSmall
  | label blocks isEvent => label (blocks.map Task.toSmall) isEvent
  | labelMark blocks isEvent name => labelMark (blocks.map Task.toSmall) isEvent (Text.fold name)

theorem wide_toSmall (stage : Stage) : stage.toSmall.wide = stage.wide := by
  cases stage <;> rfl

end Stage

def Move.toSmall : Move → Move
  | on q stage => on q.toSmall stage.toSmall
  | stop outcome => stop (smallOutcome outcome)

namespace Stage

variable (q : Quest) (t : Token)

/-! ## 3. One token -/

/-- Both fail at their tokens. -/
theorem unexpected_toSmall (expected : String) :
    Move.stop (.error (t.toSmall.unexpected expected)) =
      (Move.stop (.error (t.unexpected expected))).toSmall := by
  rw [Token.unexpected_toSmall]
  rfl

/-- A word opens with `+` whether its letters are large or small. -/
theorem head?_fold_eq_plus (word : String) :
    (Text.fold word).toList.head? = some '+' ↔ word.toList.head? = some '+' := by
  rw [toList_fold, List.head?_map, Option.map_eq_some_iff]
  simp [toLower_eq_iff]

theorem feedDirective_toSmall :
    feedDirective q.toSmall t.toSmall = (feedDirective q t).toSmall := by
  obtain ⟨lexeme, offset⟩ := t
  cases lexeme with
  | identifier word =>
    simp only [feedDirective, Token.toSmall, Lexeme.toSmall, head?_fold_eq_plus]
    split
    · exact congrArg (Move.on · directive) (Directive.toSmall_applyTo (.flag word offset) q).symm
    · rfl
  | integer value => exact unexpected_toSmall ⟨.integer value, offset⟩ _
  | lineBreaks count => rfl
  | endOfFile => rfl

/-- A directive that ends at the token is taken into account first. -/
theorem feedDirective_applyTo_toSmall (d : Directive) :
    feedDirective (d.toSmall.applyTo q.toSmall) t.toSmall =
      (feedDirective (d.applyTo q) t).toSmall := by
  rw [← Directive.toSmall_applyTo]
  exact feedDirective_toSmall (d.applyTo q) t

theorem behindHeading_toSmall (word : Identifier) :
    behindHeading q.toSmall { word with text := Text.fold word.text } =
      (behindHeading q word).toSmall := by
  simp only [behindHeading, fold_fold]
  split <;> rfl

/-- Another word than `:` is an error where a `:` has to stand. -/
theorem feedMark_of_ne {word : String} (h : word ≠ ":") (q : Quest) (here : Stage)
    (behind : Move) (offset : Nat) :
    feedMark q here behind ⟨.identifier word, offset⟩ =
      .stop (.error (Token.unexpected "':'" ⟨.identifier word, offset⟩)) := by
  unfold feedMark
  split
  · next heq => exact absurd (Lexeme.identifier.inj heq) h
  · next heq => cases heq
  · rfl

theorem feedMark_toSmall (here : Stage) (behind : Move) :
    feedMark q.toSmall here.toSmall behind.toSmall t.toSmall =
      (feedMark q here behind t).toSmall := by
  obtain ⟨lexeme, offset⟩ := t
  cases lexeme with
  | identifier word =>
    by_cases hscope : word = ":"
    · subst hscope
      rfl
    · have hfold : Text.fold word ≠ ":" := mt eq_scope_of_fold_eq hscope
      rw [feedMark_of_ne hscope]
      exact (feedMark_of_ne hfold _ _ _ _).trans (unexpected_toSmall ⟨.identifier word, offset⟩ _)
  | integer value => exact unexpected_toSmall ⟨.integer value, offset⟩ _
  | lineBreaks count => rfl
  | endOfFile => exact unexpected_toSmall ⟨.endOfFile, offset⟩ _

theorem feedEntry_toSmall (entries : List (Int64 × Resource)) :
    feedEntry q.toSmall (smallEntries entries) t.toSmall = (feedEntry q entries t).toSmall := by
  have hbetween := feedDirective_applyTo_toSmall q t (.resources entries)
  obtain ⟨lexeme, offset⟩ := t
  cases lexeme with
  | identifier word =>
    have hkind : ResourceKind.ofKeyword? (Text.fold word) = ResourceKind.ofKeyword? word := by
      rw [ResourceKind.ofKeyword?, fold_fold, ResourceKind.ofKeyword?]
    simp only [feedEntry, Token.toSmall, Lexeme.toSmall, hkind]
    split
    · rfl
    · exact hbetween
  | lineBreaks count => rfl
  | _ => exact hbetween

theorem feedBehindText_toSmall (written : String) (use : TextUse) :
    feedBehindText q.toSmall (Text.fold written) t.toSmall use.toSmall =
      (feedBehindText q written t use).toSmall := by
  cases use with
  | briefing => exact feedDirective_applyTo_toSmall q t (.briefing written)
  | content entries kind id =>
    have hbetween := feedEntry_toSmall q t (entries ++ [(id, ⟨kind, written⟩)])
    rw [smallEntries, List.map_append] at hbetween
    exact hbetween

theorem feedTitleLine_toSmall (written : String) :
    feedTitleLine q.toSmall (Text.fold written) t.toSmall =
      (feedTitleLine q written t).toSmall := by
  rw [feedTitleLine, feedTitleLine, Token.toSmall, Lexeme.word?_toSmall]
  cases t.lexeme.word? with
  | some word => simp [Move.toSmall, toSmall, fold_append]
  | none => exact feedDirective_applyTo_toSmall q t (.title written)

theorem feedTextLine_toSmall (use : TextUse) (written : String) (pending : Nat) :
    feedTextLine q.toSmall use.toSmall (Text.fold written) pending t.toSmall =
      (feedTextLine q use written pending t).toSmall := by
  rw [feedTextLine, feedTextLine, Token.toSmall, Lexeme.word?_toSmall]
  cases t.lexeme.word? with
  | some word => simp [Move.toSmall, toSmall, fold_append, fold_newlines]
  | none =>
    simp only [Option.map_none, Lexeme.toSmall_eq_endOfFile, Lexeme.isBlankLine_toSmall]
    split
    · exact feedBehindText_toSmall q t written use
    · rfl

theorem feedCommand_toSmall (blocks : List Task) (block : Task) :
    feedCommand q.toSmall (blocks.map Task.toSmall) block.toSmall t.toSmall =
      (feedCommand q blocks block t).toSmall := by
  have hquest : (withTasks q blocks block).toSmall =
      withTasks q.toSmall (blocks.map Task.toSmall) block.toSmall := by
    simp [withTasks, Quest.toSmall]
  have hbetween := feedDirective_toSmall (withTasks q blocks block) t
  rw [hquest] at hbetween
  obtain ⟨lexeme, offset⟩ := t
  cases lexeme with
  | identifier word =>
    have hkind : Reader.blockKind? (Text.fold word) = Reader.blockKind? word := by
      rw [Reader.blockKind?, fold_fold, Reader.blockKind?]
    simp only [feedCommand, Token.toSmall, Lexeme.toSmall, hkind, fold_fold]
    split
    · simp [Move.toSmall, toSmall]
    · rfl
  | lineBreaks count => rfl
  | _ => exact hbetween

theorem feedArguments_toSmall (blocks : List Task) (block : Task) (last : Command) :
    feedArguments q.toSmall (blocks.map Task.toSmall) block.toSmall last.toSmall t.toSmall =
      (feedArguments q blocks block last t).toSmall := by
  rw [feedArguments, feedArguments, Token.toSmall, Lexeme.word?_toSmall]
  cases t.lexeme.word? with
  | some word => simp [Move.toSmall, toSmall, Command.toSmall]
  | none =>
    have hbehind :=
      feedCommand_toSmall q t blocks { block with commands := block.commands ++ [last] }
    rw [Task.toSmall, List.map_append] at hbehind
    exact hbehind

/-- **One token.** A small token leads a small stage to what the token leads the stage
to, made small. -/
theorem feed_toSmall (stage : Stage) :
    stage.toSmall.feed q.toSmall t.toSmall = (stage.feed q t).toSmall := by
  cases stage with
  | directive => exact feedDirective_toSmall q t
  | heading word =>
    have hmark := feedMark_toSmall q t (heading word) (behindHeading q word)
    rw [← behindHeading_toSmall] at hmark
    exact hmark
  | title =>
    have hline := feedTitleLine_toSmall q t ""
    obtain ⟨lexeme, offset⟩ := t
    cases lexeme with
    | lineBreaks count => rfl
    | _ => exact hline
  | titleLine written => exact feedTitleLine_toSmall q t written
  | text use =>
    have hline := feedTextLine_toSmall q t use "" 0
    obtain ⟨lexeme, offset⟩ := t
    cases lexeme with
    | lineBreaks count => rfl
    | _ => exact hline
  | textLine use written pending => exact feedTextLine_toSmall q t use written pending
  | entry entries => exact feedEntry_toSmall q t entries
  | entryMark entries kind => exact feedMark_toSmall q t _ (.on q (entryNumber entries kind))
  | entryNumber entries kind =>
    have hfail := unexpected_toSmall t "a number"
    obtain ⟨lexeme, offset⟩ := t
    cases lexeme with
    | lineBreaks count => rfl
    | integer id => rfl
    | _ => exact hfail
  | command blocks block => exact feedCommand_toSmall q t blocks block
  | arguments blocks block last => exact feedArguments_toSmall q t blocks block last
  | label blocks isEvent =>
    have hfail := unexpected_toSmall t "an identifier"
    obtain ⟨lexeme, offset⟩ := t
    cases lexeme with
    | lineBreaks count => rfl
    | identifier name => rfl
    | _ => exact hfail
  | labelMark blocks isEvent name =>
    exact feedMark_toSmall q t _ (.on q (command blocks { name, isEvent }))

/-! ## 4. Runs -/

theorem read_toSmall (stage : Stage) (r : Reader) :
    stage.toSmall.read r.toSmall = ((stage.read r).1.toSmall, (stage.read r).2.toSmall) := by
  rw [read, read, wide_toSmall]
  split
  · have hnext : ({ r.toSmall with wide := true } : Reader).next = _ :=
      Reader.next_toSmall { r with wide := true }
    rw [Reader.widely, hnext]
    rfl
  · exact Reader.next_toSmall r

/-- **A whole run.** The machine makes the small quest of a small source. -/
theorem run_toSmall (stage : Stage) (r : Reader) :
    stage.toSmall.run q.toSmall r.toSmall = smallOutcome (stage.run q r) := by
  fun_induction run q stage r with
  | case1 q stage r outcome hstop =>
    rw [run_eq, read_toSmall, feed_toSmall, hstop]
    rfl
  | case2 q stage r q' stage' hon ih =>
    rw [run_eq, read_toSmall, feed_toSmall, hon]
    exact ih

end Stage

/-- A source with its capitals made small makes the quest, or the error, with its
capitals made small. -/
theorem Quest.parse_fold (source : String) :
    parse (Text.fold source) = smallOutcome (parse source) := by
  have hrun := Stage.run_toSmall {} .directive (.ofSource source)
  rw [Reader.toSmall_ofSource] at hrun
  rw [parse_eq_run, parse_eq_run]
  exact hrun

/-- **Letter case of a source changes nothing but letter case.** Two sources that are
equal but for the case of ASCII letters both make quests or both fail. The quests are
the same but for the case of the letters in titles, texts, names of tasks and
arguments; the errors are of one kind and at one place. -/
theorem Quest.parse_respelled {source source' : String} (h : sameFold source source' = true) :
    OutcomeRespelled (parse source) (parse source') := by
  refine respelled_of_smallOutcome_eq ?_
  rw [← parse_fold, ← parse_fold, sameFold_iff.1 h]

/-- The name of the command becomes small, the argument and the name of the task stay as
they are spelled. -/
theorem parse_respelled_task :
    sameFold "qst: task A: Say Hi" "QST: TASK a: sAY hi" = true ∧
      OutcomeRespelled (Quest.parse "qst: task A: Say Hi") (Quest.parse "QST: TASK a: sAY hi") ∧
      Quest.parse "qst: task A: Say Hi" =
        .ok { tasks := [.entryPoint [], ⟨"A", [⟨"say", ["Hi"]⟩], false⟩] } ∧
      Quest.parse "QST: TASK a: sAY hi" =
        .ok { tasks := [.entryPoint [], ⟨"a", [⟨"say", ["hi"]⟩], false⟩] } := by
  have hsame : sameFold "qst: task A: Say Hi" "QST: TASK a: sAY hi" = true := by decide +kernel
  exact ⟨hsame, Quest.parse_respelled hsame, Quest.parse_of_runFor (n := 12) (by cbv),
    Quest.parse_of_runFor (n := 12) (by cbv)⟩

end Questbook
