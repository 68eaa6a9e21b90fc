/-
Questbook.Proofs.TaskTable.Lines — what a word at the start of a line of a task table
is read as.

A task table is read token by token, and a line of the source is nothing to the
reader but the line break in front of it. So a word at the start of a line is met
where that line break has led: between commands, where it is the name of a command or
a keyword, or inside a label, if the label is spread over lines. There is one way to
come to the word without the line break. A comment takes it along, and behind a word
of a command the next line is then read as more arguments.

`State.exists_reaches_line` is the walk to the word. It goes along the text in front
of the line, one token at a time, and the place stays in the table
(`Stage.feed_inTable`) or the source has an error there. What the word is read as
depends on the stage alone (`State.Reaches.opensLine`).
-/
import Questbook.Proofs.Grammar.Errors
import Questbook.Proofs.Grammar.Seam
import Questbook.Proofs.TaskTable.Source

namespace Questbook

open Text Extent Reader

/-! ## 1. Lines of a source -/

/-- The token is the first of a line. Between this place and the line stand `lines`, and
in the line nothing but blanks stands before the token. -/
structure Reader.OpensLine (r : Reader) (lines indent rest : List Char) (t : Token) : Prop where
  rest_eq : r.rest = lines ++ '\n' :: (indent ++ rest)
  blank : ∀ c ∈ indent, isBlank c = true
  place : t.offset = r.offset + size (lines ++ '\n' :: indent)
  first : (⟨rest, t.offset, false⟩ : Reader).next.1 = t

/-- No gap and no line break stands before a word that starts here. -/
theorem Reader.OpensLine.endsBreaks {r : Reader} {lines indent rest : List Char} {t : Token}
    {word : String} (h : r.OpensLine lines indent rest t) (hword : t.lexeme = .identifier word) :
    EndsBreaks rest := by
  have hfirst := h.first
  intro c hc
  obtain ⟨cs, rfl⟩ := List.head?_eq_some_iff.1 hc
  rw [isSpacing, Bool.or_eq_false_iff]
  constructor
  · rw [Bool.eq_false_iff]
    intro hblank
    have hle : t.offset + c.utf8Size ≤ t.offset := by
      rw [next_blank hblank] at hfirst
      calc t.offset + c.utf8Size
        _ ≤ (⟨cs, t.offset + c.utf8Size, false⟩ : Reader).next.1.offset := Nat.le_add_right _ _
        _ = t.offset := by rw [hfirst]
    have hpos := c.utf8Size_pos
    omega
  · rw [beq_eq_false_iff_ne]
    rintro rfl
    rw [next_newline] at hfirst
    rw [← hfirst] at hword
    cases hword

/-! ## 2. Places in a task table -/

namespace Stage

/-- In a task table. -/
def inTable : Stage → Bool
  | command .. | arguments .. | label .. | labelMark .. => true
  | _ => false

/-- Behind `task` or `event`, and before the `:`. -/
def inLabel : Stage → Bool
  | label .. | labelMark .. => true
  | _ => false

variable {stage : Stage} (h : stage.inTable = true) (q : Quest) {t : Token}

include h

theorem wide_of_inTable : stage.wide = false := by
  cases stage <;> first | rfl | cases h

/-- Line breaks end a command, or they are passed over. -/
theorem feed_lineBreaks_inTable {count : Nat} (ht : t.lexeme = .lineBreaks count) :
    ∃ next : Stage, next.inTable = true ∧ next.passesBreaks = true ∧
      stage.feed q t = .on q next := by
  cases stage with
  | command blocks block => exact ⟨_, rfl, rfl, feed_lineBreaks rfl q ht⟩
  | arguments blocks block last =>
    refine ⟨command blocks { block with commands := block.commands ++ [last] }, rfl, rfl, ?_⟩
    simp [feed, feedArguments, feedCommand, ht, Lexeme.word?]
  | label blocks isEvent => exact ⟨_, rfl, rfl, feed_lineBreaks rfl q ht⟩
  | labelMark blocks isEvent name => exact ⟨_, rfl, rfl, feed_lineBreaks rfl q ht⟩
  | _ => cases h

/-- **A task table goes on to the end of the file**, or it breaks off with an error. -/
theorem feed_inTable (ht : t.lexeme ≠ .endOfFile) :
    (∃ expected, stage.feed q t = .stop (.error (t.unexpected expected))) ∨
      ∃ next : Stage, next.inTable = true ∧ stage.feed q t = .on q next := by
  have hcommand (blocks : List Task) (block : Task) :
      (∃ expected, feedCommand q blocks block t = .stop (.error (t.unexpected expected))) ∨
        ∃ next : Stage, next.inTable = true ∧ feedCommand q blocks block t = .on q next := by
    unfold feedCommand
    split
    · exact .inr ⟨_, rfl, rfl⟩
    · split <;> exact .inr ⟨_, rfl, rfl⟩
    · next hbreaks hword =>
      left
      unfold feedDirective
      split
      · next word hidentifier => exact absurd hidentifier (hword word)
      · next count hcount => exact absurd hcount (hbreaks count)
      · next hend => exact absurd hend ht
      · exact ⟨_, rfl⟩
  cases stage with
  | command blocks block => exact hcommand blocks block
  | arguments blocks block last =>
    simp only [feed, feedArguments]
    split
    · exact .inr ⟨_, rfl, rfl⟩
    · exact hcommand blocks _
  | label blocks isEvent =>
    simp only [feed]
    split
    · exact .inr ⟨_, rfl, rfl⟩
    · exact .inr ⟨_, rfl, rfl⟩
    · exact .inl ⟨_, rfl⟩
  | labelMark blocks isEvent name =>
    simp only [feed, feedMark]
    split
    · exact .inr ⟨_, rfl, rfl⟩
    · exact .inr ⟨_, rfl, rfl⟩
    · exact .inl ⟨_, rfl⟩
  | _ => cases h

omit h

/-- The commands of a block stay where they are when the table is read on. -/
theorem exists_tasks_of_run_command {q q' : Quest} {blocks : List Task} {block : Task} {r : Reader}
    (hrun : (command blocks block).run q r = .ok q') :
    ∃ more others,
      q'.tasks = blocks ++ { block with commands := block.commands ++ more } :: others := by
  have htasks := tasks_tokens r block
  rw [run_command] at hrun
  revert hrun htasks
  cases r.skipBreaks.commands.2.blocks.ending with
  | error e => exact fun hrun => nomatch hrun
  | ok last =>
    rintro hrun ⟨hhalted, -⟩
    rw [Except.bind, run_directive, directives_of_halted hhalted, Run.quest] at hrun
    cases hlast : last.halt with
    | error e =>
      rw [hlast] at hrun
      cases hrun
    | ok done =>
      rw [hlast] at hrun
      cases hrun
      exact ⟨_, _, rfl⟩

end Stage

namespace State

variable {s t : State}

theorem Reaches.trans {u : State} (h : s.Reaches t) (h' : t.Reaches u) : s.Reaches u := by
  induction h with
  | refl s => exact h'
  | step hmove hlast ih => exact .step hmove (ih h')

/-- The token that stands next stands at the place or behind it. -/
theorem offset_le_token (s : State) : s.reader.offset ≤ s.token.offset := by
  rw [token, Stage.read_eq]
  exact Nat.le_add_right _ _

theorem Reaches.offset_le (h : s.Reaches t) : s.reader.offset ≤ t.reader.offset := by
  induction h with
  | refl s => exact Nat.le_refl _
  | @step s t q stage hmove hlast ih =>
    have hle := (s.stage.tune s.reader).offset_next_le
    have hbehind : s.behind.offset = (s.stage.tune s.reader).next.2.offset := by
      rw [behind, Stage.read_eq]
    have htoken : s.reader.offset ≤ (s.stage.tune s.reader).next.1.offset := Nat.le_add_right _ _
    simp only at ih
    omega

/-! ## 3. The walk to the start of a line -/

/-- **The reader comes to the start of the line, or it breaks off before.** If it comes
there in the middle of a command, a comment has taken the line break along. -/
theorem exists_reaches_line {q : Quest} {stage : Stage} (hstage : stage.inTable = true)
    {indent rest : List Char} (hindent : ∀ c ∈ indent, isBlank c = true)
    (hrest : EndsBreaks rest) (lines : List Char) (offset : Nat) :
    ∃ t : State, Reaches ⟨q, stage, ⟨lines ++ '\n' :: (indent ++ rest), offset, false⟩⟩ t ∧
      ((∃ e, t.move = .stop (.error e) ∧ e.offset < offset + size (lines ++ '\n' :: indent)) ∨
        t.stage.inTable = true ∧
        t.reader.toToken =
          (⟨rest, offset + size (lines ++ '\n' :: indent), false⟩ : Reader).toToken ∧
        (t.stage.passesBreaks = true ∨ ∃ gap, gap <:+ lines ∧ EndsInComment gap ∧
          t.reader.rest = gap ++ '\n' :: (indent ++ rest))) := by
  induction hn : lines.length using Nat.strongRecOn generalizing lines q stage offset with
  | ind n ih =>
    cases seam lines offset stage.wide with
    | comment hopen hgap =>
      refine ⟨_, .refl _, .inr ⟨hstage, ?_, .inr ⟨lines, List.suffix_rfl, hopen, rfl⟩⟩⟩
      have hline := toToken_gap hgap (indent ++ rest) offset false
      rw [List.append_assoc, List.singleton_append] at hline
      have hgap' : IsGap false indent := by
        rw [← List.append_nil indent]
        exact IsGap.nil.blanks hindent
      rw [hline, toToken_gap hgap', Nat.add_assoc, ← size_append, List.append_assoc,
        List.singleton_append]
    | @breaks gap spacing hsplit hgap hspacing =>
      have hall : ∀ c ∈ spacing ++ indent, isSpacing c = true := by
        intro c hc
        refine (List.mem_append.1 hc).elim (hspacing c) fun hc => ?_
        rw [isSpacing, hindent c hc, Bool.true_or]
      have hread := read_breaks hgap hall hrest stage offset
      rw [← append_of_breaks hsplit, List.append_assoc, ← append_of_breaks hsplit] at hread
      obtain ⟨next, hnext, hpass, hfeed⟩ := Stage.feed_lineBreaks_inTable hstage q
        (t := ⟨.lineBreaks ((spacing ++ indent).count '\n' + 1), offset + size gap⟩) rfl
      refine ⟨⟨q, next, ⟨rest, offset + size (lines ++ '\n' :: indent), false⟩⟩, ?_,
        .inr ⟨hnext, rfl, .inl hpass⟩⟩
      exact .of_read hread hfeed (.refl _)
    | @token u others offset' hne hlt hplace hnext =>
      have hread := Stage.read_of_next (hnext (indent ++ rest))
      have hseam := add_size_append hplace ('\n' :: indent)
      obtain ⟨expected, hfeed⟩ | ⟨next, hinside, hfeed⟩ := Stage.feed_inTable hstage q hne
      · refine ⟨_, .refl _, .inl ⟨u.unexpected expected, ?_, ?_⟩⟩
        · rw [move, token, hread]
          exact hfeed
        · have hle := (⟨lines ++ '\n' :: (indent ++ rest), offset, stage.wide⟩ :
            Reader).offset_next_le
          rw [hnext (indent ++ rest)] at hle
          rw [← hseam, size_append, size_cons]
          show u.offset < _
          simp only at hle
          have hpos : 0 < '\n'.utf8Size := Char.utf8Size_pos _
          omega
      · obtain ⟨t, hreach, ht⟩ := ih _ (hn ▸ hlt) (q := q) hinside others offset' rfl
        refine ⟨t, hreach.of_read hread hfeed, ?_⟩
        rw [← hseam]
        obtain herror | ⟨hinside, htoken, hpass | ⟨gap, hgap, hopen⟩⟩ := ht
        · exact .inl herror
        · exact .inr ⟨hinside, htoken, .inl hpass⟩
        · exact .inr ⟨hinside, htoken, .inr ⟨gap, hgap.trans (suffix_of_next (hnext [])), hopen⟩⟩

/-! ## 4. What the word is read as -/

/-- The word that stands next is taken for the name of a command. -/
def NamesCommand (s : State) (word : String) : Prop :=
  ∃ blocks block, s.stage = .command blocks block ∧
    s.move = .on s.quest (.arguments blocks block ⟨fold word, []⟩)

/-- The word that stands next is taken for one more argument of a command. -/
def AddsArgument (s : State) (word : String) : Prop :=
  ∃ blocks block last, s.stage = .arguments blocks block last ∧
    s.move = .on s.quest
      (.arguments blocks block { last with arguments := last.arguments ++ [word] })

/-- Between commands, every word but `task` and `event` names a command. -/
theorem namesCommand {blocks : List Task} {block : Task} {word : String}
    (hstage : s.stage = .command blocks block) (hword : s.token.lexeme = .identifier word)
    (hkind : blockKind? word = none) : s.NamesCommand word := by
  refine ⟨blocks, block, hstage, ?_⟩
  rw [move, hstage, Stage.feed, Stage.feedCommand, hword]
  simp only [hkind]

theorem addsArgument {blocks : List Task} {block : Task} {last : Command} {word : String}
    (hstage : s.stage = .arguments blocks block last)
    (hword : s.token.lexeme = .identifier word) : s.AddsArgument word := by
  refine ⟨blocks, block, last, hstage, ?_⟩
  rw [move, hstage, Stage.feed, Stage.feedArguments, hword]
  rfl

/-- A command that has been begun is in the quest, with the words behind its name. -/
theorem NamesCommand.exists_mem {word : String} (h : s.NamesCommand word) {q : Quest}
    (hrun : s.run = .ok q) :
    ∃ task ∈ q.tasks, ⟨fold word, s.behind.words.1⟩ ∈ task.commands := by
  obtain ⟨blocks, block, -, hmove⟩ := h
  rw [run_of_on hmove] at hrun
  have hcommand : (Stage.arguments blocks block ⟨fold word, []⟩).run s.quest s.behind = .ok q :=
    hrun
  rw [Stage.run_arguments, List.nil_append] at hcommand
  obtain ⟨more, others, htasks⟩ := Stage.exists_tasks_of_run_command hcommand
  rw [htasks]
  exact ⟨_, List.mem_append_right _ List.mem_cons_self, by simp⟩

/-- **A word at the start of a line of a task table**, other than `task` and `event`. If
the source is read that far, the word is the name of a command, but for two exceptions:
the line before ends in a comment right behind a word of a command, and then the word is
one more argument; or the line stands inside a label. -/
theorem Reaches.opensLine {source : String} {table : State}
    (htable : (start source).Reaches table) (hstage : table.stage.inTable = true)
    {lines indent rest : List Char} {t : Token} {word : String}
    (hline : table.reader.OpensLine lines indent rest t) (hword : t.lexeme = .identifier word)
    (hkind : blockKind? word = none) :
    (∃ e, Quest.parse source = .error e ∧ e.offset < t.offset) ∨
      ∃ s : State, table.Reaches s ∧ s.token = t ∧
        (s.NamesCommand word ∧ (∀ q, Quest.parse source = .ok q →
            ∃ task ∈ q.tasks, ⟨fold word, s.behind.words.1⟩ ∈ task.commands) ∨
          s.AddsArgument word ∧ (∃ gap, gap <:+ lines ∧ EndsInComment gap ∧
            s.reader.rest = gap ++ '\n' :: (indent ++ rest)) ∨
          s.stage.inLabel = true) := by
  have hnarrow := (htable.invariant Placed.step (placed_start source)).narrow
  obtain ⟨q, stage, ⟨cs, offset, wide⟩⟩ := table
  obtain rfl : wide = false := hnarrow
  obtain rfl : cs = _ := hline.rest_eq
  have hplace := hline.place
  obtain ⟨s, hreach, hs⟩ :=
    exists_reaches_line (q := q) hstage hline.blank (hline.endsBreaks hword) lines offset
  rw [← show t.offset = offset + _ from hplace] at hs
  have hparse : Quest.parse source = s.run := by
    rw [Quest.parse_eq_run, (htable.trans hreach).run_eq]
  obtain ⟨e, hmove, hlt⟩ | ⟨hinside, htoken, hcases⟩ := hs
  · exact .inl ⟨e, by rw [hparse, run_of_stop hmove], hlt⟩
  right
  have hfirst : s.token = t := by
    rw [(token_of_narrow (Stage.wide_of_inTable hinside)).1, ← next_toToken, htoken, next_toToken]
    exact hline.first
  rw [← hfirst] at hword
  refine ⟨s, hreach, hfirst, ?_⟩
  cases hs : s.stage with
  | command blocks block =>
    have hnames := namesCommand hs hword hkind
    exact .inl ⟨hnames, fun q hq => hnames.exists_mem (by rw [← hparse, hq])⟩
  | arguments blocks block last =>
    rw [hs] at hcases
    exact .inr (.inl ⟨addsArgument hs hword, hcases.resolve_left (by simp [Stage.passesBreaks])⟩)
  | label blocks isEvent => exact .inr (.inr rfl)
  | labelMark blocks isEvent name => exact .inr (.inr rfl)
  | _ =>
    rw [hs] at hinside
    cases hinside

end State

end Questbook
