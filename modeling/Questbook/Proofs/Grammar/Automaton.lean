/-
Questbook.Proofs.Grammar.Automaton — the machine reads what the grammar reads.

For each stage there is a reader of the grammar that does its work in one call:
`textLine` for a title, `textBlock` for a block of text, `resources` and
`commands` for the tables. A run of the machine from that stage is the run of
that reader, with the machine taking over at the place it stops (`run_title`,
`run_text`, `run_entry`, `run_command`). The loops of the grammar call each
other, so these equations build on each other in the same order, and the last of
them is about whole sources (`Quest.parse_eq_run`).
-/
import Questbook.Proofs.Grammar.Stage
import Questbook.Proofs.TaskTable.Recursion

namespace Questbook

open Text

namespace Stage

/-! ## 1. Text -/

theorem run_titleLine (q : Quest) (written : String) (r : Reader) :
    (titleLine written).run q r =
      directive.run ((Directive.title (written ++ .join (r.widely Reader.words).1)).applyTo q)
        (r.widely Reader.words).2 := by
  induction hn : r.rest.length using Nat.strongRecOn generalizing written r with
  | ind n ih =>
    cases hword : (r.widely Reader.next).1.lexeme.word? with
    | some word =>
      have hlt := Reader.length_widely_next_lt (r := r)
        (by intro hend; rw [hend] at hword; cases hword)
      have hrest := ih _ (hn ▸ hlt) (written ++ word) (r.widely Reader.next).2 rfl
      rw [run_of_wide rfl, feed, feedTitleLine, hword, Reader.widely_words_of_word? hword]
      simp only [Move.resume, hrest, String.join_cons, String.append_assoc]
    | none =>
      rw [run_of_wide rfl, run_of_narrow rfl, Reader.widely_words_of_word?_eq_none hword,
        Reader.next_of_widely hword]
      simp [feed, feedTitleLine, hword]

theorem run_title (q : Quest) (r : Reader) :
    title.run q r = directive.run ((Directive.title r.textLine.1).applyTo q) r.textLine.2 := by
  rw [run_skipBreaks rfl]
  have hline : title.run q r.skipBreaks = (titleLine "").run q r.skipBreaks := by
    rw [run_of_wide rfl, run_of_wide rfl, feed, feed]
    split
    · next count hcount =>
      exact absurd hcount (Reader.lexeme_widely_next_ne r.lexeme_skipBreaks_ne count)
    · rfl
  rw [hline, run_titleLine, String.empty_append]
  rfl

/-- A block of text ends before the end of the file or behind a blank line. -/
theorem run_textLine (q : Quest) (use : TextUse) (written : String) (pending : Nat) (r : Reader) :
    (textLine use written pending).run q r =
      (behindText q (written ++ (r.widely (Reader.blockLines pending)).1) use).2.run
        (behindText q (written ++ (r.widely (Reader.blockLines pending)).1) use).1
        (r.widely (Reader.blockLines pending)).2 := by
  induction hn : r.rest.length using Nat.strongRecOn generalizing written pending r with
  | ind n ih =>
    rw [run_of_wide rfl, feed, feedTextLine]
    cases hlex : (r.widely Reader.next).1.lexeme with
    | identifier word =>
      have hlt := Reader.length_widely_next_lt (r := r) (by simp [hlex])
      rw [Reader.widely_blockLines_of_word? (by rw [hlex]; rfl)]
      simp only [Lexeme.word?, Move.resume]
      rw [ih _ (hn ▸ hlt) _ 0 _ rfl]
      simp only [String.append_assoc]
    | integer value =>
      have hlt := Reader.length_widely_next_lt (r := r) (by simp [hlex])
      rw [Reader.widely_blockLines_of_word? (by rw [hlex]; rfl)]
      simp only [Lexeme.word?, Move.resume]
      rw [ih _ (hn ▸ hlt) _ 0 _ rfl]
      simp only [String.append_assoc]
    | endOfFile =>
      rw [Reader.widely_blockLines_of_endOfFile hlex, run_behindText,
        Reader.next_of_widely (by rw [hlex]; rfl)]
      simp [Lexeme.word?]
    | lineBreaks count =>
      by_cases hblank : 2 ≤ count
      · rw [Reader.widely_blockLines_of_isBlankLine (by simp [hlex, Lexeme.isBlankLine, hblank])]
        simp [Lexeme.word?, Lexeme.isBlankLine, hblank, Move.resume,
          feedBehindText_of_lineBreaks hlex]
      · have hlt := Reader.length_widely_next_lt (r := r) (by simp [hlex])
        rw [Reader.widely_blockLines_of_lineBreak hlex (by omega)]
        simp only [Lexeme.word?, Lexeme.isBlankLine, hblank, Move.resume, reduceCtorEq,
          decide_false, Bool.false_eq_true, or_self, if_false]
        exact ih _ (hn ▸ hlt) written (pending + 1) _ rfl

theorem run_text (q : Quest) (use : TextUse) (r : Reader) :
    (text use).run q r =
      (behindText q r.textBlock.1 use).2.run (behindText q r.textBlock.1 use).1 r.textBlock.2 := by
  rw [run_skipBreaks rfl]
  have hline : (text use).run q r.skipBreaks = (textLine use "" 0).run q r.skipBreaks := by
    rw [run_of_wide rfl, run_of_wide rfl, feed, feed]
    split
    · next count hcount =>
      exact absurd hcount (Reader.lexeme_widely_next_ne r.lexeme_skipBreaks_ne count)
    · rfl
  rw [hline, run_textLine, String.empty_append]
  rfl

/-! ## 2. Marks and labels -/

section Mark

variable {q : Quest} {here : Stage} {behind : Move}

theorem run_mark (hnarrow : here.wide = false) (hbreaks : here.passesBreaks = true)
    (hfeed : ∀ t, here.feed q t = feedMark q here behind t) (r : Reader) :
    here.run q r = (Reader.onward (r.expect scope)).bind fun found => behind.resume found.2 := by
  rw [run_skipBreaks hbreaks, run_of_narrow hnarrow, hfeed, Reader.onward_expect_scope, feedMark]
  split
  · next hscope =>
    rw [if_pos hscope]
    rfl
  · next count hcount => exact absurd hcount (r.lexeme_skipBreaks_ne count)
  · next hscope hcount =>
    rw [if_neg hscope]
    rfl

end Mark

theorem run_label (q : Quest) (blocks : List Task) (isEvent : Bool) (r : Reader) :
    (label blocks isEvent).run q r =
      (Reader.onward r.identifier).bind fun found =>
        (labelMark blocks isEvent found.1.text).run q found.2 := by
  rw [run_skipBreaks rfl, run_of_narrow rfl, Reader.onward_identifier, feed]
  have hbreaks := r.lexeme_skipBreaks_ne
  revert hbreaks
  cases r.skipBreaks.next.1.lexeme with
  | lineBreaks count => exact fun hbreaks => absurd rfl (hbreaks count)
  | _ => exact fun _ => rfl

/-! ## 3. Tables -/

theorem run_entryNumber (q : Quest) (entries : List (Int64 × Resource)) (kind : ResourceKind)
    (r : Reader) :
    (entryNumber entries kind).run q r =
      (Reader.onward r.number).bind fun found =>
        (text (.content entries kind found.1)).run q found.2 := by
  rw [run_skipBreaks rfl, run_of_narrow rfl, Reader.onward_number, feed]
  have hbreaks := r.lexeme_skipBreaks_ne
  revert hbreaks
  cases r.skipBreaks.next.1.lexeme with
  | lineBreaks count => exact fun hbreaks => absurd rfl (hbreaks count)
  | _ => exact fun _ => rfl

/-- Behind the word for its kind, an entry is read on to the next one. -/
theorem run_entryMark (q : Quest) (entries : List (Int64 × Resource)) (kind : ResourceKind)
    (r : Reader) :
    (entryMark entries kind).run q r =
      (r.resource kind).bind fun found => (entry (entries ++ [found.1])).run q found.2 := by
  rw [run_mark rfl rfl fun t => rfl, Reader.resource]
  cases Reader.onward (r.expect scope) with
  | error e => rfl
  | ok found =>
    obtain ⟨mark, r₁⟩ := found
    show (entryNumber entries kind).run q r₁ = _
    rw [run_entryNumber]
    simp only [bind, Except.bind]
    cases Reader.onward r₁.number with
    | error e => rfl
    | ok found =>
      obtain ⟨id, r₂⟩ := found
      simp only [run_text, behindText]
      rw [run_skipBreaks rfl]
      rfl

/-- An entry is read with the line breaks behind it. -/
theorem skipBreaks_of_resource {kind : ResourceKind} {r last : Reader} {e : Int64 × Resource}
    (h : r.resource kind = .ok (e, last)) : last.skipBreaks = last := by
  unfold Reader.resource at h
  cases hscope : Reader.onward (r.expect scope) with
  | error e => simp [hscope, bind, Except.bind] at h
  | ok found =>
    obtain ⟨mark, r₁⟩ := found
    cases hid : Reader.onward r₁.number with
    | error e => simp [hscope, hid, bind, Except.bind] at h
    | ok found =>
      obtain ⟨id, r₂⟩ := found
      simp only [hscope, hid, bind, Except.bind, pure, Except.pure, Except.ok.injEq,
        Prod.mk.injEq] at h
      rw [← h.2, Reader.skipBreaks_skipBreaks]

/-- A resource table is read entry by entry; then comes the next directive. -/
theorem run_entry (q : Quest) (entries : List (Int64 × Resource)) (r : Reader) :
    (entry entries).run q r =
      r.skipBreaks.resources.ending.bind fun last =>
        directive.run ((Directive.resources (entries ++ r.skipBreaks.resources.items)).applyTo q)
          last := by
  induction hn : r.rest.length using Nat.strongRecOn generalizing entries r with
  | ind n ih =>
    have hstop (hfeed : feedEntry q entries r.skipBreaks.next.1 =
          feedDirective ((Directive.resources entries).applyTo q) r.skipBreaks.next.1)
        (hnone : r.skipBreaks.resource? = .ok none) :
        (entry entries).run q r =
          r.skipBreaks.resources.ending.bind fun last =>
            directive.run
              ((Directive.resources (entries ++ r.skipBreaks.resources.items)).applyTo q) last := by
      rw [run_skipBreaks rfl, run_of_narrow rfl, feed, hfeed, Reader.resources,
        Reader.list_of_none hnone, List.append_nil]
      exact (@run_of_narrow directive rfl _ _).symm
    cases hlex : r.skipBreaks.next.1.lexeme with
    | lineBreaks count => exact absurd hlex (r.lexeme_skipBreaks_ne count)
    | integer value => exact hstop (by simp [feedEntry, hlex]) (by simp [Reader.resource?, hlex])
    | endOfFile => exact hstop (by simp [feedEntry, hlex]) (by simp [Reader.resource?, hlex])
    | identifier word =>
      cases hkind : ResourceKind.ofKeyword? word with
      | none =>
        exact hstop (by simp [feedEntry, hlex, hkind]) (by simp [Reader.resource?, hlex, hkind])
      | some kind =>
        rw [run_skipBreaks rfl, run_of_narrow rfl, feed, feedEntry, hlex]
        simp only [hkind, Move.resume]
        rw [run_entryMark, Reader.resources]
        cases hentry : r.skipBreaks.next.2.resource kind with
        | error e =>
          rw [Reader.list_of_error (e := e)
            (by simp [Reader.resource?, hlex, hkind, hentry, Except.map])]
          rfl
        | ok found =>
          obtain ⟨e, last⟩ := found
          have hlt := Reader.length_next_lt (r := r.skipBreaks) (by simp [hlex])
          have hle := r.length_skipBreaks_le
          have hlast := Reader.length_resource_le hentry
          have hsome : r.skipBreaks.resource? = .ok (some (e, last)) := by
            simp [Reader.resource?, hlex, hkind, hentry, Except.map]
          rw [Reader.list_of_some hsome]
          have hrest := ih _ (by omega) (entries ++ [e]) last rfl
          rw [skipBreaks_of_resource hentry, List.append_assoc] at hrest
          exact hrest

/-- Behind its name, a command is read on to the end of its line. -/
theorem run_arguments (q : Quest) (blocks : List Task) (block : Task) (last : Command)
    (r : Reader) :
    (arguments blocks block last).run q r =
      (command blocks { block with
        commands := block.commands ++ [{ last with arguments := last.arguments ++ r.words.1 }] }).run
          q r.words.2 := by
  fun_induction Reader.words r generalizing last with
  | case1 r word hword others behind heq ih =>
    rw [run_of_narrow rfl, feed, feedArguments, hword]
    simp only [Move.resume]
    rw [ih, heq, List.append_assoc]
    rfl
  | case2 r hword =>
    rw [run_of_narrow rfl, feed, feedArguments, hword, List.append_nil]
    exact (@run_of_narrow (command _ _) rfl _ _).symm

/-- A task table is read command by command and block by block; then comes the
next directive. -/
theorem run_command (q : Quest) (blocks : List Task) (block : Task) (r : Reader) :
    (command blocks block).run q r =
      r.skipBreaks.commands.2.blocks.ending.bind fun last =>
        directive.run { q with tasks := blocks ++
          { block with commands := block.commands ++ r.skipBreaks.commands.1 } ::
            r.skipBreaks.commands.2.blocks.items } last := by
  -- The text gets shorter with every command and every label, not with every token.
  induction hn : r.rest.length using Nat.strongRecOn generalizing blocks block r with
  | ind n ih =>
    have hle := r.length_skipBreaks_le
    have hstop (hfeed : feedCommand q blocks block r.skipBreaks.next.1 =
          feedDirective (withTasks q blocks block) r.skipBreaks.next.1)
        (hno : ∀ word, r.skipBreaks.next.1.lexeme ≠ .identifier word) :
        (command blocks block).run q r =
          r.skipBreaks.commands.2.blocks.ending.bind fun last =>
            directive.run { q with tasks := blocks ++
              { block with commands := block.commands ++ r.skipBreaks.commands.1 } ::
                r.skipBreaks.commands.2.blocks.items } last := by
      obtain ⟨hcommands, hblocks, -⟩ := Reader.halted_of_ne_identifier hno
      rw [run_skipBreaks rfl, run_of_narrow rfl, feed, hfeed, hcommands]
      simp only [hblocks, List.append_nil]
      exact (@run_of_narrow directive rfl _ _).symm
    cases hlex : r.skipBreaks.next.1.lexeme with
    | lineBreaks count => exact absurd hlex (r.lexeme_skipBreaks_ne count)
    | integer value => exact hstop (by simp [feedCommand, hlex]) (by simp [hlex])
    | endOfFile => exact hstop (by simp [feedCommand, hlex]) (by simp [hlex])
    | identifier word =>
      have hlt := Reader.length_next_lt (r := r.skipBreaks) (by simp [hlex])
      rw [run_skipBreaks rfl, run_of_narrow rfl, feed, feedCommand, hlex]
      cases hkind : Reader.blockKind? word with
      | none =>
        have hwords := r.skipBreaks.next.2.length_words_le
        simp only [hkind, Move.resume]
        rw [run_arguments, ih _ (by omega) _ _ _ rfl,
          Reader.commands_of_some (Reader.command?_of_identifier hlex hkind)]
        simp
      | some isEvent =>
        simp only [hkind, Move.resume]
        rw [Reader.commands_of_none (Reader.command?_of_blockKind? hlex hkind), run_label,
          Reader.blocks]
        have hblock : r.skipBreaks.block? = (r.skipBreaks.next.2.block isEvent).map some := by
          simp [Reader.block?, hlex, hkind]
        rw [Reader.block] at hblock
        cases hname : Reader.onward r.skipBreaks.next.2.identifier with
        | error e =>
          rw [hname] at hblock
          rw [Reader.list_of_error hblock]
          rfl
        | ok name =>
          obtain ⟨name, r₁⟩ := name
          rw [hname] at hblock
          show (labelMark _ isEvent name.text).run q r₁ = _
          rw [run_mark rfl rfl fun t => rfl]
          cases hscope : Reader.onward (r₁.expect scope) with
          | error e =>
            simp only [bind, Except.bind, hscope] at hblock
            rw [Reader.list_of_error hblock]
            rfl
          | ok mark =>
            obtain ⟨mark, r₂⟩ := mark
            have hle₁ := Reader.length_onward_take_le hname
            have hle₂ := Reader.length_onward_take_le hscope
            simp only [bind, Except.bind, hscope] at hblock
            rw [Reader.list_of_some hblock]
            have hrest := ih _ (by omega) (blocks ++ [block]) { name := name.text, isEvent } r₂ rfl
            simp only [List.nil_append, List.append_assoc, List.singleton_append] at hrest
            rw [List.append_nil]
            exact hrest

/-! ## 4. Directives -/

/-- What stands under a heading is read to its end; then comes the next
directive. -/
theorem resume_behindHeading (q : Quest) (word : Identifier) (r : Reader) :
    (behindHeading q word).resume r =
      (r.body word).ending.bind fun last =>
        directive.run ((r.body word).items.foldl Directive.applyTo q) last := by
  by_cases htitle : fold word.text = "title"
  · rw [behindHeading, Reader.body, htitle]
    exact run_title q r
  by_cases hbriefing : fold word.text = "briefing"
  · rw [behindHeading, Reader.body, hbriefing]
    exact run_text q .briefing r
  by_cases hqrc : fold word.text = "qrc"
  · rw [behindHeading, Reader.body, hqrc]
    exact run_entry q [] r
  by_cases hqst : fold word.text = "qst"
  · rw [behindHeading, Reader.body, hqst]
    exact run_command q [] (.entryPoint []) r
  · simp only [behindHeading, Reader.body]
    rfl

theorem run_directive_step (q : Quest) {r : Reader} (h : r.skipBreaks.atEnd = false) :
    directive.run q r =
      r.skipBreaks.directive.ending.bind fun last =>
        directive.run (r.skipBreaks.directive.items.foldl Directive.applyTo q) last := by
  rw [run_skipBreaks rfl, run_of_narrow rfl, feed, feedDirective, Reader.directive,
    Reader.onward_identifier, Reader.skipBreaks_skipBreaks]
  have hbreaks := r.lexeme_skipBreaks_ne
  unfold Reader.atEnd Reader.peek at h
  revert hbreaks h
  cases r.skipBreaks.next.1.lexeme with
  | lineBreaks count => exact fun _ hbreaks => absurd rfl (hbreaks count)
  | endOfFile => exact fun h _ => absurd h (by decide)
  | integer value => exact fun _ _ => rfl
  | identifier word =>
    intro _ _
    simp only
    split
    · rfl
    · simp only [Move.resume]
      rw [run_mark rfl rfl fun t => rfl]
      cases Reader.onward (r.skipBreaks.next.2.expect scope) with
      | error e => rfl
      | ok mark => exact resume_behindHeading q _ mark.2

/-- The machine reads directives as the grammar does. -/
theorem run_directive (q : Quest) (r : Reader) : directive.run q r = r.directives.quest q := by
  induction hn : r.rest.length using Nat.strongRecOn generalizing q r with
  | ind n ih =>
    cases hend : r.skipBreaks.atEnd with
    | true =>
      have hlex : r.skipBreaks.next.1.lexeme = .endOfFile := by
        unfold Reader.atEnd Reader.peek at hend
        simpa using hend
      rw [Reader.quest_of_atEnd hend, run_skipBreaks rfl, run_of_narrow rfl, feed, feedDirective,
        hlex]
      rfl
    | false =>
      rw [run_directive_step q hend, Reader.quest_of_directive hend]
      cases hending : r.skipBreaks.directive.ending with
      | error e => rfl
      | ok last =>
        have hlt := Reader.length_directive_lt hending
        have hle := r.length_skipBreaks_le
        exact ih _ (by omega) _ last rfl

end Stage

/-- **The machine and the grammar make the same quest of every source**, or the
same error. -/
theorem Quest.parse_eq_run (source : String) :
    Quest.parse source = (State.start source).run := by
  rw [Quest.parse_eq, State.run, State.start, Stage.run_directive]

theorem Quest.parse_of_runFor {n : Nat} {source : String} {outcome : Except ParseError Quest}
    (h : Stage.runFor n {} .directive (.ofSource source) = some outcome) :
    Quest.parse source = outcome := by
  rw [Quest.parse_eq_run, State.run, State.start, Stage.run_of_runFor h]

end Questbook
