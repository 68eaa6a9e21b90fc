/-
Questbook.Proofs.TaskTable.Keyword — the keyword of a block is always known.

The loop over blocks has an error for a word that is neither `task` nor `event`. It
can never be raised: the loop over commands runs before it, takes every identifier
but these two for the name of a command, and so stops at one of the two or at no
identifier at all (`Reader.blockKind?_commands`). This holds before the first block
and behind each, since a block ends where its commands end
(`Reader.exists_commands_eq`). What another language would report as a misspelt label
is a command here.

To speak of all rounds of a loop, `Reader.Visits` collects the places where it looks
for its next item, and `Reader.CommandPlace` those where the loops over commands look
in one table. An identifier that is found at such a place is a command of the table
(`Reader.exists_among`). Not every line of the source starts at such a place: a comment
can take the line break in front of it along, and a label can be spread over lines
(`Questbook.Proofs.TaskTable.Lines`). `parse_knows_taskKeyword` is the main statement.
-/
import Questbook.Proofs.TaskTable.Lines
import Questbook.Proofs.TaskTable.Recursion

namespace Questbook

open Text

namespace Reader

/-! ## 1. Where a loop looks -/

section Visits

variable {α : Type} {item : Reader → Except ParseError (Option (α × Reader))}

/-- The places where a loop that starts at the first place looks for an item. -/
inductive Visits (item : Reader → Except ParseError (Option (α × Reader))) :
    Reader → Reader → Prop where
  | here (r : Reader) : Visits item r r
  | behind {r last place : Reader} {a : α} (h : item r = .ok (some (a, last)))
      (hplace : Visits item last place) : Visits item r place

variable {r place last : Reader} {a : α}
  {shorter : ∀ {r a last}, item r = .ok (some (a, last)) → last.rest.length < r.rest.length}

/-- What is found at one of these places is among the items of the loop. -/
theorem Visits.mem_list (h : Visits item r place) (hitem : item place = .ok (some (a, last))) :
    a ∈ (r.list item shorter).items := by
  induction h with
  | here r =>
    rw [list_of_some hitem]
    exact List.mem_cons_self
  | behind hfirst hplace ih =>
    rw [list_of_some hfirst]
    exact List.mem_cons_of_mem _ (ih hitem)

/-- A loop that fails has failed at one of these places. -/
theorem exists_visits_of_error {e : ParseError} (h : (r.list item shorter).ending = .error e) :
    ∃ place, Visits item r place ∧ item place = .error e := by
  fun_induction list item shorter r with
  | case1 r e' he =>
    cases h
    exact ⟨r, .here r, he⟩
  | case2 r hnone => cases h
  | case3 r a last hsome others ih =>
    obtain ⟨place, hplace, herror⟩ := ih h
    exact ⟨place, .behind hsome hplace, herror⟩

end Visits

/-- The next command, as a loop looks for it. Commands cannot fail. -/
def commandItem (r : Reader) : Except ParseError (Option (Command × Reader)) :=
  .ok r.command?

theorem mem_commands {r place last : Reader} {command : Command} (h : Visits commandItem r place)
    (hcommand : place.command? = some (command, last)) : command ∈ r.commands.1 := by
  induction h with
  | here r =>
    rw [commands_of_some hcommand]
    exact List.mem_cons_self
  | behind hfirst hplace ih =>
    rw [commands_of_some (Except.ok.inj hfirst)]
    exact List.mem_cons_of_mem _ (ih hcommand)

/-! ## 2. Where the commands stop -/

theorem command?_commands (r : Reader) : r.commands.2.command? = none := by
  fun_induction commands r with
  | case1 r command last h others last' heq ih => rwa [heq] at ih
  | case2 r h => exact h

/-- **Commands stop at a keyword or at no identifier.** -/
theorem blockKind?_commands {r : Reader} {word : String}
    (h : r.commands.2.next.1.lexeme = .identifier word) : (blockKind? word).isSome = true := by
  have hstop := command?_commands r
  cases hkind : blockKind? word with
  | some isEvent => rfl
  | none =>
    rw [command?_of_identifier h hkind] at hstop
    cases hstop

/-- A block ends where its commands do. -/
theorem exists_commands_of_block {isEvent : Bool} {r last : Reader} {task : Task}
    (h : r.block isEvent = .ok (task, last)) : ∃ before : Reader, before.commands.2 = last := by
  obtain ⟨e, -, hblock⟩ | ⟨name, behind, -, -, -, hblock⟩ := block_eq_of_label isEvent r
  · rw [hblock] at h
    cases h
  · rw [hblock] at h
    cases h
    exact ⟨behind.skipBreaks, rfl⟩

theorem exists_commands_of_block? {r last : Reader} {task : Task}
    (h : r.block? = .ok (some (task, last))) : ∃ before : Reader, before.commands.2 = last := by
  unfold block? at h
  split at h
  · split at h
    · next isEvent _ =>
      cases hblock : r.next.2.block isEvent with
      | error e => simp [hblock, Except.map] at h
      | ok found =>
        simp only [hblock, Except.map, Except.ok.injEq, Option.some.injEq] at h
        exact exists_commands_of_block (h ▸ hblock)
    · cases h
  · cases h

/-- Wherever the loop over blocks looks, commands have been read up to there. -/
theorem exists_commands_eq {r place : Reader} (h : Visits block? r.commands.2 place) :
    ∃ before : Reader, before.commands.2 = place := by
  generalize hstart : r.commands.2 = start at h
  induction h generalizing r with
  | here start => exact ⟨r, hstart⟩
  | behind hfirst hplace ih =>
    obtain ⟨before, hbefore⟩ := exists_commands_of_block? hfirst
    exact ih hbefore

/-! ## 3. Which errors there are -/

end Reader

/-- It is not the error of a word that should have been `task` or `event`. -/
def KnowsKeyword {α : Type} (outcome : Except ParseError α) : Prop :=
  ∀ keyword offset, outcome ≠ .error ⟨.unknownTaskKeyword keyword, offset⟩

theorem knowsKeyword_ok {α : Type} (a : α) : KnowsKeyword (.ok a) := by
  intro keyword offset h
  cases h

namespace KnowsKeyword

variable {α β : Type} {outcome : Except ParseError α}

/-- An error that is passed on stays the same error. -/
theorem of_error {e : ParseError} (h : KnowsKeyword outcome) (he : outcome = .error e) :
    KnowsKeyword (.error e : Except ParseError β) := by
  intro keyword offset heq
  cases heq
  exact h keyword offset he

theorem bind {f : α → Except ParseError β} (h : KnowsKeyword outcome)
    (hf : ∀ a, KnowsKeyword (f a)) : KnowsKeyword (outcome >>= f) := by
  cases outcome with
  | error e => exact h.of_error rfl
  | ok a => exact hf a

theorem map (h : KnowsKeyword outcome) (f : α → β) : KnowsKeyword (outcome.map f) := by
  cases outcome with
  | error e => exact h.of_error rfl
  | ok a => exact knowsKeyword_ok (f a)

end KnowsKeyword

namespace Reader

theorem knowsKeyword_take {α : Type} (expected : String) (accept : Token → Option α) (r : Reader) :
    KnowsKeyword (onward (r.take expected accept)) := by
  intro keyword offset
  rw [onward_take]
  split <;> simp [Token.unexpected]

theorem knowsKeyword_resource? (r : Reader) : KnowsKeyword r.resource? := by
  unfold resource?
  split
  · split
    · refine KnowsKeyword.map ?_ some
      refine (knowsKeyword_take _ _ _).bind fun mark => ?_
      exact (knowsKeyword_take _ _ _).bind fun id => knowsKeyword_ok _
    · exact knowsKeyword_ok none
  · exact knowsKeyword_ok none

theorem knowsKeyword_block (isEvent : Bool) (r : Reader) : KnowsKeyword (r.block isEvent) := by
  refine (knowsKeyword_take _ _ _).bind fun name => ?_
  exact (knowsKeyword_take _ _ _).bind fun mark => knowsKeyword_ok _

/-- Where commands have stopped, no word is unknown. -/
theorem knowsKeyword_block? (r : Reader) : KnowsKeyword r.commands.2.block? := by
  unfold block?
  split
  · next word hword =>
    obtain ⟨isEvent, hkind⟩ := Option.isSome_iff_exists.1 (blockKind?_commands hword)
    rw [hkind]
    exact (knowsKeyword_block isEvent _).map some
  · exact knowsKeyword_ok none

theorem knowsKeyword_list {α : Type} {item : Reader → Except ParseError (Option (α × Reader))}
    {shorter : ∀ {r a last}, item r = .ok (some (a, last)) → last.rest.length < r.rest.length}
    {r : Reader} (h : ∀ place, Visits item r place → KnowsKeyword (item place)) :
    KnowsKeyword (r.list item shorter).ending := by
  intro keyword offset he
  obtain ⟨place, hplace, herror⟩ := exists_visits_of_error he
  exact h place hplace keyword offset herror

theorem knowsKeyword_body (heading : Identifier) (r : Reader) :
    KnowsKeyword (r.body heading).ending := by
  unfold body
  split
  · exact knowsKeyword_ok _
  · exact knowsKeyword_ok _
  · exact knowsKeyword_list fun place _ => place.knowsKeyword_resource?
  · refine knowsKeyword_list fun place hplace => ?_
    obtain ⟨before, hbefore⟩ := exists_commands_eq hplace
    exact hbefore ▸ before.knowsKeyword_block?
  · intro keyword offset h
    cases h

theorem knowsKeyword_directive (r : Reader) : KnowsKeyword r.directive.ending := by
  have hword : KnowsKeyword (onward r.identifier) := knowsKeyword_take _ _ r
  unfold directive
  split
  · next e he => exact hword.of_error he
  · next word r₁ _ =>
    split
    · exact knowsKeyword_ok _
    · have hmark : KnowsKeyword (onward (r₁.expect scope)) := knowsKeyword_take _ _ r₁
      split
      · next e he => exact hmark.of_error he
      · exact knowsKeyword_body word _

theorem knowsKeyword_directives (r : Reader) : KnowsKeyword r.directives.ending := by
  fun_induction directives r with
  | case1 r hend => exact knowsKeyword_ok _
  | case2 r hend e he =>
    rw [← he]
    exact r.skipBreaks.knowsKeyword_directive
  | case3 r hend last hlast others ih => exact ih

/-! ## 4. Where commands are looked for -/

/-- The places where a command is looked for in a task table, when `table` is the place
behind its heading: on the main line, and behind the `:` of each label. -/
inductive CommandPlace (table : Reader) : Reader → Prop where
  | opening {place : Reader} (hplace : Visits commandItem table.skipBreaks place) :
      CommandPlace table place
  | body {here r₁ r₂ place : Reader} {keyword : String} {isEvent : Bool} {name : Identifier}
      (hhere : Visits block? table.skipBreaks.commands.2 here)
      (hkeyword : here.next.1.lexeme = .identifier keyword)
      (hkind : blockKind? keyword = some isEvent)
      (hname : onward here.next.2.identifier = .ok (name, r₁))
      (hmark : onward (r₁.expect scope) = .ok ((), r₂))
      (hplace : Visits commandItem r₂.skipBreaks place) : CommandPlace table place

/-- The command is on the main line or in one of the blocks. -/
def Among (command : Command) (opening : List Command) (blocks : List Task) : Prop :=
  command ∈ opening ∨ ∃ block ∈ blocks, command ∈ block.commands

/-- A command that is found there gets into the table. -/
theorem CommandPlace.among {table place last : Reader} {command : Command}
    (h : CommandPlace table place) (hcommand : place.command? = some (command, last)) :
    Among command table.skipBreaks.commands.1 table.skipBreaks.commands.2.blocks.items := by
  cases h with
  | opening hplace => exact .inl (mem_commands hplace hcommand)
  | @body here r₁ r₂ _ keyword isEvent name hhere hkeyword hkind hname hmark hplace =>
    have hblock : here.block? =
        .ok (some (⟨name.text, r₂.skipBreaks.commands.1, isEvent⟩, r₂.skipBreaks.commands.2)) := by
      simp [block?, hkeyword, hkind, block, hname, hmark, bind, Except.bind, pure, Except.pure,
        Except.map]
    exact .inr ⟨_, hhere.mem_list hblock, mem_commands hplace hcommand⟩

theorem blockKind?_eq_none {word : String} (htask : sameFold word "task" = false)
    (hevent : sameFold word "event" = false) : blockKind? word = none := by
  rw [blockKind?_eq, htask, hevent]
  rfl

theorem sameFold_of_blockKind? {word : String} (h : (blockKind? word).isSome = true) :
    sameFold word "task" = true ∨ sameFold word "event" = true := by
  rw [blockKind?_eq] at h
  by_cases htask : sameFold word "task" = true
  · exact .inl htask
  · by_cases hevent : sameFold word "event" = true
    · exact .inr hevent
    · simp [htask, hevent] at h

/-- Where a command is looked for, every identifier but the two keywords names one. -/
theorem exists_among {table : Reader} {heading : Identifier} (hqst : fold heading.text = "qst") :
    ∃ opening blocks, (table.body heading).items = [.stages opening blocks] ∧
      ∀ place, CommandPlace table place → ∀ word, place.next.1.lexeme = .identifier word →
        sameFold word "task" = false → sameFold word "event" = false →
        Among ⟨fold word, place.next.2.words.1⟩ opening blocks := by
  refine ⟨table.skipBreaks.commands.1, table.skipBreaks.commands.2.blocks.items, ?_, ?_⟩
  · rw [body, hqst]
    rfl
  · intro place hplace word hword htask hevent
    exact hplace.among (command?_of_identifier hword (blockKind?_eq_none htask hevent))

end Reader

open Extent Reader

/-- **The keyword of a block is always known.** No source gives the error of an
unknown one. Wherever the loop over the blocks of a table looks, the commands before
it have been read up to there, and an identifier that stands there is `task` or
`event`.

Every other identifier at the start of a line of a task table is the name of a command,
as far as the source is read. There are two exceptions. If a comment stands in front of
the line, with nothing but blanks and comments between it and a word of a command, the
identifier is one more argument of that command. And in a label that is spread over
lines it is a part of the label. -/
theorem parse_knows_taskKeyword :
    (∀ source, KnowsKeyword (Quest.parse source)) ∧
    (∀ (table : Reader) (heading : Identifier), fold heading.text = "qst" →
      (table.body heading).ending = table.skipBreaks.commands.2.blocks.ending ∧
      ∀ place, Visits block? table.skipBreaks.commands.2 place →
        (∃ before : Reader, before.commands.2 = place) ∧
        ∀ word, place.next.1.lexeme = .identifier word →
          sameFold word "task" = true ∨ sameFold word "event" = true) ∧
    ∀ (source : String) (table : State), (State.start source).Reaches table →
      table.stage.inTable = true →
      ∀ (lines indent rest : List Char) (t : Token) (word : String),
        table.reader.OpensLine lines indent rest t → t.lexeme = .identifier word →
        sameFold word "task" = false → sameFold word "event" = false →
        (∃ e, Quest.parse source = .error e ∧ e.offset < t.offset) ∨
        ∃ s : State, table.Reaches s ∧ s.token = t ∧
          (s.NamesCommand word ∧ (∀ q, Quest.parse source = .ok q →
              ∃ task ∈ q.tasks, ⟨fold word, s.behind.words.1⟩ ∈ task.commands) ∨
            s.AddsArgument word ∧ (∃ gap, gap <:+ lines ∧ EndsInComment gap ∧
              s.reader.rest = gap ++ '\n' :: (indent ++ rest)) ∨
            s.stage.inLabel = true) := by
  refine ⟨fun source => (ofSource source).knowsKeyword_directives.map _, ?_, ?_⟩
  · intro table heading hqst
    refine ⟨by rw [body, hqst]; rfl, fun place hplace => ?_⟩
    obtain ⟨before, rfl⟩ := exists_commands_eq hplace
    exact ⟨⟨before, rfl⟩, fun word hword => sameFold_of_blockKind? (blockKind?_commands hword)⟩
  · intro source table htable hstage lines indent rest t word hline hword htask hevent
    exact htable.opensLine hstage hline hword (blockKind?_eq_none htask hevent)

/-- A misspelt label is a command with the rest of the label for its arguments. -/
theorem parse_knows_taskKeyword_misspelt :
    ∃ (s : State) (q : Quest), (State.start "qst :\nTesk door :\nsound 2\n").Reaches s ∧
      s.token = ⟨.identifier "Tesk", 6⟩ ∧ s.NamesCommand "Tesk" ∧
      Quest.parse "qst :\nTesk door :\nsound 2\n" = .ok q ∧
      ∃ task ∈ q.tasks, ⟨"tesk", ["door", ":"]⟩ ∈ task.commands := by
  have hparse : Quest.parse "qst :\nTesk door :\nsound 2\n" =
      .ok { tasks := [.entryPoint [⟨"tesk", ["door", ":"]⟩, ⟨"sound", ["2"]⟩]] } :=
    Quest.parse_of_runFor (n := 20) (by cbv)
  have hreach : (State.start "qst :\nTesk door :\nsound 2\n").Reaches
      ⟨{}, .command [] (.entryPoint []), ⟨"\nTesk door :\nsound 2\n".toList, 5, false⟩⟩ :=
    .step rfl (.step rfl (.refl _))
  have hline : Reader.OpensLine ⟨"\nTesk door :\nsound 2\n".toList, 5, false⟩
      [] [] "Tesk door :\nsound 2\n".toList ⟨.identifier "Tesk", 6⟩ :=
    ⟨by decide, by simp, by decide, by decide⟩
  obtain ⟨e, herror, -⟩ | ⟨s, hs, htoken, hcases⟩ :=
    parse_knows_taskKeyword.2.2 _ _ hreach rfl _ _ _ _ "Tesk" hline rfl (by decide) (by decide)
  · rw [hparse] at herror
    cases herror
  refine ⟨s, _, hreach.trans hs, htoken, ?_, hparse, _, List.mem_cons_self, List.mem_cons_self⟩
  obtain ⟨hnames, -⟩ | ⟨-, gap, hgap, ⟨front, text, -, -, hopen⟩, -⟩ | hlabel := hcases
  · exact hnames
  · rw [List.suffix_nil.1 hgap] at hopen
    simp at hopen
  · -- No place in a label comes before the word, and behind it the word is passed.
    cases hs with
    | refl => cases hlabel
    | step hmove hs =>
      have hbreak : State.move ⟨{}, .command [] (.entryPoint []),
          ⟨"\nTesk door :\nsound 2\n".toList, 5, false⟩⟩ =
          .on {} (.command [] (.entryPoint [])) := rfl
      cases hbreak.symm.trans hmove
      cases hs with
      | refl => cases hlabel
      | step hmove hs =>
        have hle := Nat.le_trans hs.offset_le s.offset_le_token
        rw [htoken] at hle
        exact absurd (show 10 ≤ 6 from hle) (by decide)

/-- Behind a comment the first word of a line can be an argument. So it is not so that
every word there but `task` and `event` names a command. -/
theorem opensLine_not_command :
    ¬ ∀ (source : String) (table : State), (State.start source).Reaches table →
      table.stage.inTable = true →
      ∀ (lines indent rest : List Char) (t : Token) (word : String),
        table.reader.OpensLine lines indent rest t → t.lexeme = .identifier word →
        sameFold word "task" = false → sameFold word "event" = false →
        ∀ q, Quest.parse source = .ok q →
          ∃ task ∈ q.tasks, ∃ command ∈ task.commands, command.name = fold word := by
  intro h
  have hparse : Quest.parse "qst :\nmessage 5 $- c\nsound 2\n" =
      .ok { tasks := [.entryPoint [⟨"message", ["5", "sound", "2"]⟩]] } :=
    Quest.parse_of_runFor (n := 20) (by cbv)
  have hreach : (State.start "qst :\nmessage 5 $- c\nsound 2\n").Reaches
      ⟨{}, .command [] (.entryPoint []), ⟨"\nmessage 5 $- c\nsound 2\n".toList, 5, false⟩⟩ :=
    .step rfl (.step rfl (.refl _))
  have hline : Reader.OpensLine ⟨"\nmessage 5 $- c\nsound 2\n".toList, 5, false⟩
      "\nmessage 5 $- c".toList [] "sound 2\n".toList ⟨.identifier "sound", 21⟩ :=
    ⟨by decide, by simp, by decide, by decide⟩
  obtain ⟨task, htask, command, hcommand, hname⟩ :=
    h _ _ hreach rfl _ _ _ _ "sound" hline rfl (by decide) (by decide) _ hparse
  obtain rfl := List.mem_singleton.1 htask
  obtain rfl := List.mem_singleton.1 hcommand
  exact absurd hname (by decide)

end Questbook
