/-
Questbook.Proofs.Grammar.Shape — the shape of every quest that is read from a source.

Of all quests, those that come of a source have a certain shape (`Quest.Shaped`): the
first task is the entry point, the other names and all arguments are single words, the
names of commands are small and no keywords, and no white space stands around a text.
Whoever runs the quest can rely on this.

It is proved for the machine. What has been read of an unfinished piece has the shape
that the finished piece must have (`Stage.Shaped`), each token keeps that
(`Stage.feed_shaped`), and so it holds when the machine stops. A block of text needs one
thing more: line breaks are written only before a word and only behind one, so that they
never stand at an end.
-/
import Mathlib
import Questbook.Proofs.Grammar.Errors
import Questbook.Proofs.LetterCase.Token
import Questbook.Proofs.Reader.Alone
import Questbook.Quest.Finding

namespace Questbook

open Text

/-! ## 1. Shapes -/

/-- A command under a small name that opens no block, with single words behind it. -/
structure Command.Shaped (c : Command) : Prop where
  name : IsName c.name
  small : ∀ ch ∈ c.name.toList, ch.isUpper = false
  not_task : c.name ≠ "task"
  not_event : c.name ≠ "event"
  arguments : ∀ argument ∈ c.arguments, IsSingleWord argument

/-- Tasks that come of a task table. The first is the entry point, and the others have
names that an author can give. -/
structure TasksShaped (tasks : List Task) : Prop where
  entryPoint : ∃ opening, tasks.head? = some (.entryPoint opening)
  names : ∀ t ∈ tasks.tail, IsName t.name
  commands : ∀ t ∈ tasks, ∀ c ∈ t.commands, c.Shaped

/-- Contents that no white space stands around. -/
def EntriesShaped (entries : List (Int64 × Resource)) : Prop :=
  ∀ e ∈ entries, IsTrimmed e.2.content.toList

structure Quest.Shaped (q : Quest) : Prop where
  title : IsTrimmed q.title.toList
  title_line : ∀ c ∈ q.title.toList, c ≠ '\n'
  briefing : IsTrimmed q.briefing.toList
  resources : EntriesShaped q.resources.entries
  tasks : TasksShaped q.tasks

def TextUse.Shaped : TextUse → Prop
  | briefing => True
  | content entries _ _ => EntriesShaped entries

/-- What was read of the piece that the machine is in has the shape of the piece. -/
def Stage.Shaped : Stage → Prop
  | directive | heading _ | title => True
  | titleLine written => IsTrimmed written.toList ∧ ∀ c ∈ written.toList, c ≠ '\n'
  | text use => use.Shaped
  | textLine use written _ => use.Shaped ∧ IsTrimmed written.toList ∧ written.toList ≠ []
  | entry entries | entryMark entries _ | entryNumber entries _ => EntriesShaped entries
  | command blocks block => TasksShaped (blocks ++ [block])
  | arguments blocks block last => TasksShaped (blocks ++ [block]) ∧ last.Shaped
  | label blocks _ => TasksShaped blocks
  | labelMark blocks _ name => TasksShaped blocks ∧ IsName name

def Move.Shaped : Move → Prop
  | on q stage => q.Shaped ∧ stage.Shaped
  | stop outcome => ∀ q, outcome = .ok q → q.Shaped

/-! ## 2. Building pieces -/

theorem isTrimmed_nil : IsTrimmed [] :=
  ⟨by simp, by simp⟩

/-- Something between two texts does not get to an end. -/
theorem IsTrimmed.append {written word : List Char} (h : IsTrimmed written)
    (hword : IsTextWord word) (between : List Char) (hbetween : written = [] → between = []) :
    IsTrimmed (written ++ between ++ word) := by
  refine ⟨?_, ?_⟩
  · cases written with
    | nil =>
      rw [hbetween rfl]
      exact hword.trimmed.head
    | cons c written => exact h.head
  · intro c hc
    rw [List.getLast?_append, List.getLast?_eq_some_getLast hword.ne_nil, Option.some_or,
      ← List.getLast?_eq_some_getLast] at hc
    exact hword.trimmed.last c hc

theorem EntriesShaped.concat {entries : List (Int64 × Resource)} {content : String}
    (h : EntriesShaped entries) (hcontent : IsTrimmed content.toList) (kind : ResourceKind)
    (id : Int64) : EntriesShaped (entries ++ [(id, ⟨kind, content⟩)]) :=
  List.forall_mem_append.2 ⟨h, List.forall_mem_singleton.2 hcontent⟩

/-- A table has no entries but those of its list. -/
theorem Table.mem_of_mem_ofList {κ ν : Type} [Ord κ] [Std.TransOrd κ] {es : List (κ × ν)}
    {e : κ × ν} (h : e ∈ (Table.ofList es).entries) : e ∈ es := by
  have hfoldl (es : List (κ × ν)) (t : Table κ ν)
      (h : e ∈ (es.foldl (fun t e => t.insert e.1 e.2) t).entries) : e ∈ t.entries ∨ e ∈ es := by
    induction es generalizing t with
    | nil => exact .inl h
    | cons d es ih =>
      rcases ih (t.insert d.1 d.2) h with h | h
      · rcases Table.mem_insertEntry h with rfl | h
        · exact .inr List.mem_cons_self
        · exact .inl h
      · exact .inr (List.mem_cons_of_mem _ h)
  exact (hfoldl es ∅ h).resolve_left List.not_mem_nil

namespace TasksShaped

variable {blocks : List Task} {block : Task}

theorem entryPoint_nil : TasksShaped [.entryPoint []] :=
  ⟨⟨[], rfl⟩, by simp, by simp [Task.entryPoint]⟩

/-- The last block goes on with a command. -/
theorem concat_command {last : Command} (h : TasksShaped (blocks ++ [block]))
    (hlast : last.Shaped) :
    TasksShaped (blocks ++ [{ block with commands := block.commands ++ [last] }]) := by
  obtain ⟨⟨opening, hopening⟩, hnames, hcommands⟩ := h
  obtain ⟨hothers, hblock⟩ := List.forall_mem_append.1 hcommands
  have hlonger : ∀ c ∈ block.commands ++ [last], c.Shaped :=
    List.forall_mem_append.2 ⟨List.forall_mem_singleton.1 hblock, List.forall_mem_singleton.2 hlast⟩
  refine ⟨?_, ?_, ?_⟩
  · cases blocks with
    | nil =>
      cases hopening
      exact ⟨opening ++ [last], rfl⟩
    | cons first blocks => exact ⟨opening, hopening⟩
  · cases blocks with
    | nil => exact List.forall_mem_nil _
    | cons first blocks =>
      obtain ⟨hbefore, hname⟩ := List.forall_mem_append.1 hnames
      have hname' : IsName block.name := hname block (List.mem_singleton_self block)
      exact List.forall_mem_append.2 ⟨hbefore, List.forall_mem_singleton.2 hname'⟩
  · exact List.forall_mem_append.2 ⟨hothers, List.forall_mem_singleton.2 hlonger⟩

/-- A new block opens. -/
theorem concat_block {name : String} (h : TasksShaped blocks) (hname : IsName name)
    (isEvent : Bool) : TasksShaped (blocks ++ [⟨name, [], isEvent⟩]) := by
  obtain ⟨⟨opening, hopening⟩, hnames, hcommands⟩ := h
  cases blocks with
  | nil => cases hopening
  | cons first blocks =>
    have hblock : ∀ t ∈ [Task.mk name [] isEvent], IsName t.name ∧ ∀ c ∈ t.commands, c.Shaped :=
      List.forall_mem_singleton.2 ⟨hname, List.forall_mem_nil _⟩
    refine ⟨⟨opening, hopening⟩, ?_, ?_⟩
    · exact List.forall_mem_append.2 ⟨hnames, fun t ht => (hblock t ht).1⟩
    · exact List.forall_mem_append.2 ⟨hcommands, fun t ht => (hblock t ht).2⟩

end TasksShaped

theorem isSingleWord_fold {word : String} (h : IsSingleWord word)
    (hnumeral : Numeral.read? word.toList = none) : IsSingleWord (fold word) := by
  obtain ⟨⟨lexeme, offset⟩, htokens, hword⟩ := h
  refine ⟨Token.toSmall ⟨lexeme, offset⟩, ?_, ?_⟩
  · rw [tokenize_fold, htokens]
    rfl
  · cases lexeme with
    | identifier text =>
      cases hword
      rfl
    | integer value =>
      cases hword
      rw [Numeral.read?_render] at hnumeral
      cases hnumeral
    | _ => cases hword

theorem Command.Shaped.of_isName {word : String} (h : IsName word)
    (hkind : Reader.blockKind? word = none) : Command.Shaped ⟨Text.fold word, []⟩ := by
  refine ⟨⟨isSingleWord_fold h.single h.not_numeral, ?_⟩, ?_, ?_, ?_, by simp⟩
  · rw [toList_fold, Numeral.read?_map_toLower]
    exact h.not_numeral
  · intro ch hch
    rw [toList_fold] at hch
    obtain ⟨c, -, rfl⟩ := List.mem_map.1 hch
    exact isUpper_toLower c
  · intro (htask : Text.fold word = "task")
    rw [Reader.blockKind?, htask] at hkind
    cases hkind
  · intro (hevent : Text.fold word = "event")
    rw [Reader.blockKind?, hevent] at hkind
    cases hkind

theorem Quest.shaped_empty : Quest.Shaped {} :=
  ⟨isTrimmed_nil, by simp, isTrimmed_nil, by rintro e ⟨⟩, .entryPoint_nil⟩

theorem Quest.Shaped.applyTo_flag {q : Quest} (h : q.Shaped) (text : String) (offset : Nat) :
    ((Directive.flag text offset).applyTo q).Shaped := by
  simp only [Directive.applyTo]
  split
  · exact ⟨h.title, h.title_line, h.briefing, h.resources, h.tasks⟩
  · exact h

theorem Quest.Shaped.applyTo_resources {q : Quest} {entries : List (Int64 × Resource)}
    (h : q.Shaped) (hentries : EntriesShaped entries) :
    ((Directive.resources entries).applyTo q).Shaped :=
  ⟨h.title, h.title_line, h.briefing, fun e he => hentries e (Table.mem_of_mem_ofList he), h.tasks⟩

/-! ## 3. One token -/

namespace Stage

variable {q : Quest} {t : Token}

theorem feedDirective_shaped (hq : q.Shaped) : (feedDirective q t).Shaped := by
  unfold feedDirective
  split
  · split
    · exact ⟨hq.applyTo_flag _ _, trivial⟩
    · exact ⟨hq, trivial⟩
  · exact ⟨hq, trivial⟩
  · rintro q ⟨⟩
    exact hq
  · rintro q ⟨⟩

theorem feedMark_shaped {here : Stage} {behind : Move} (hq : q.Shaped) (hhere : here.Shaped)
    (hbehind : behind.Shaped) : (feedMark q here behind t).Shaped := by
  unfold feedMark
  split
  · exact hbehind
  · exact ⟨hq, hhere⟩
  · rintro q ⟨⟩

theorem behindHeading_shaped (hq : q.Shaped) (word : Identifier) :
    (behindHeading q word).Shaped := by
  unfold behindHeading
  split
  · exact ⟨hq, trivial⟩
  · exact ⟨hq, trivial⟩
  · exact ⟨hq, by simp [Shaped, EntriesShaped]⟩
  · exact ⟨hq, TasksShaped.entryPoint_nil⟩
  · rintro q ⟨⟩

theorem feedEntry_shaped {entries : List (Int64 × Resource)} (hq : q.Shaped)
    (hentries : EntriesShaped entries) : (feedEntry q entries t).Shaped := by
  unfold feedEntry
  split
  · exact ⟨hq, hentries⟩
  · split
    · exact ⟨hq, hentries⟩
    · exact feedDirective_shaped (hq.applyTo_resources hentries)
  · exact feedDirective_shaped (hq.applyTo_resources hentries)

theorem feedBehindText_shaped {use : TextUse} {written : String} (hq : q.Shaped)
    (huse : use.Shaped) (hwritten : IsTrimmed written.toList) :
    (feedBehindText q written t use).Shaped := by
  cases use with
  | briefing =>
    exact feedDirective_shaped ⟨hq.title, hq.title_line, hwritten, hq.resources, hq.tasks⟩
  | content entries kind id => exact feedEntry_shaped hq (huse.concat hwritten kind id)

theorem feedTitleLine_shaped {written : String} (ht : t.IsRead true) (hq : q.Shaped)
    (hwritten : IsTrimmed written.toList) (hline : ∀ c ∈ written.toList, c ≠ '\n') :
    (feedTitleLine q written t).Shaped := by
  unfold feedTitleLine
  split
  · next word hword =>
    have htext := ht.text word hword
    refine ⟨hq, ?_, ?_⟩
    · have hend := hwritten.append htext [] fun _ => rfl
      rwa [List.append_nil, ← String.toList_append] at hend
    · intro c hc
      rw [String.toList_append] at hc
      exact (List.mem_append.1 hc).elim (hline c) (htext.one_line c)
  · exact feedDirective_shaped ⟨hwritten, hline, hq.briefing, hq.resources, hq.tasks⟩

/-- Before the first word of a block there are no line breaks to be written. -/
theorem feedTextLine_shaped {use : TextUse} {written : String} {pending : Nat}
    (ht : t.IsRead true) (hq : q.Shaped) (huse : use.Shaped) (hwritten : IsTrimmed written.toList)
    (hempty : written.toList = [] → pending = 0 ∧ ∀ count, t.lexeme ≠ .lineBreaks count) :
    (feedTextLine q use written pending t).Shaped := by
  unfold feedTextLine
  split
  · next word hword =>
    have htext := ht.text word hword
    have hend := hwritten.append htext (List.replicate pending '\n') fun hnil => by
      rw [(hempty hnil).1]
      rfl
    refine ⟨hq, huse, ?_, ?_⟩
    · simpa using hend
    · simp [htext.ne_nil]
  · next hword =>
    split
    · exact feedBehindText_shaped hq huse hwritten
    · next hends =>
      refine ⟨hq, huse, hwritten, fun hnil => ?_⟩
      have hbreaks := (hempty hnil).2
      revert hword hends hbreaks
      cases t.lexeme <;> simp [Lexeme.word?]

theorem feedCommand_shaped {blocks : List Task} {block : Task} (ht : t.IsRead false)
    (hq : q.Shaped) (hblocks : TasksShaped (blocks ++ [block])) :
    (feedCommand q blocks block t).Shaped := by
  have hbetween : (feedDirective (withTasks q blocks block) t).Shaped :=
    feedDirective_shaped ⟨hq.title, hq.title_line, hq.briefing, hq.resources, hblocks⟩
  unfold feedCommand
  split
  · exact ⟨hq, hblocks⟩
  · next word hword =>
    split
    · exact ⟨hq, hblocks⟩
    · next hkind => exact ⟨hq, hblocks, .of_isName (ht.name rfl word hword) hkind⟩
  · exact hbetween

theorem feedArguments_shaped {blocks : List Task} {block : Task} {last : Command}
    (ht : t.IsRead false) (hq : q.Shaped) (hblocks : TasksShaped (blocks ++ [block]))
    (hlast : last.Shaped) : (feedArguments q blocks block last t).Shaped := by
  unfold feedArguments
  split
  · next word hword =>
    have hword' := List.forall_mem_singleton.2 (ht.single rfl word hword)
    exact ⟨hq, hblocks, hlast.name, hlast.small, hlast.not_task, hlast.not_event,
      List.forall_mem_append.2 ⟨hlast.arguments, hword'⟩⟩
  · exact feedCommand_shaped ht hq (hblocks.concat_command hlast)

/-- **One token.** What is read of a piece keeps its shape, and the quest too. -/
theorem feed_shaped {stage : Stage} (ht : t.IsRead stage.wide) (hq : q.Shaped)
    (hstage : stage.Shaped) : (stage.feed q t).Shaped := by
  cases stage with
  | directive => exact feedDirective_shaped hq
  | heading word => exact feedMark_shaped hq trivial (behindHeading_shaped hq word)
  | title =>
    simp only [feed]
    split
    · exact ⟨hq, trivial⟩
    · exact feedTitleLine_shaped ht hq isTrimmed_nil (by simp)
  | titleLine written => exact feedTitleLine_shaped ht hq hstage.1 hstage.2
  | text use =>
    simp only [feed]
    split
    · exact ⟨hq, hstage⟩
    · next hbreaks => exact feedTextLine_shaped ht hq hstage isTrimmed_nil fun _ => ⟨rfl, hbreaks⟩
  | textLine use written pending =>
    exact feedTextLine_shaped ht hq hstage.1 hstage.2.1 fun hnil => absurd hnil hstage.2.2
  | entry entries => exact feedEntry_shaped hq hstage
  | entryMark entries kind => exact feedMark_shaped hq hstage ⟨hq, hstage⟩
  | entryNumber entries kind =>
    simp only [feed]
    split
    · exact ⟨hq, hstage⟩
    · exact ⟨hq, hstage⟩
    · rintro q ⟨⟩
  | command blocks block => exact feedCommand_shaped ht hq hstage
  | arguments blocks block last => exact feedArguments_shaped ht hq hstage.1 hstage.2
  | label blocks isEvent =>
    simp only [feed]
    split
    · exact ⟨hq, hstage⟩
    · next name hname => exact ⟨hq, hstage, ht.name rfl name hname⟩
    · rintro q ⟨⟩
  | labelMark blocks isEvent name =>
    exact feedMark_shaped hq hstage ⟨hq, hstage.1.concat_block hstage.2 isEvent⟩

end Stage

/-! ## 4. Runs -/

/-- What holds of every state of the machine. -/
structure State.Shaped (s : State) : Prop where
  narrow : s.reader.wide = false
  quest : s.quest.Shaped
  stage : s.stage.Shaped

namespace State

variable {s : State}

theorem isRead_token (h : s.reader.wide = false) : s.token.IsRead s.stage.wide := by
  have hread := Reader.isRead_next (s.stage.tune s.reader)
  rw [Stage.tune, h, Bool.or_false] at hread
  rw [token, Stage.read_eq, Stage.tune, h, Bool.or_false]
  exact hread

theorem Shaped.move (h : s.Shaped) : s.move.Shaped :=
  Stage.feed_shaped (isRead_token h.narrow) h.quest h.stage

theorem Shaped.step {q : Quest} {stage : Stage} (hmove : s.move = .on q stage) (h : s.Shaped) :
    Shaped ⟨q, stage, s.behind⟩ := by
  have hmoved := h.move
  rw [hmove] at hmoved
  exact ⟨by rw [wide_behind]; exact h.narrow, hmoved.1, hmoved.2⟩

theorem shaped_start (source : String) : (start source).Shaped :=
  ⟨rfl, Quest.shaped_empty, trivial⟩

end State

/-! ## 5. Quests -/

theorem Finding.missingEntryPoint_not_mem_ofTasks (index : Nat) (names : List String)
    (tasks : List Task) : missingEntryPoint ∉ ofTasks index names tasks := by
  induction tasks generalizing index names with
  | nil => exact List.not_mem_nil
  | cons task tasks ih =>
    unfold ofTasks
    split
    · simp [ih]
    · split
      · simp [ih]
      · exact ih _ _

/-- The entry point is there, and no check reports it as missing. -/
theorem TasksShaped.not_missingEntryPoint {q : Quest} (h : TasksShaped q.tasks) :
    Finding.missingEntryPoint ∉ q.findings := by
  obtain ⟨opening, hopening⟩ := h.entryPoint
  have hfirst : (q.tasks.head?.map Task.isEntryPoint).getD false = true := by
    rw [hopening]
    rfl
  have hrest := Finding.missingEntryPoint_not_mem_ofTasks 1 [] q.tasks.tail
  rw [Quest.findings, if_pos hfirst]
  split <;> simp [hrest]

/-- **The shape of every quest that is read.** The first task is the entry point, so
that it can be asked for and is not reported as missing. Names of other tasks and of
commands, and arguments, are single words; names are no numerals, and the names of
commands are small and not those of blocks. No white space stands around the texts,
and a title is one line. -/
theorem Quest.parse_shaped {source : String} {q : Quest} (h : Quest.parse source = .ok q) :
    q.Shaped ∧ (∃ opening, q.entryPoint? = some (.entryPoint opening)) ∧
      Finding.missingEntryPoint ∉ q.findings := by
  obtain ⟨s, hreaches, hstop⟩ := State.exists_reaches_stop (.start source)
  rw [← Quest.parse_eq_run, h] at hstop
  have hmoved := (hreaches.invariant State.Shaped.step (State.shaped_start source)).move
  rw [hstop] at hmoved
  have hshaped := hmoved q rfl
  exact ⟨hshaped, hshaped.tasks.entryPoint, hshaped.tasks.not_missingEntryPoint⟩

/-- The title has lost the blank at its end and the number its sign, and the name of the
task is a parenthesis that is not closed. -/
theorem parse_shaped_unclosed :
    ∃ q, Quest.parse "title: a \nqst: Say +7\ntask (A b:" = .ok q ∧ q.title = "a" ∧
      q.tasks = [.entryPoint [⟨"say", ["7"]⟩], ⟨"(A b", [], false⟩] ∧ q.Shaped ∧
      (∃ opening, q.entryPoint? = some (.entryPoint opening)) ∧
      Finding.missingEntryPoint ∉ q.findings := by
  have hparse : Quest.parse "title: a \nqst: Say +7\ntask (A b:" =
      .ok { title := "a", tasks := [.entryPoint [⟨"say", ["7"]⟩], ⟨"(A b", [], false⟩] } :=
    Quest.parse_of_runFor (n := 20) (by cbv)
  exact ⟨_, hparse, rfl, rfl, Quest.parse_shaped hparse⟩

end Questbook
