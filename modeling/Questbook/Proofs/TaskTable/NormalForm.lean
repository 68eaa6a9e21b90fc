/-
Questbook.Proofs.TaskTable.NormalForm — the tasks of a parsed quest have a normal form.

Whatever the source, its tasks can be printed as a task table, and that is read as the
same tasks (`Quest.parse_normalForm`). Nothing is assumed of them, so what makes them
printable has to come from how they were read.

Commands and labels are made of tokens that were read narrowly. So their words are such
as narrow reading finds, and behind a span that is never closed stands no word but `:`
(`Spaced.row`). Names of commands are put in small letters, and that makes no open span
and closes none. The tasks are read off the tokens by a recursion, and so it is enough to
follow that (`TaskTable.readable_tasks`). Which tokens these are depends on the source
in front of the task table; all that matters of it is that it ends in narrow reading
(`Quest.exists_read`).
-/
import Mathlib
import Questbook.Proofs.Grammar.Shape
import Questbook.Proofs.Source.Repeated
import Questbook.Proofs.Source.Tasks

namespace Questbook

open Text Extent Reader

/-! ## 1. Small letters -/

theorem isOpenSpan_map_toLower {text : List Char} (h : IsOpenSpan (text.map Char.toLower)) :
    IsOpenSpan text := by
  refine ⟨?_, fun c hc => ?_, fun front hfront hne => ?_, fun c hc => ?_⟩
  · have hhead := h.head
    rw [List.head?_map, Option.map_eq_some_iff] at hhead
    obtain ⟨c, hc, hlower⟩ := hhead
    rw [hc, (toLower_eq_iff (by decide)).1 hlower]
  · rw [← endsWord_toLower]
    exact h.plain _ (List.mem_map_of_mem hc)
  · have hnever := h.never (front.map Char.toLower) (hfront.map _) (by simpa using hne)
    rwa [count_map_toLower (by decide), count_map_toLower (by decide)] at hnever
  · rw [← isBlank_toLower]
    refine h.last _ ?_
    rw [List.getLast?_map, hc]
    rfl

/-- The words that narrow reading finds are those that are one word on their own. -/
theorem isNarrowWord_iff {word : String} : IsNarrowWord word.toList ↔ IsSingleWord word := by
  constructor
  · intro h
    have hstands : Stands word.toList [] := by
      rcases h with h | h
      · exact .argument h (by rintro _ ⟨⟩)
      · exact .openSpan h (by rintro _ ⟨⟩)
    have hend : (⟨[], 0 + size word.toList, false⟩ : Reader).tokens = [] := tokens_of_endOfFile rfl
    have htokens := hstands.tokens 0
    rw [List.append_nil, hend] at htokens
    exact ⟨_, htokens, by rw [h.word?_ofWord, String.ofList_toList]⟩
  · rintro ⟨t, htokens, hword⟩
    have hnext := (next_of_tokens_eq_cons htokens).1
    rw [← hnext] at hword
    exact (isNarrowWord_next rfl hword).2.imp id And.left

theorem Row.fold {word : String} {words : List String} (h : Row (word :: words))
    (hnumeral : Numeral.read? word.toList = none) : Row (fold word :: words) := by
  have hword : IsNarrowWord (Text.fold word).toList :=
    isNarrowWord_iff.2 (isSingleWord_fold (isNarrowWord_iff.1 (h.narrow word List.mem_cons_self))
      hnumeral)
  refine ⟨List.forall_mem_cons.2 ⟨hword, h.tail.narrow⟩, h.tail.chain.cons fun next hnext hopen => ?_⟩
  rw [toList_fold] at hopen
  exact h.chain.rel_head? hnext (isOpenSpan_map_toLower hopen)

/-! ## 2. Tokens in a row -/

theorem read?_of_ofWord {text : List Char} {word : String}
    (h : Lexeme.ofWord text = .identifier word) : Numeral.read? text = none := by
  rw [Lexeme.ofWord] at h
  split at h
  · cases h
  · assumption

theorem filterMap_word?_cons {t : Token} {word : String} (h : t.lexeme.word? = some word)
    (ts : List Token) :
    (t :: ts).filterMap (·.lexeme.word?) = word :: ts.filterMap (·.lexeme.word?) :=
  List.filterMap_cons_some h

namespace Spaced

variable {t : Token} {ts : List Token} {word : String}

/-- The words of tokens that are all words are a row. -/
theorem row (h : Spaced ts) (hts : ∀ t ∈ ts, t.isWord = true) :
    Row (ts.filterMap (·.lexeme.word?)) := by
  induction ts with
  | nil => exact ⟨by simp, .nil⟩
  | cons t ts ih =>
    obtain ⟨ht, hothers⟩ := List.forall_mem_cons.1 hts
    obtain ⟨word, hword⟩ := Option.isSome_iff_exists.1 ht
    have hrow := ih h.tail hothers
    rw [filterMap_word?_cons hword]
    refine ⟨List.forall_mem_cons.2 ⟨(h.words t List.mem_cons_self word hword).2, hrow.narrow⟩,
      hrow.chain.cons fun next hnext hopen => ?_⟩
    cases ts with
    | nil => cases hnext
    | cons s ts =>
      obtain ⟨other, hother⟩ := Option.isSome_iff_exists.1 (hothers s List.mem_cons_self)
      rw [filterMap_word?_cons hother] at hnext
      cases hnext
      exact h.chain.rel_head? rfl word next hword hopen hother

/-- An identifier is no numeral, and it is a word that narrow reading finds. -/
theorem identifier (h : Spaced ts) (ht : t ∈ ts) (hlexeme : t.lexeme = .identifier word) :
    IsNarrowWord word.toList ∧ Numeral.read? word.toList = none := by
  obtain ⟨hofWord, hnarrow⟩ := h.words t ht word (by rw [hlexeme]; rfl)
  rw [hlexeme] at hofWord
  exact ⟨hnarrow, read?_of_ofWord hofWord.symm⟩

/-- An identifier and the words behind it are a command that can be read back. -/
theorem readable (h : Spaced (t :: ts)) (hlexeme : t.lexeme = .identifier word)
    (hkind : blockKind? word = none) :
    Command.Readable ⟨fold word, (ts.takeWhile Token.isWord).filterMap (·.lexeme.word?)⟩ := by
  obtain ⟨-, hnumeral⟩ := h.identifier List.mem_cons_self hlexeme
  have hword : t.lexeme.word? = some word := by
    rw [hlexeme]
    rfl
  have hfront : t :: ts.takeWhile Token.isWord <+: t :: ts :=
    List.cons_prefix_cons.2 ⟨rfl, List.takeWhile_prefix _⟩
  have hrow := (h.of_isInfix hfront.isInfix).row (List.forall_mem_cons.2
    ⟨by simp [Token.isWord, hword], fun t ht => List.mem_takeWhile_imp ht⟩)
  rw [filterMap_word?_cons hword] at hrow
  refine ⟨hrow.fold hnumeral, ?_, fold_fold word, ?_⟩
  · rw [toList_fold, Numeral.read?_map_toLower, hnumeral]
  · rw [blockKind?, fold_fold]
    exact hkind

end Spaced

/-! ## 3. The recursion -/

namespace TaskTable

theorem behindBreaks_suffix {stop : Nat} {ts rest : List Token} {t : Token}
    (hhead : behindBreaks stop ts = (t, rest)) (h : t.lexeme ≠ .endOfFile) : t :: rest <:+ ts := by
  unfold behindBreaks at hhead
  split at hhead
  · cases hhead
    exact absurd rfl h
  · next hcons =>
    cases hhead
    rw [← hcons]
    exact List.dropWhile_suffix _

/-- An identifier at the head is the first of a line that was read narrowly. -/
theorem spaced_behindBreaks {stop : Nat} {ts rest : List Token} {t : Token} {word : String}
    (hts : Spaced ts) (hhead : behindBreaks stop ts = (t, rest))
    (hlexeme : t.lexeme = .identifier word) : Spaced (t :: rest) :=
  hts.of_isInfix (behindBreaks_suffix hhead (by simp [hlexeme])).isInfix

/-- A label names a task that can be read back. -/
theorem label_eq_ok {stop : Nat} {ts rest : List Token} {name : String} (hts : Spaced ts)
    (h : label stop ts = .ok (name, rest)) :
    IsNarrowWord name.toList ∧ Numeral.read? name.toList = none ∧ Spaced rest := by
  simp only [label] at h
  split at h
  · next hname =>
    split at h
    · next hmark =>
      cases h
      have hfirst := spaced_behindBreaks hts rfl hname
      obtain ⟨hnarrow, hnumeral⟩ := hfirst.identifier List.mem_cons_self hname
      exact ⟨hnarrow, hnumeral, (spaced_behindBreaks hfirst.tail rfl hmark).tail⟩
    · cases h
  · cases h

/-- **What the recursion makes of tokens can be read back.** -/
theorem readable_tasks {stop : Nat} {task : Task} {ts : List Token} {result : List Task}
    (hts : Spaced ts) (htask : ∀ c ∈ task.commands, c.Readable)
    (h : tasks stop task ts = .ok result) :
    ∃ commands blocks, result = { task with commands } :: blocks ∧
      (∀ c ∈ commands, c.Readable) ∧ ∀ block ∈ blocks, block.Readable := by
  refine tasks_induction (motive := fun task ts result => Spaced ts →
    (∀ c ∈ task.commands, c.Readable) →
    ∃ commands blocks, result = { task with commands } :: blocks ∧
      (∀ c ∈ commands, c.Readable) ∧ ∀ block ∈ blocks, block.Readable) ?_ ?_ ?_ h hts htask
  · intro task ts rest t _ _ _ htask
    exact ⟨task.commands, [], rfl, htask, List.forall_mem_nil _⟩
  · intro task ts rest t word result hhead hlexeme hkind ih hts htask
    have hline := spaced_behindBreaks hts hhead hlexeme
    have hcommand := hline.readable hlexeme hkind
    exact ih (hline.tail.of_isInfix (List.dropWhile_suffix _).isInfix)
      (List.forall_mem_append.2 ⟨htask, List.forall_mem_singleton.2 hcommand⟩)
  · intro task ts rest behind t word name isEvent result hhead hlexeme _ hlabel ih hts htask
    have hline := spaced_behindBreaks hts hhead hlexeme
    obtain ⟨hname, hnumeral, hbehind⟩ := label_eq_ok hline.tail hlabel
    obtain ⟨commands, blocks, rfl, hcommands, hblocks⟩ := ih hbehind (List.forall_mem_nil _)
    exact ⟨task.commands, _, rfl, htask,
      List.forall_mem_cons.2 ⟨⟨hname, hnumeral, hcommands⟩, hblocks⟩⟩

end TaskTable

/-! ## 4. The tokens of the task table -/

namespace Stage

/-- Nothing of a task table has been read. -/
def BeforeTable : Stage → Prop
  | command .. | arguments .. | label .. | labelMark .. => False
  | _ => True

end Stage

/-- The quest has no tasks yet, and none are read before a task table opens. -/
def Move.BeforeTable : Move → Prop
  | on q stage =>
    q.tasks = [.entryPoint []] ∧ (stage.BeforeTable ∨ stage = .command [] (.entryPoint []))
  | stop outcome => ∀ q, outcome = .ok q → q.tasks = [.entryPoint []]

namespace Stage

variable {q : Quest} {t : Token}

theorem feedDirective_beforeTable (hq : q.tasks = [.entryPoint []]) :
    (feedDirective q t).BeforeTable := by
  unfold feedDirective
  split
  · split
    · refine ⟨?_, .inl trivial⟩
      rw [Directive.applyTo]
      split <;> exact hq
    · exact ⟨hq, .inl trivial⟩
  · exact ⟨hq, .inl trivial⟩
  · rintro q ⟨⟩
    exact hq
  · rintro q ⟨⟩

theorem feedMark_beforeTable {here : Stage} {behind : Move} (hq : q.tasks = [.entryPoint []])
    (hhere : here.BeforeTable) (hbehind : behind.BeforeTable) :
    (feedMark q here behind t).BeforeTable := by
  unfold feedMark
  split
  · exact hbehind
  · exact ⟨hq, .inl hhere⟩
  · rintro q ⟨⟩

theorem behindHeading_beforeTable (hq : q.tasks = [.entryPoint []]) (word : Identifier) :
    (behindHeading q word).BeforeTable := by
  unfold behindHeading
  split
  · exact ⟨hq, .inl trivial⟩
  · exact ⟨hq, .inl trivial⟩
  · exact ⟨hq, .inl trivial⟩
  · exact ⟨hq, .inr rfl⟩
  · rintro q ⟨⟩

theorem feedEntry_beforeTable (hq : q.tasks = [.entryPoint []])
    (entries : List (Int64 × Resource)) : (feedEntry q entries t).BeforeTable := by
  unfold feedEntry
  split
  · exact ⟨hq, .inl trivial⟩
  · split
    · exact ⟨hq, .inl trivial⟩
    · exact feedDirective_beforeTable hq
  · exact feedDirective_beforeTable hq

theorem feedTitleLine_beforeTable (hq : q.tasks = [.entryPoint []]) (written : String) :
    (feedTitleLine q written t).BeforeTable := by
  unfold feedTitleLine
  split
  · exact ⟨hq, .inl trivial⟩
  · exact feedDirective_beforeTable hq

theorem feedTextLine_beforeTable (hq : q.tasks = [.entryPoint []]) (use : TextUse)
    (written : String) (pending : Nat) : (feedTextLine q use written pending t).BeforeTable := by
  unfold feedTextLine
  split
  · exact ⟨hq, .inl trivial⟩
  · split
    · cases use with
      | briefing => exact feedDirective_beforeTable hq
      | content entries kind id => exact feedEntry_beforeTable hq _
    · exact ⟨hq, .inl trivial⟩

/-- **One token.** Before a task table it leads to no tasks, and to a task table through
its heading only. -/
theorem feed_beforeTable {stage : Stage} (hq : q.tasks = [.entryPoint []])
    (hstage : stage.BeforeTable) : (stage.feed q t).BeforeTable := by
  cases stage with
  | directive => exact feedDirective_beforeTable hq
  | heading word => exact feedMark_beforeTable hq trivial (behindHeading_beforeTable hq word)
  | title =>
    simp only [feed]
    split
    · exact ⟨hq, .inl trivial⟩
    · exact feedTitleLine_beforeTable hq ""
  | titleLine written => exact feedTitleLine_beforeTable hq written
  | text use =>
    simp only [feed]
    split
    · exact ⟨hq, .inl trivial⟩
    · exact feedTextLine_beforeTable hq use "" 0
  | textLine use written pending => exact feedTextLine_beforeTable hq use written pending
  | entry entries => exact feedEntry_beforeTable hq entries
  | entryMark entries kind => exact feedMark_beforeTable hq trivial ⟨hq, .inl trivial⟩
  | entryNumber entries kind =>
    simp only [feed]
    split
    · exact ⟨hq, .inl trivial⟩
    · exact ⟨hq, .inl trivial⟩
    · rintro q ⟨⟩
  | _ => exact hstage.elim

end Stage

/-- The machine reads narrowly, and it is before the task table, or what comes of the
source is what comes of a task table. -/
structure State.Approaches (s : State) : Prop where
  narrow : s.reader.wide = false
  place : (s.quest.tasks = [.entryPoint []] ∧ s.stage.BeforeTable) ∨
    ∃ q r, r.wide = false ∧ s.run = (Stage.command [] (.entryPoint [])).run q r

theorem State.Approaches.step {s : State} {q : Quest} {stage : Stage}
    (hmove : s.move = .on q stage) (h : s.Approaches) : Approaches ⟨q, stage, s.behind⟩ := by
  have hnarrow : s.behind.wide = false := by rw [wide_behind, h.narrow]
  refine ⟨hnarrow, ?_⟩
  rcases h.place with ⟨hq, hstage⟩ | ⟨q', r, hr, hrun⟩
  · have hmoved : s.move.BeforeTable := Stage.feed_beforeTable hq hstage
    rw [hmove] at hmoved
    obtain ⟨hq, hstage | rfl⟩ := hmoved
    · exact .inl ⟨hq, hstage⟩
    · exact .inr ⟨q, s.behind, hnarrow, rfl⟩
  · exact .inr ⟨q', r, hr, by rw [← run_of_on hmove, hrun]⟩

/-! ## 5. Quests -/

namespace Quest

variable {source : String} {q : Quest}

/-- The tasks of a quest are read off tokens that were read narrowly. A quest without a
task table has those of an empty one. -/
theorem exists_read (h : Quest.parse source = .ok q) :
    ∃ r : Reader, r.wide = false ∧ TaskTable.read r.stop r.tokens = .ok q.tasks := by
  obtain ⟨s, hreaches, hstop⟩ := State.exists_reaches_stop (.start source)
  rw [← parse_eq_run, h] at hstop
  have happroaches := hreaches.invariant State.Approaches.step
    ⟨rfl, .inl ⟨rfl, trivial⟩⟩
  rcases happroaches.place with ⟨hq, hstage⟩ | ⟨q', r, hr, hrun⟩
  · have hmoved : s.move.BeforeTable := Stage.feed_beforeTable hq hstage
    rw [hstop] at hmoved
    refine ⟨⟨[], 0, false⟩, rfl, ?_⟩
    rw [hmoved q rfl]
    exact TaskTable.ofText_nil (.entryPoint []) 0
  · rw [State.run_of_stop hstop, run_table] at hrun
    refine ⟨r, hr, ?_⟩
    cases hread : TaskTable.read r.stop r.tokens with
    | error e =>
      rw [hread] at hrun
      cases hrun
    | ok tasks =>
      rw [hread] at hrun
      cases hrun
      rfl

/-- **Parsed tasks have a stable normal form.** The tasks of every quest that is read,
printed as a task table with one line for each command and each label and single spaces
between words, are read as the same tasks. -/
theorem parse_normalForm (h : Quest.parse source = .ok q) :
    Quest.parse (String.ofList (TaskTable.print q.tasks)) = .ok { tasks := q.tasks } := by
  obtain ⟨r, hr, hread⟩ := exists_read h
  obtain ⟨commands, blocks, htasks, hcommands, hblocks⟩ :=
    TaskTable.readable_tasks (spaced_tokens hr) (List.forall_mem_nil _) hread
  have hprinted := quest_printReadable hcommands hblocks {} 0
  rw [parse_eq, ofSource, String.toList_ofList, htasks]
  exact hprinted

/-- Names and arguments that are `:`, a closed span with blanks, spans that are cut off by
a `:` and by the end of a line, a number with a sign and zeros, and a name used twice. -/
theorem parse_normalForm_cut :
    ∃ q, Quest.parse
        "title: x\nqst: Say (a  b)+007 (c  :\n: (d\nEVENT (e:\ntask :: go :\nevent (e :" = .ok q ∧
      TaskTable.print q.tasks =
        "qst :\nsay (a  b) 7 (c :\n: (d\nevent (e :\ntask : :\ngo :\nevent (e :\n".toList ∧
      Quest.parse (String.ofList (TaskTable.print q.tasks)) = .ok { tasks := q.tasks } := by
  have hparse : Quest.parse
      "title: x\nqst: Say (a  b)+007 (c  :\n: (d\nEVENT (e:\ntask :: go :\nevent (e :" =
      .ok { title := "x", tasks := [
        .entryPoint [⟨"say", ["(a  b)", "7", "(c", ":"]⟩, ⟨":", ["(d"]⟩],
        ⟨"(e", [], true⟩, ⟨":", [⟨"go", [":"]⟩], false⟩, ⟨"(e", [], true⟩] } :=
    parse_of_runFor (n := 40) (by cbv)
  exact ⟨_, hparse, by decide, parse_normalForm hparse⟩

end Quest

end Questbook
