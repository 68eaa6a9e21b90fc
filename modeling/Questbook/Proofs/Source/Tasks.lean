/-
Questbook.Proofs.Source.Tasks — a printed task table is read back.

The recursion over the tokens of a table (`TaskTable.tasks`) is followed along
the printed text. `TaskTable.ofText task cs offset` is what it makes of the text
`cs` with `task` open, and the lemmas take one printed piece at a time off the
front of the text: a command goes to the open task (`ofText_command`), a label
opens the next one (`ofText_label`).

What a line has to be like for that is `Row`: its words are such as narrow reading
finds, and behind a span that is never closed stands no word but `:`. The names and
arguments of a printable quest are a row in any order, since none of them is such a
span (`Command.Printable.readable`).
-/
import Questbook.Proofs.Reader.Narrow
import Questbook.Proofs.Source.Print
import Questbook.Proofs.TaskTable.Source

namespace Questbook

open Text Reader

/-! ## 1. Words in a row -/

/-- Words as they can stand behind each other in a line. -/
structure Row (words : List String) : Prop where
  narrow : ∀ word ∈ words, IsNarrowWord word.toList
  chain : words.IsChain fun span word => IsOpenSpan span.toList → word = ":"

namespace Row

variable {word : String} {words : List String}

theorem tail (h : Row (word :: words)) : Row words :=
  ⟨fun w hw => h.narrow w (List.mem_cons_of_mem _ hw), h.chain.tail⟩

/-- Words for arguments can stand in any order. -/
theorem of_isArgument (h : ∀ word ∈ words, IsArgument word.toList) : Row words := by
  refine ⟨fun word hword => .inl (h word hword), ?_⟩
  induction words with
  | nil => exact .nil
  | cons word words ih =>
    obtain ⟨hword, hwords⟩ := List.forall_mem_cons.1 h
    exact (ih hwords).cons fun _ _ hopen => absurd hword hopen.not_isArgument

/-- The first word stands where it is printed. -/
theorem stands (h : Row (word :: words)) (cs : List Char) :
    Stands word.toList (printArguments words ++ '\n' :: cs) := by
  rcases h.narrow word List.mem_cons_self with hword | hopen
  · refine .argument hword ?_
    cases words with
    | nil => exact endsWords_newline false cs
    | cons next words => exact endsWords_blank _
  · refine .openSpan hopen ?_
    cases words with
    | nil =>
      rintro c ⟨⟩
      rfl
    | cons next words =>
      have hnext : next = ":" := h.chain.rel_head? rfl hopen
      subst hnext
      rintro c ⟨⟩
      rfl

/-- The words of a line are read up to its end. -/
theorem tokens_printArguments (h : Row words) (cs : List Char) (offset : Nat) :
    ∃ ts, (∀ t ∈ ts, t.isWord = true) ∧ ts.filterMap (·.lexeme.word?) = words ∧
      (⟨printArguments words ++ '\n' :: cs, offset, false⟩ : Reader).tokens =
        ts ++ (⟨'\n' :: cs, offset + size (printArguments words), false⟩ : Reader).tokens := by
  induction words generalizing offset with
  | nil => exact ⟨[], by simp, rfl, rfl⟩
  | cons word words ih =>
    obtain ⟨ts, hts, hwords, htokens⟩ := ih h.tail (offset + 1 + size word.toList)
    have hword := (h.narrow word List.mem_cons_self).word?_ofWord
    rw [String.ofList_toList] at hword
    have hprint : printArguments (word :: words) ++ '\n' :: cs =
        ' ' :: (word.toList ++ (printArguments words ++ '\n' :: cs)) := by
      simp [printArguments]
    refine ⟨⟨.ofWord word.toList, offset + 1⟩ :: ts, ?_, ?_, ?_⟩
    · exact List.forall_mem_cons.2 ⟨by simp [Token.isWord, hword], hts⟩
    · simp [hword, hwords]
    · rw [hprint, tokens_eq_of_toToken_eq (toToken_blank rfl _ offset false), utf8Size_space,
        (h.stands cs).tokens, htokens]
      simp [printArguments, Nat.add_assoc]

end Row

/-! ## 2. What can be read back -/

/-- A command that is read back from its line. -/
structure Command.Readable (command : Command) : Prop where
  row : Row (command.name :: command.arguments)
  not_numeral : Numeral.read? command.name.toList = none
  fold_name : fold command.name = command.name
  blockKind?_name : blockKind? command.name = none

/-- A task or event that is read back from under its label. -/
structure Task.Readable (task : Task) : Prop where
  name : IsNarrowWord task.name.toList
  not_numeral : Numeral.read? task.name.toList = none
  commands : ∀ command ∈ task.commands, command.Readable

theorem Command.Printable.readable {command : Command} (h : command.Printable) :
    command.Readable :=
  ⟨.of_isArgument (List.forall_mem_cons.2 ⟨.word h.name, h.arguments⟩), h.name.not_numeral,
    h.fold_name, h.blockKind?_name⟩

theorem Task.Printable.readable {task : Task} (h : task.Printable) : task.Readable :=
  ⟨.inl (.word h.name), h.name.not_numeral, fun c hc => (h.commands c hc).readable⟩

theorem ofWord_of_read? {text : String} (h : Numeral.read? text.toList = none) :
    Lexeme.ofWord text.toList = .identifier text := by
  rw [Lexeme.ofWord, h]
  exact congrArg Lexeme.identifier String.ofList_toList

namespace TaskTable

/-! ## 3. One piece of the table -/

/-- What the recursion makes of a text, when `task` is open. -/
def ofText (task : Task) (cs : List Char) (offset : Nat) : Except ParseError (List Task) :=
  tasks (offset + size cs) task (⟨cs, offset, false⟩ : Reader).tokens

theorem ofText_nil (task : Task) (offset : Nat) : ofText task [] offset = .ok [task] := by
  have htokens : (⟨[], offset, false⟩ : Reader).tokens = [] := tokens_of_endOfFile rfl
  rw [ofText, htokens]
  exact tasks_of_endOfFile rfl rfl task

theorem behindBreaks_cons {t : Token} (h : t.isBreaks = false) (stop : Nat) (ts : List Token) :
    behindBreaks stop (t :: ts) = (t, ts) := by
  rw [behindBreaks, List.dropWhile_cons_of_neg (by simp [h])]

/-- A name and a `:` are a label. -/
theorem label_cons (stop : Nat) (name : String) (offset offset' : Nat) (ts : List Token) :
    label stop (⟨.identifier name, offset⟩ :: ⟨.identifier ":", offset'⟩ :: ts) =
      .ok (name, ts) := by
  simp [label, behindBreaks, Token.isBreaks]

/-- The end of a line is no word. -/
theorem tokens_newline_cons (cs : List Char) (offset : Nat) :
    ∃ t ts, (⟨'\n' :: cs, offset, false⟩ : Reader).tokens = t :: ts ∧ t.isWord = false := by
  refine ⟨_, _, tokens_of_ne_endOfFile ?_, ?_⟩
  · rw [next_newline]
    simp
  · rw [Token.isWord, word?_next_newline]
    rfl

theorem ofText_command {command : Command} (h : command.Readable) (task : Task)
    (cs : List Char) (offset : Nat) :
    ofText task (command.print ++ cs) offset =
      ofText (task.push command) cs (offset + size command.print) := by
  have hprint : command.print ++ cs =
      command.name.toList ++ (printArguments command.arguments ++ '\n' :: cs) := by
    simp [Command.print]
  have hoffset : offset + size command.name.toList + size (printArguments command.arguments) + 1 =
      offset + size command.print := by
    simp [Command.print, Nat.add_assoc]
  obtain ⟨ts, hts, hwords, htokens⟩ :=
    h.row.tail.tokens_printArguments cs (offset + size command.name.toList)
  obtain ⟨t, us, hend, ht⟩ := tokens_newline_cons cs
    (offset + size command.name.toList + size (printArguments command.arguments))
  have hline := (h.row.stands cs).tokens offset
  rw [← hprint, ofWord_of_read? h.not_numeral, htokens] at hline
  rw [ofText, hline, tasks_of_command (behindBreaks_cons rfl _ _) rfl h.blockKind?_name,
    List.takeWhile_append_of_pos hts, List.dropWhile_append_of_pos hts, hend,
    List.takeWhile_cons_of_neg (by simp [ht]), List.dropWhile_cons_of_neg (by simp [ht]), ← hend,
    List.append_nil, hwords, h.fold_name, tasks_congr (tokens_newline cs _ false), hoffset, ofText,
    size_append, Nat.add_assoc]

theorem ofText_commands {commands : List Command} (h : ∀ command ∈ commands, command.Readable)
    (task : Task) (cs : List Char) (offset : Nat) :
    ofText task (commands.flatMap Command.print ++ cs) offset =
      ofText { task with commands := task.commands ++ commands } cs
        (offset + size (commands.flatMap Command.print)) := by
  induction commands generalizing task offset with
  | nil => simp
  | cons command commands ih =>
    rw [List.flatMap_cons, List.append_assoc, ofText_command (h command List.mem_cons_self),
      ih fun c hc => h c (List.mem_cons_of_mem _ hc)]
    simp [Task.push, Nat.add_assoc]

theorem blockKind?_keyword (isEvent : Bool) : blockKind? (Task.keyword isEvent) = some isEvent := by
  cases isEvent <;> decide

/-- The keyword of a label and the space behind it. -/
theorem tokens_keyword (isEvent : Bool) (cs : List Char) (offset : Nat) :
    (⟨(Task.keyword isEvent).toList ++ ' ' :: cs, offset, false⟩ : Reader).tokens =
      ⟨.identifier (Task.keyword isEvent), offset⟩ ::
        (⟨cs, offset + size (Task.keyword isEvent).toList + 1, false⟩ : Reader).tokens := by
  have hword : IsArgument (Task.keyword isEvent).toList := by
    cases isEvent <;> exact .word (by decide)
  have hnumeral : Numeral.read? (Task.keyword isEvent).toList = none := by
    cases isEvent <;> rfl
  rw [(Stands.argument hword (endsWords_blank cs)).tokens, ofWord_of_read? hnumeral,
    tokens_eq_of_toToken_eq (toToken_blank rfl cs _ false), utf8Size_space]

/-- The `:` of a label, behind a space. -/
theorem tokens_scope (cs : List Char) (offset : Nat) :
    (⟨' ' :: ':' :: cs, offset, false⟩ : Reader).tokens =
      ⟨.identifier ":", offset + 1⟩ :: (⟨cs, offset + 2, false⟩ : Reader).tokens := by
  rw [tokens_of_ne_endOfFile (by rw [next_scope]; simp), next_scope]

/-- A label closes the open task and opens the one it names. -/
theorem ofText_label {block : Task} (hname : IsNarrowWord block.name.toList)
    (hnumeral : Numeral.read? block.name.toList = none) (task : Task) (cs : List Char)
    (offset : Nat) :
    ofText task (block.printLabel ++ cs) offset =
      (ofText { name := block.name, isEvent := block.isEvent } cs
        (offset + size block.printLabel)).map (task :: ·) := by
  have hprint : block.printLabel ++ cs = (Task.keyword block.isEvent).toList ++
      ' ' :: (block.name.toList ++ (' ' :: ':' :: '\n' :: cs)) := by
    simp [Task.printLabel]
  have hoffset : offset + size (Task.keyword block.isEvent).toList + 1 + size block.name.toList +
      2 + 1 = offset + size block.printLabel := by
    simp [Task.printLabel]
    omega
  have hstands : Stands block.name.toList (' ' :: ':' :: '\n' :: cs) := by
    rcases hname with hname | hopen
    · exact .argument hname (endsWords_blank _)
    · refine .openSpan hopen ?_
      rintro c ⟨⟩
      rfl
  have hkeyword := tokens_keyword block.isEvent
    (block.name.toList ++ (' ' :: ':' :: '\n' :: cs)) offset
  rw [hstands.tokens, ofWord_of_read? hnumeral, tokens_scope, ← hprint] at hkeyword
  rw [ofText, hkeyword, tasks_of_label (behindBreaks_cons rfl _ _) rfl (blockKind?_keyword _)]
  simp only [label_cons, bind, Except.bind]
  rw [tasks_congr (tokens_newline cs _ false), hoffset, ofText, size_append, Nat.add_assoc]

/-! ## 4. The whole table -/

theorem ofText_blocks {blocks : List Task} (h : ∀ block ∈ blocks, block.Readable) (task : Task)
    (offset : Nat) :
    ofText task (blocks.flatMap Task.print) offset = .ok (task :: blocks) := by
  induction blocks generalizing task offset with
  | nil => exact ofText_nil task offset
  | cons block blocks ih =>
    have hblock := h block List.mem_cons_self
    rw [List.flatMap_cons, Task.print, List.append_assoc,
      ofText_label hblock.name hblock.not_numeral, ofText_commands hblock.commands,
      ih fun b hb => h b (List.mem_cons_of_mem _ hb)]
    rfl

end TaskTable

namespace Reader

variable {opening : List Command} {blocks : List Task}

/-- A printed task table is read back, whatever was read before. -/
theorem quest_printReadable (hopening : ∀ command ∈ opening, command.Readable)
    (hblocks : ∀ block ∈ blocks, block.Readable) (q : Quest) (offset : Nat) :
    (⟨TaskTable.print (.entryPoint opening :: blocks), offset, false⟩ : Reader).directives.quest q =
      .ok { q with tasks := .entryPoint opening :: blocks } := by
  have hread := TaskTable.ofText_commands hopening (.entryPoint [])
    (blocks.flatMap Task.print) (offset + 6)
  rw [TaskTable.ofText_blocks hblocks, TaskTable.ofText] at hread
  rw [TaskTable.print_cons, quest_taskTable, TaskTable.read]
  simp only [Task.entryPoint] at hread ⊢
  rw [hread]
  rfl

theorem quest_printTasks (hopening : ∀ command ∈ opening, command.Printable)
    (hblocks : ∀ block ∈ blocks, block.Printable) (q : Quest) (offset : Nat) :
    (⟨TaskTable.print (.entryPoint opening :: blocks), offset, false⟩ : Reader).directives.quest q =
      .ok { q with tasks := .entryPoint opening :: blocks } :=
  quest_printReadable (fun command hcommand => (hopening command hcommand).readable)
    (fun block hblock => (hblocks block hblock).readable) q offset

end Reader

end Questbook
