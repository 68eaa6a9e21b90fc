/-
Questbook.Proofs.TaskTable.Source — the tasks of a source that is one task
table.

Behind the heading, a task table is its list of tokens and nothing more:
`parse_taskTable` says that reading the source and running the recursion of
`TaskTable.tasks` over the tokens of the body come to the same quest or to the
same error, at the token it would be at if the heading were not there, only
six bytes on. So no word gets lost, comes twice or moves (`words_tasks`), and
what the table does not speak of keeps its default.

The heading ends in a newline, and the body may begin with line breaks of its
own. The tokens of the two together are not those of the body with one more in
front, because newlines run together; but they are the same behind the line
breaks (`Reader.tokens_newline`), and that is where the recursion starts.
-/
import Questbook.Proofs.TaskTable.Recursion

namespace Questbook

open Text

/-- The error of the same text further on in a source. -/
def ParseError.shift (e : ParseError) (k : Nat) : ParseError :=
  { e with offset := e.offset + k }

@[simp] theorem Token.lexeme_shift (t : Token) (k : Nat) : (t.shift k).lexeme = t.lexeme := rfl

theorem Token.unexpected_shift (t : Token) (k : Nat) (expected : String) :
    (t.shift k).unexpected expected = (t.unexpected expected).shift k := rfl

namespace TaskTable

/-! ## 1. The same tokens further on -/

section Shift

variable (stop k : Nat)

theorem behindBreaks_shift (ts : List Token) :
    behindBreaks (stop + k) (ts.map (·.shift k)) =
      ((behindBreaks stop ts).1.shift k, (behindBreaks stop ts).2.map (·.shift k)) := by
  have hcomp : Token.isBreaks ∘ (·.shift k) = Token.isBreaks := rfl
  unfold behindBreaks
  rw [List.dropWhile_map, hcomp]
  cases ts.dropWhile Token.isBreaks <;> rfl

theorem label_shift (ts : List Token) :
    label (stop + k) (ts.map (·.shift k)) =
      ((label stop ts).map fun found => (found.1, found.2.map (·.shift k))).mapError
        (·.shift k) := by
  simp only [label, behindBreaks_shift, Token.lexeme_shift, Token.unexpected_shift]
  cases (behindBreaks stop ts).1.lexeme with
  | identifier name =>
    by_cases h : (behindBreaks stop (behindBreaks stop ts).2).1.lexeme = .identifier ":"
    · simp only [h, if_true]
      rfl
    · simp only [h, if_false]
      rfl
  | _ => rfl

theorem tasks_shift (task : Task) (ts : List Token) :
    tasks (stop + k) task (ts.map (·.shift k)) = (tasks stop task ts).mapError (·.shift k) := by
  induction hn : ts.length using Nat.strongRecOn generalizing task ts with
  | ind n ih =>
    have hhead : behindBreaks stop ts = ((behindBreaks stop ts).1, (behindBreaks stop ts).2) := rfl
    have hhead' := behindBreaks_shift stop k ts
    cases hlex : (behindBreaks stop ts).1.lexeme with
    | endOfFile =>
      rw [tasks_of_endOfFile hhead hlex, tasks_of_endOfFile hhead' hlex]
      rfl
    | identifier word =>
      have hlt : (behindBreaks stop ts).2.length < ts.length :=
        length_behindBreaks_lt (by simp [hlex])
      cases hkind : Reader.blockKind? word with
      | none =>
        have hle :=
          (List.dropWhile_sublist Token.isWord (l := (behindBreaks stop ts).2)).length_le
        have hrec := ih _ (by omega)
          (task.push ⟨fold word, ((behindBreaks stop ts).2.takeWhile Token.isWord).filterMap
            (·.lexeme.word?)⟩) ((behindBreaks stop ts).2.dropWhile Token.isWord) rfl
        rw [tasks_of_command hhead hlex hkind, tasks_of_command hhead' hlex hkind, ← hrec,
          List.takeWhile_map, List.dropWhile_map, List.filterMap_map]
        rfl
      | some isEvent =>
        rw [tasks_of_label hhead hlex hkind, tasks_of_label hhead' hlex hkind, label_shift]
        cases hlabel : label stop (behindBreaks stop ts).2 with
        | error e => rfl
        | ok found =>
          obtain ⟨name, rest⟩ := found
          have hle := length_label_le hlabel
          have hrec := ih _ (by omega) { name, isEvent } rest rfl
          show (tasks (stop + k) { name, isEvent } (rest.map (·.shift k))).map (task :: ·) =
            ((tasks stop { name, isEvent } rest).map (task :: ·)).mapError (·.shift k)
          rw [hrec]
          cases tasks stop { name, isEvent } rest <;> rfl
    | _ =>
      rw [tasks_of_unexpected hhead (by simp [hlex]) (by simp [hlex]),
        tasks_of_unexpected hhead' (by simp [hlex]) (by simp [hlex])]
      rfl

end Shift

/-! ## 2. No word gets lost -/

/-- The words of a command, in order. -/
def commandWords (command : Command) : List String :=
  command.name :: command.arguments

/-- The words of a task or event with its label. -/
def blockWords (task : Task) : List String :=
  Task.keyword task.isEvent :: task.name :: ":" :: task.commands.flatMap commandWords

/-- The words of a task table, whose main line has no label. -/
def tableWords : List Task → List String
  | [] => []
  | opening :: blocks => opening.commands.flatMap commandWords ++ blocks.flatMap blockWords

/-- The words of a list of tokens. -/
def tokenWords (ts : List Token) : List String :=
  ts.filterMap (·.lexeme.word?)

theorem tokenWords_append (ts us : List Token) :
    tokenWords (ts ++ us) = tokenWords ts ++ tokenWords us :=
  List.filterMap_append

theorem tokenWords_dropWhile (ts : List Token) :
    tokenWords (ts.dropWhile Token.isBreaks) = tokenWords ts := by
  induction ts with
  | nil => rfl
  | cons t ts ih =>
    cases h : t.isBreaks with
    | false => simp [h]
    | true =>
      have hword : t.lexeme.word? = none := by
        revert h
        unfold Token.isBreaks
        cases t.lexeme <;> simp [Lexeme.word?]
      rw [List.dropWhile_cons_of_pos h, ih]
      simp [tokenWords, hword]

/-- Looking behind line breaks passes over no word. -/
theorem tokenWords_of_identifier {stop : Nat} {ts rest : List Token} {t : Token} {word : String}
    (hhead : behindBreaks stop ts = (t, rest)) (h : t.lexeme = .identifier word) :
    tokenWords ts = word :: tokenWords rest := by
  rw [← tokenWords_dropWhile ts]
  unfold behindBreaks at hhead
  split at hhead
  · cases hhead
    cases h
  · next hcons =>
    cases hhead
    rw [hcons]
    simp [tokenWords, h, Lexeme.word?]

theorem tokenWords_of_endOfFile {stop : Nat} {ts rest : List Token} {t : Token}
    (hts : ∀ t ∈ ts, t.lexeme ≠ .endOfFile) (hhead : behindBreaks stop ts = (t, rest))
    (h : t.lexeme = .endOfFile) : tokenWords ts = [] := by
  rw [← tokenWords_dropWhile ts]
  unfold behindBreaks at hhead
  split at hhead
  · next hnil =>
    rw [hnil]
    rfl
  · next hcons =>
    cases hhead
    have hmem : t ∈ ts := (List.dropWhile_sublist Token.isBreaks).subset (by rw [hcons]; simp)
    exact absurd h (hts t hmem)

theorem mem_behindBreaks {stop : Nat} {ts rest : List Token} {first t : Token}
    (hhead : behindBreaks stop ts = (first, rest)) (h : t ∈ rest) : t ∈ ts := by
  unfold behindBreaks at hhead
  split at hhead
  · cases hhead
    cases h
  · next hcons =>
    cases hhead
    refine (List.dropWhile_sublist Token.isBreaks).subset ?_
    rw [hcons]
    exact List.mem_cons_of_mem _ h

/-- A label takes a name and a `:`. -/
theorem tokenWords_label {stop : Nat} {ts rest : List Token} {name : String}
    (h : label stop ts = .ok (name, rest)) :
    tokenWords ts = name :: ":" :: tokenWords rest ∧ ∀ t ∈ rest, t ∈ ts := by
  have hhead : behindBreaks stop ts = ((behindBreaks stop ts).1, (behindBreaks stop ts).2) := rfl
  simp only [label] at h
  split at h
  · next hname =>
    split at h
    · next hmark =>
      cases h
      refine ⟨?_, fun t ht => mem_behindBreaks rfl (mem_behindBreaks rfl ht)⟩
      rw [tokenWords_of_identifier hhead hname, tokenWords_of_identifier rfl hmark]
      rfl
    · cases h
  · cases h

theorem fold_keyword {word : String} {isEvent : Bool}
    (h : Reader.blockKind? word = some isEvent) : fold (Task.keyword isEvent) = fold word := by
  rw [Reader.blockKind?_eq] at h
  split at h
  · next htask =>
    cases h
    exact (sameFold_iff.1 htask).symm
  · split at h
    · next hevent =>
      cases h
      exact (sameFold_iff.1 hevent).symm
    · cases h

/-- The open task keeps its name and sort. The words of the tasks are those it
has already and those of the tokens, but for the case of command names and
keywords. -/
theorem words_tasks {stop : Nat} {task : Task} {ts : List Token} {result : List Task}
    (hts : ∀ t ∈ ts, t.lexeme ≠ .endOfFile) (h : tasks stop task ts = .ok result) :
    ∃ first blocks, result = first :: blocks ∧ first.name = task.name ∧
      first.isEvent = task.isEvent ∧
      (tableWords result).map fold =
        (task.commands.flatMap commandWords ++ tokenWords ts).map fold := by
  refine tasks_induction (motive := fun task ts result => (∀ t ∈ ts, t.lexeme ≠ .endOfFile) →
    ∃ first blocks, result = first :: blocks ∧ first.name = task.name ∧
      first.isEvent = task.isEvent ∧ (tableWords result).map fold =
        (task.commands.flatMap commandWords ++ tokenWords ts).map fold) ?_ ?_ ?_ h hts
  · intro task ts rest t hhead hlex hts
    refine ⟨task, [], rfl, rfl, rfl, ?_⟩
    simp [tableWords, tokenWords_of_endOfFile hts hhead hlex]
  · intro task ts rest t word result hhead hlex _ ih hts
    have hrest : ∀ t ∈ rest.dropWhile Token.isWord, t.lexeme ≠ .endOfFile := fun t ht =>
      hts t (mem_behindBreaks hhead ((List.dropWhile_sublist Token.isWord).subset ht))
    obtain ⟨first, blocks, hresult, hname, hevent, hwords⟩ := ih hrest
    refine ⟨first, blocks, hresult, hname, hevent, ?_⟩
    have hsplit := tokenWords_append (rest.takeWhile Token.isWord) (rest.dropWhile Token.isWord)
    rw [List.takeWhile_append_dropWhile] at hsplit
    rw [hwords, tokenWords_of_identifier hhead hlex, hsplit]
    simp [Task.push, commandWords, tokenWords, fold_fold]
  · intro task ts rest behind t word name isEvent result hhead hlex hkind hlabel ih hts
    obtain ⟨hlabelWords, hmem⟩ := tokenWords_label hlabel
    obtain ⟨first, blocks, rfl, hname, hevent, hwords⟩ := ih fun t ht =>
      hts t (mem_behindBreaks hhead (hmem t ht))
    refine ⟨task, _, rfl, rfl, rfl, ?_⟩
    simp only [tableWords, List.flatMap_nil, List.nil_append] at hwords
    rw [tokenWords_of_identifier hhead hlex, hlabelWords]
    simp [tableWords, blockWords, hname, hevent, fold_keyword hkind, ← hwords]

/-! ## 3. Behind the heading -/

theorem tasks_congr {stop : Nat} {task : Task} {ts us : List Token}
    (h : ts.dropWhile Token.isBreaks = us.dropWhile Token.isBreaks) :
    tasks stop task ts = tasks stop task us := by
  have hhead : behindBreaks stop ts = behindBreaks stop us := by
    unfold behindBreaks
    rw [h]
  rw [tasks, hhead]
  exact (tasks.eq_def stop task us).symm

end TaskTable

namespace Reader

open TaskTable

/-- Where the loops of a task table stop, the file ends or is in error. -/
theorem directives_of_halted {r : Reader} (h : r.Halted) :
    r.directives = ⟨[], r.halt.map fun _ => r⟩ := by
  cases hend : r.atEnd with
  | true =>
    rw [directives_of_atEnd (by rw [h.skipBreaks_eq, hend]), halt, if_pos hend, h.skipBreaks_eq]
    rfl
  | false =>
    have hword : onward r.identifier = .error (r.next.1.unexpected "an identifier") := by
      rw [onward_identifier, h.skipBreaks_eq]
      split
      · next text htext => exact absurd htext (h.ne_identifier text)
      · rfl
    have hdirective : r.skipBreaks.directive =
        ⟨[], .error (r.next.1.unexpected "an identifier")⟩ := by
      rw [h.skipBreaks_eq, directive, hword]
    rw [directives_of_error (by rw [h.skipBreaks_eq, hend]) (by rw [hdirective]), hdirective, halt,
      if_neg (by simp [hend])]
    rfl

/-- A task table that is read to the end of the file, whatever was read before. -/
theorem quest_taskTable (q : Quest) (cs : List Char) (offset : Nat) :
    (⟨"qst :\n".toList ++ cs, offset, false⟩ : Reader).directives.quest q =
      (TaskTable.read (offset + 6 + size cs)
        (⟨cs, offset + 6, false⟩ : Reader).tokens).map fun tasks => { q with tasks } := by
  have hword : (⟨"qst :\n".toList ++ cs, offset, false⟩ : Reader).next =
      (⟨.identifier "qst", offset⟩, ⟨' ' :: ':' :: '\n' :: cs, offset + 3, false⟩) := rfl
  have hmark : (⟨' ' :: ':' :: '\n' :: cs, offset + 3, false⟩ : Reader).next =
      (⟨.identifier ":", offset + 4⟩, ⟨'\n' :: cs, offset + 5, false⟩) := rfl
  obtain ⟨hskip, hend⟩ := skipBreaks_of_identifier (congrArg (·.1.lexeme) hword)
  have htasks := tasks_tokens ⟨'\n' :: cs, offset + 5, false⟩ (.entryPoint [])
  rw [tasks_congr (tokens_newline cs (offset + 5) false)] at htasks
  have hstop : (⟨'\n' :: cs, offset + 5, false⟩ : Reader).stop = offset + 6 + size cs := by
    simp [stop]
    omega
  rw [hstop] at htasks
  rw [quest_of_directive (by rw [hskip, hend]), hskip, directive_of_heading hword (by decide) hmark]
  simp only [body, show fold "qst" = "qst" by decide]
  revert htasks
  cases hending : (⟨'\n' :: cs, offset + 5, false⟩ : Reader).skipBreaks.commands.2.blocks.ending with
  | error e =>
    intro htasks
    rw [TaskTable.read, htasks]
    rfl
  | ok last =>
    rintro ⟨hhalted, htasks⟩
    rw [TaskTable.read, htasks]
    simp only [directives_of_halted hhalted, Run.quest]
    cases last.halt <;> rfl

end Reader

/-- **A task table is a function of its tokens.** The source of a task table and
the recursion over the tokens of its body come to the same tasks, with every
word of the body among them in order, or to the same error. -/
theorem parse_taskTable (body : String) :
    Quest.parse ("qst :\n" ++ body) =
      ((TaskTable.read (size body.toList) (tokenize body)).map fun tasks =>
        ({ tasks } : Quest)).mapError (·.shift 6) ∧
    ∀ quest, Quest.parse ("qst :\n" ++ body) = .ok quest →
      (TaskTable.tableWords quest.tasks).map fold =
        (TaskTable.tokenWords (tokenize body)).map fold := by
  have hparse : Quest.parse ("qst :\n" ++ body) =
      ((TaskTable.read (size body.toList) (tokenize body)).map fun tasks =>
        ({ tasks } : Quest)).mapError (·.shift 6) := by
    have hquest := Reader.quest_taskTable {} body.toList 0
    have htokens : (⟨body.toList, 6, false⟩ : Reader).tokens = (tokenize body).map (·.shift 6) :=
      Reader.tokens_shift (Reader.ofSource body) 6
    rw [Quest.parse_eq, Reader.ofSource, String.toList_append, hquest, Nat.zero_add, Nat.add_comm 6,
      htokens, TaskTable.read, TaskTable.tasks_shift, TaskTable.read]
    cases TaskTable.tasks (size body.toList) (.entryPoint []) (tokenize body) <;> rfl
  refine ⟨hparse, ?_⟩
  intro quest hquest
  rw [hparse] at hquest
  cases hread : TaskTable.read (size body.toList) (tokenize body) with
  | error e =>
    rw [hread] at hquest
    cases hquest
  | ok tasks =>
    rw [hread] at hquest
    cases hquest
    obtain ⟨first, blocks, -, -, -, hwords⟩ :=
      TaskTable.words_tasks (fun t ht => Reader.lexeme_ne_endOfFile ht) hread
    exact hwords

end Questbook
