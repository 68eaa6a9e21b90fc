/-
Questbook.Proofs.TaskTable.Recursion — a task table as a recursion over its
tokens.

The readers of a task table are three loops inside each other, for tasks,
commands and arguments, and each of them ends at a token that it looks at and
leaves to the loop around it. `TaskTable.tasks` is one plain recursion over a
list of tokens that knows of no loop and no place: it drops line breaks, looks
at one token, and goes on with the rest of the list.

`tasks_tokens` says that the loops and the recursion agree, for every reader.
Where the loops stop, nothing but the end of the file is accepted (`halt`),
because an identifier would have been read as a command or as a label.
-/
import Questbook.Proofs.Reader.Steps
import Questbook.Proofs.Reader.Tokens

namespace Questbook

open Text

/-- The task with one more command. -/
def Task.push (task : Task) (command : Command) : Task :=
  { task with commands := task.commands ++ [command] }

namespace TaskTable

/-! ## 1. The recursion -/

/-- The first token behind the line breaks, and what follows it. The end of the
file is at offset `stop`. -/
def behindBreaks (stop : Nat) (ts : List Token) : Token × List Token :=
  match ts.dropWhile Token.isBreaks with
  | [] => (⟨.endOfFile, stop⟩, [])
  | t :: ts => (t, ts)

/-- The part of a label behind its keyword, a name and a `:`: the name, and
what follows. -/
def label (stop : Nat) (ts : List Token) : Except ParseError (String × List Token) :=
  let (found, rest) := behindBreaks stop ts
  match found.lexeme with
  | .identifier name =>
    let (mark, rest) := behindBreaks stop rest
    if mark.lexeme = .identifier ":" then .ok (name, rest) else .error (mark.unexpected "':'")
  | _ => .error (found.unexpected "an identifier")

theorem length_behindBreaks_le (stop : Nat) (ts : List Token) :
    (behindBreaks stop ts).2.length ≤ ts.length := by
  have h := (List.dropWhile_sublist Token.isBreaks (l := ts)).length_le
  unfold behindBreaks
  split
  · simp
  · next heq =>
    rw [heq, List.length_cons] at h
    exact Nat.le_of_succ_le h

theorem length_behindBreaks_lt {stop : Nat} {ts : List Token}
    (h : (behindBreaks stop ts).1.lexeme ≠ .endOfFile) :
    (behindBreaks stop ts).2.length < ts.length := by
  have hle := (List.dropWhile_sublist Token.isBreaks (l := ts)).length_le
  unfold behindBreaks at h ⊢
  split at h
  · exact absurd rfl h
  · next heq =>
    rw [heq, List.length_cons] at hle
    exact hle

theorem length_label_le {stop : Nat} {ts rest : List Token} {name : String}
    (h : label stop ts = .ok (name, rest)) : rest.length ≤ ts.length := by
  have h₁ := length_behindBreaks_le stop ts
  have h₂ := length_behindBreaks_le stop (behindBreaks stop ts).2
  simp only [label] at h
  split at h
  · split at h
    · cases h
      exact Nat.le_trans h₂ h₁
    · cases h
  · cases h

/-- The tasks from here on, when `task` is open. -/
def tasks (stop : Nat) (task : Task) (ts : List Token) : Except ParseError (List Task) :=
  match _ : (behindBreaks stop ts).1.lexeme with
  | .endOfFile => .ok [task]
  | .identifier word =>
    if sameFold word "task" || sameFold word "event" then
      match _ : label stop (behindBreaks stop ts).2 with
      | .error e => .error e
      | .ok (name, rest) =>
        (tasks stop { name, isEvent := sameFold word "event" } rest).map (task :: ·)
    else
      let rest := (behindBreaks stop ts).2
      tasks stop
        (task.push ⟨fold word, (rest.takeWhile Token.isWord).filterMap (·.lexeme.word?)⟩)
        (rest.dropWhile Token.isWord)
  | _ => .error ((behindBreaks stop ts).1.unexpected "an identifier")
termination_by ts.length
decreasing_by
  · have h₁ := length_label_le ‹_›
    have h₂ : (behindBreaks stop ts).2.length < ts.length := length_behindBreaks_lt (by simp [*])
    omega
  · have h₁ := (List.dropWhile_sublist Token.isWord (l := (behindBreaks stop ts).2)).length_le
    have h₂ : (behindBreaks stop ts).2.length < ts.length := length_behindBreaks_lt (by simp [*])
    omega

/-- The tasks of a table, the main line first. -/
def read (stop : Nat) (ts : List Token) : Except ParseError (List Task) :=
  tasks stop (.entryPoint []) ts

/-! ## 2. One step of the recursion -/

section Steps

open Reader (blockKind? blockKind?_eq)

variable {stop : Nat} {ts rest : List Token} {t : Token} {word : String}

theorem tasks_of_endOfFile (hhead : behindBreaks stop ts = (t, rest))
    (h : t.lexeme = .endOfFile) (task : Task) : tasks stop task ts = .ok [task] := by
  rw [tasks, hhead]
  split <;> simp_all

/-- A line that opens no block is a command of the open task. -/
theorem tasks_of_command (hhead : behindBreaks stop ts = (t, rest))
    (h : t.lexeme = .identifier word) (hkind : blockKind? word = none) (task : Task) :
    tasks stop task ts =
      tasks stop
        (task.push ⟨fold word, (rest.takeWhile Token.isWord).filterMap (·.lexeme.word?)⟩)
        (rest.dropWhile Token.isWord) := by
  have hno : (sameFold word "task" || sameFold word "event") = false := by
    rw [blockKind?_eq] at hkind
    split at hkind <;> simp_all
  rw [tasks, hhead]
  split
  · simp_all
  · next word' hword =>
    rw [h] at hword
    cases hword
    rw [if_neg (by simp [hno])]
  · simp_all

/-- A label closes the open task and opens another. -/
theorem tasks_of_label {isEvent : Bool} (hhead : behindBreaks stop ts = (t, rest))
    (h : t.lexeme = .identifier word) (hkind : blockKind? word = some isEvent) (task : Task) :
    tasks stop task ts = (do
      let (name, rest) ← label stop rest
      (tasks stop { name, isEvent } rest).map (task :: ·)) := by
  have hyes : (sameFold word "task" || sameFold word "event") = true ∧
      isEvent = sameFold word "event" := by
    rw [blockKind?_eq] at hkind
    split at hkind
    · next htask =>
      cases hkind
      have hne : fold "task" ≠ fold "event" := by decide
      simp_all [sameFold]
    · split at hkind
      · next hevent =>
        cases hkind
        simp [hevent]
      · cases hkind
  rw [tasks, hhead]
  split
  · simp_all
  · next word' hword =>
    rw [h] at hword
    cases hword
    rw [if_pos hyes.1, hyes.2]
    split <;> simp_all [bind, Except.bind]
  · simp_all

theorem tasks_of_unexpected (hhead : behindBreaks stop ts = (t, rest))
    (hend : t.lexeme ≠ .endOfFile) (h : ∀ word, t.lexeme ≠ .identifier word) (task : Task) :
    tasks stop task ts = .error (t.unexpected "an identifier") := by
  rw [tasks, hhead]
  split <;> simp_all

/-- **Induction over the tasks that are read.** The last task ends with the tokens, a
command goes to the open task, and a label opens another. -/
theorem tasks_induction {motive : Task → List Token → List Task → Prop}
    (last : ∀ {task : Task} {ts rest : List Token} {t : Token},
      behindBreaks stop ts = (t, rest) → t.lexeme = .endOfFile → motive task ts [task])
    (command : ∀ {task : Task} {ts rest : List Token} {t : Token} {word : String}
      {result : List Task}, behindBreaks stop ts = (t, rest) → t.lexeme = .identifier word →
      blockKind? word = none →
      motive (task.push ⟨fold word, (rest.takeWhile Token.isWord).filterMap (·.lexeme.word?)⟩)
        (rest.dropWhile Token.isWord) result → motive task ts result)
    (block : ∀ {task : Task} {ts rest behind : List Token} {t : Token} {word name : String}
      {isEvent : Bool} {result : List Task}, behindBreaks stop ts = (t, rest) →
      t.lexeme = .identifier word → blockKind? word = some isEvent →
      label stop rest = .ok (name, behind) → motive { name, isEvent } behind result →
      motive task ts (task :: result))
    {task : Task} {result : List Task} (h : tasks stop task ts = .ok result) :
    motive task ts result := by
  induction hn : ts.length using Nat.strongRecOn generalizing task ts result with
  | ind n ih =>
    have hhead : behindBreaks stop ts = ((behindBreaks stop ts).1, (behindBreaks stop ts).2) := rfl
    cases hlex : (behindBreaks stop ts).1.lexeme with
    | endOfFile =>
      rw [tasks_of_endOfFile hhead hlex] at h
      cases h
      exact last hhead hlex
    | identifier word =>
      have hlt : (behindBreaks stop ts).2.length < ts.length :=
        length_behindBreaks_lt (by simp [hlex])
      cases hkind : blockKind? word with
      | none =>
        have hle :=
          (List.dropWhile_sublist Token.isWord (l := (behindBreaks stop ts).2)).length_le
        rw [tasks_of_command hhead hlex hkind] at h
        exact command hhead hlex hkind (ih _ (by omega) h rfl)
      | some isEvent =>
        rw [tasks_of_label hhead hlex hkind] at h
        cases hlabel : label stop (behindBreaks stop ts).2 with
        | error e =>
          rw [hlabel] at h
          cases h
        | ok found =>
          obtain ⟨name, behind⟩ := found
          have hle := length_label_le hlabel
          simp only [hlabel, bind, Except.bind] at h
          cases hothers : tasks stop { name, isEvent } behind with
          | error e =>
            rw [hothers] at h
            cases h
          | ok others =>
            rw [hothers] at h
            cases h
            exact block hhead hlex hkind hlabel (ih _ (by omega) hothers rfl)
    | _ =>
      rw [tasks_of_unexpected hhead (by simp [hlex]) (by simp [hlex])] at h
      cases h

end Steps

/-! ## 3. The readers, one token at a time -/

theorem behindBreaks_tokens (r : Reader) :
    behindBreaks r.stop r.tokens = (r.skipBreaks.next.1, r.skipBreaks.next.2.tokens) := by
  rw [Reader.next_fst, Reader.tokens_next, Reader.tokens_skipBreaks, Reader.stop_skipBreaks]
  unfold behindBreaks
  cases r.tokens.dropWhile Token.isBreaks <;> rfl

end TaskTable

namespace Reader

open TaskTable

/-- The readers of a label do what the recursion says. -/
theorem label_tokens (r : Reader) :
    label r.stop r.tokens = (do
      let (name, r) ← onward r.identifier
      let (_, r) ← onward (r.expect scope)
      return (name.text, r.tokens)) := by
  simp only [label, behindBreaks_tokens, onward_identifier]
  cases r.skipBreaks.next.1.lexeme with
  | identifier name =>
    have hmark := behindBreaks_tokens r.skipBreaks.next.2
    simp only [stop_next, stop_skipBreaks] at hmark
    simp only [hmark, bind, Except.bind, onward_expect_scope]
    split <;> rfl
  | _ => rfl

/-! ## 4. The loops -/

/-- The command at an identifier that opens no block. -/
theorem command?_of_identifier {r : Reader} {word : String}
    (h : r.next.1.lexeme = .identifier word) (hkind : blockKind? word = none) :
    r.command? =
      some (⟨fold word, r.next.2.words.1⟩, r.next.2.words.2.skipBreaks) := by
  simp [command?, h, hkind]

theorem command?_of_blockKind? {r : Reader} {word : String} {isEvent : Bool}
    (h : r.next.1.lexeme = .identifier word) (hkind : blockKind? word = some isEvent) :
    r.command? = none := by
  simp [command?, h, hkind]

/-- A block is a label and commands. -/
theorem block_eq_of_label (isEvent : Bool) (r : Reader) :
    (∃ e, label r.stop r.tokens = .error e ∧ r.block isEvent = .error e) ∨
    (∃ (name : String) (last : Reader), label r.stop r.tokens = .ok (name, last.tokens) ∧
      last.stop = r.stop ∧ last.rest.length ≤ r.rest.length ∧
      r.block isEvent = .ok (⟨name, last.skipBreaks.commands.1, isEvent⟩,
        last.skipBreaks.commands.2)) := by
  rw [label_tokens]
  unfold block
  cases hname : onward r.identifier with
  | error e => exact .inl ⟨e, rfl, rfl⟩
  | ok name =>
    obtain ⟨name, r₁⟩ := name
    cases hscope : onward (r₁.expect scope) with
    | error e =>
      exact .inl ⟨e, by simp [bind, Except.bind, hscope], by simp [bind, Except.bind, hscope]⟩
    | ok mark =>
      obtain ⟨mark, r₂⟩ := mark
      refine .inr ⟨name.text, r₂, ?_, ?_, ?_, ?_⟩
      · simp [bind, Except.bind, hscope, pure, Except.pure]
      · rw [stop_of_onward_take hscope, stop_of_onward_take hname]
      · exact Nat.le_trans (length_onward_take_le hscope) (length_onward_take_le hname)
      · simp [bind, Except.bind, hscope, pure, Except.pure]

/-- Only the end of the file may stand where the loops stop. -/
def halt (r : Reader) : Except ParseError Unit :=
  if r.atEnd then .ok () else .error (r.next.1.unexpected "an identifier")

/-- The loops stop here: no line break and no identifier stands next. -/
structure Halted (r : Reader) : Prop where
  skipBreaks_eq : r.skipBreaks = r
  ne_identifier : ∀ word, r.next.1.lexeme ≠ .identifier word

/-- Both loops end at once where no identifier stands. -/
theorem halted_of_ne_identifier {r : Reader}
    (h : ∀ word, r.skipBreaks.next.1.lexeme ≠ .identifier word) :
    r.skipBreaks.commands = ([], r.skipBreaks) ∧
      r.skipBreaks.blocks = ⟨[], .ok r.skipBreaks⟩ ∧ r.skipBreaks.Halted := by
  have hcommand : r.skipBreaks.command? = none := by
    unfold command?
    split
    · next word hword => exact absurd hword (h word)
    · rfl
  have hblock : r.skipBreaks.block? = .ok none := by
    unfold block?
    split
    · next word hword => exact absurd hword (h word)
    · rfl
  exact ⟨commands_of_none hcommand, list_of_none hblock, r.skipBreaks_skipBreaks, h⟩

/-- **The loops and the recursion agree.** The reader may be anywhere; the
recursion starts from its tokens with `task` open. -/
theorem tasks_tokens (r : Reader) (task : Task) :
    match r.skipBreaks.commands.2.blocks.ending with
    | .error e => tasks r.stop task r.tokens = .error e
    | .ok last => last.Halted ∧
        tasks r.stop task r.tokens = last.halt.map fun _ =>
          { task with commands := task.commands ++ r.skipBreaks.commands.1 } ::
            r.skipBreaks.commands.2.blocks.items := by
  -- The text gets shorter with every command and every label, not with every token.
  induction hn : r.rest.length using Nat.strongRecOn generalizing r task with
  | ind n ih =>
    have hhead := behindBreaks_tokens r
    have hle := r.length_skipBreaks_le
    cases hlex : r.skipBreaks.next.1.lexeme with
    | endOfFile =>
      obtain ⟨hcommands, hblocks, hhalted⟩ := halted_of_ne_identifier (r := r) (by simp [hlex])
      rw [hcommands]
      simp only [hblocks]
      refine ⟨hhalted, ?_⟩
      rw [tasks_of_endOfFile hhead hlex, halt, if_pos (by simp [atEnd, peek, hlex])]
      simp [Except.map]
    | integer value =>
      obtain ⟨hcommands, hblocks, hhalted⟩ := halted_of_ne_identifier (r := r) (by simp [hlex])
      rw [hcommands]
      simp only [hblocks]
      refine ⟨hhalted, ?_⟩
      rw [tasks_of_unexpected hhead (by simp [hlex]) (by simp [hlex]), halt,
        if_neg (by simp [atEnd, peek, hlex])]
      rfl
    | lineBreaks count => exact absurd hlex (r.lexeme_skipBreaks_ne count)
    | identifier word =>
      have hlt : r.skipBreaks.next.2.rest.length < n := by
        have := length_next_lt (r := r.skipBreaks) (by simp [hlex])
        omega
      cases hkind : blockKind? word with
      | none =>
        have hwords := r.skipBreaks.next.2.length_words_le
        have hrec := ih _ (by omega) r.skipBreaks.next.2.words.2
          (task.push ⟨fold word, r.skipBreaks.next.2.words.1⟩) rfl
        rw [commands_of_some (command?_of_identifier hlex hkind)]
        rw [tasks_of_command hhead hlex hkind, ← (words_eq _).1, ← (words_eq _).2]
        simp only [stop_words, stop_next, stop_skipBreaks] at hrec
        simpa [Task.push] using hrec
      | some isEvent =>
        rw [commands_of_none (command?_of_blockKind? hlex hkind)]
        rw [tasks_of_label hhead hlex hkind]
        obtain ⟨e, hlabel, hblock⟩ | ⟨name, last, hlabel, hstop, hlen, hblock⟩ :=
          block_eq_of_label isEvent r.skipBreaks.next.2
        · have hblocks : r.skipBreaks.blocks = ⟨[], .error e⟩ :=
            list_of_error (by simp [block?, hlex, hkind, hblock, Except.map])
          simp only [stop_next, stop_skipBreaks] at hlabel
          simp only [hblocks, hlabel]
          rfl
        · have hblocks : r.skipBreaks.blocks =
              ⟨⟨name, last.skipBreaks.commands.1, isEvent⟩ ::
                last.skipBreaks.commands.2.blocks.items,
                last.skipBreaks.commands.2.blocks.ending⟩ :=
            list_of_some (by simp [block?, hlex, hkind, hblock, Except.map])
          simp only [stop_next, stop_skipBreaks] at hlabel hstop
          have hrec := ih _ (by omega) last { name, isEvent } rfl
          simp only [hblocks, hlabel, bind, Except.bind]
          rw [hstop] at hrec
          revert hrec
          cases last.skipBreaks.commands.2.blocks.ending with
          | error e =>
            intro hrec
            simp only [hrec]
            rfl
          | ok last' =>
            rintro ⟨hhalted, hrec⟩
            refine ⟨hhalted, ?_⟩
            rw [hrec]
            cases last'.halt <;> simp [Except.map]

end Reader

end Questbook
