/-
Questbook.Proofs.Source.Repeated — of repeated sections, the last one counts, but
for task tables.

A source may say the title twice, or the briefing, or the resources, and each
time the later section replaces the earlier one, wherever the two stand.

With a task table it is otherwise. Its commands go on to the end of the source, so
what stands behind a task table is read as commands, headings and all. A second
task table does not replace the first, and no other section behind one is read as
a section. `Quest.parse_passages` says both: the last section of each kind counts
if and only if no section stands behind a task table.

For the one half, the sections are read one after the other (`run_join`). For the
other it is enough to count words. All words behind the heading of a task table end
up in its tasks (`length_tableWords`), and those are more than the words of any one
task table.
-/
import Mathlib
import Questbook.Proofs.Source.Passage
import Questbook.Proofs.TaskTable.Source

namespace Questbook

open Text Reader

/-! ## 1. The last section of each kind -/

/-- What the last section of this kind says in a field of its quest, or the default
if there is none. -/
def lastOf {α : Type} (kind : Directive.Kind) (field : Quest → α) (passages : List Passage) : α :=
  match (passages.filter (·.kind = kind)).getLast? with
  | some p => field p.quest
  | none => field {}

/-- The quest in which the last section of each kind counts. -/
def Quest.ofLast (passages : List Passage) : Quest where
  title := lastOf .title (·.title) passages
  briefing := lastOf .briefing (·.briefing) passages
  runsInBackground := lastOf .background (·.runsInBackground) passages
  resources := lastOf .resources (·.resources) passages
  tasks := lastOf .stages (·.tasks) passages

theorem lastOf_append {α : Type} (kind : Directive.Kind) (field : Quest → α)
    (passages : List Passage) (p : Passage) :
    lastOf kind field (passages ++ [p]) =
      if p.kind = kind then field p.quest else lastOf kind field passages := by
  unfold lastOf
  rw [List.filter_append]
  by_cases hkind : p.kind = kind <;> simp [hkind]

theorem Quest.ofLast_append (passages : List Passage) (p : Passage) :
    Quest.ofLast (passages ++ [p]) = p.applyTo (Quest.ofLast passages) := by
  simp only [Quest.ofLast, lastOf_append, Passage.applyTo]
  cases p.kind <;> simp

/-- Section by section, the last one of each kind stays. -/
theorem Quest.foldl_applyTo_ofLast (front passages : List Passage) :
    passages.foldl (fun q p => p.applyTo q) (Quest.ofLast front) =
      Quest.ofLast (front ++ passages) := by
  induction passages generalizing front with
  | nil => rw [List.append_nil, List.foldl_nil]
  | cons p passages ih =>
    rw [List.foldl_cons, ← Quest.ofLast_append, ih, List.append_assoc, List.singleton_append]

/-! ## 2. Task tables -/

/-- The number of words that a text has when it is read narrowly. -/
def wordCount (cs : List Char) : Nat :=
  (TaskTable.tokenWords (⟨cs, 0, false⟩ : Reader).tokens).length

theorem length_tokenWords (cs : List Char) (offset : Nat) :
    (TaskTable.tokenWords (⟨cs, offset, false⟩ : Reader).tokens).length = wordCount cs := by
  have htokens := tokens_shift ⟨cs, 0, false⟩ offset
  rw [Reader.shift, Nat.zero_add] at htokens
  rw [htokens, wordCount, TaskTable.tokenWords, TaskTable.tokenWords, List.filterMap_map]
  rfl

/-- Taking a word leaves the words behind it. -/
theorem tokenWords_of_skipBreaks {r : Reader} {word : String}
    (h : r.skipBreaks.next.1.lexeme = .identifier word) :
    TaskTable.tokenWords r.tokens = word :: TaskTable.tokenWords r.skipBreaks.next.2.tokens :=
  TaskTable.tokenWords_of_identifier (TaskTable.behindBreaks_tokens r) h

/-- A task table is read to the end of the source. -/
theorem run_table (q : Quest) (r : Reader) :
    (Stage.command [] (.entryPoint [])).run q r =
      (TaskTable.read r.stop r.tokens).map fun tasks => { q with tasks } := by
  have htasks := tasks_tokens r (.entryPoint [])
  rw [Stage.run_command, TaskTable.read]
  revert htasks
  cases r.skipBreaks.commands.2.blocks.ending with
  | error e =>
    intro htasks
    rw [htasks]
    rfl
  | ok last =>
    rintro ⟨hhalted, htasks⟩
    show Stage.directive.run _ last = _
    rw [htasks, Stage.run_directive, directives_of_halted hhalted, Run.quest]
    cases last.halt <;> rfl

/-- **No word behind the heading of a task table gets lost.** They all are words of
its tasks, to the end of the source. -/
theorem length_tableWords {r : Reader} {word : String}
    (hword : r.skipBreaks.next.1.lexeme = .identifier word)
    (hfold : fold word = Directive.Kind.heading .stages) {q q' : Quest}
    (h : Stage.directive.run q r = .ok q') :
    (TaskTable.tableWords q'.tasks).length + 2 = (TaskTable.tokenWords r.tokens).length := by
  have hplus : ¬ word.toList.head? = some '+' := by
    rw [← head?_fold, hfold]
    decide
  obtain ⟨place, last, hheading, hwords⟩ : ∃ place last,
      Stage.directive.run q r = (Stage.heading ⟨word, place⟩).run q last ∧
        TaskTable.tokenWords r.tokens = word :: TaskTable.tokenWords last.tokens := by
    refine ⟨r.skipBreaks.next.1.offset, _, ?_, tokenWords_of_skipBreaks hword⟩
    rw [Stage.run_skipBreaks rfl, Stage.run_of_narrow rfl, Stage.feed, Stage.feedDirective, hword]
    simp only [if_neg hplus]
    rfl
  rw [hheading, Stage.run_mark rfl rfl fun t => rfl, onward_expect_scope] at h
  by_cases hscope : last.skipBreaks.next.1.lexeme = .identifier ":"
  · rw [if_pos hscope] at h
    have hbehind : Stage.behindHeading q ⟨word, place⟩ = .on q (.command [] (.entryPoint [])) := by
      simp only [Stage.behindHeading, hfold, Directive.Kind.heading]
    have htable : (Stage.command [] (.entryPoint [])).run q last.skipBreaks.next.2 = .ok q' := by
      rw [hbehind] at h
      exact h
    rw [run_table] at htable
    cases htasks : TaskTable.read last.skipBreaks.next.2.stop last.skipBreaks.next.2.tokens with
    | error e =>
      rw [htasks] at htable
      cases htable
    | ok tasks =>
      rw [htasks] at htable
      cases htable
      obtain ⟨first, blocks, -, -, -, hall⟩ :=
        TaskTable.words_tasks (fun t ht => lexeme_ne_endOfFile ht) htasks
      have hlength := congrArg List.length hall
      simp only [Task.entryPoint, List.flatMap_nil, List.nil_append, List.length_map] at hlength
      rw [hwords, tokenWords_of_skipBreaks hscope, List.length_cons, List.length_cons, hlength]
  · rw [if_neg hscope] at h
    cases h

namespace Passage.WellFormed

variable {p : Passage} (h : p.WellFormed)

include h

theorem wordCount_append (ds : List Char) :
    wordCount (p.source.toList ++ ds) = wordCount p.source.toList + wordCount ds := by
  obtain ⟨front, hsource⟩ := h.ends
  obtain ⟨ts, hts⟩ := exists_tokens_append front 0 false
  have hcount (ds : List Char) : wordCount (front ++ '\n' :: ds) =
      (TaskTable.tokenWords ts).length + wordCount ds := by
    obtain ⟨us, htokens, hus⟩ := hts ds
    have hbehind := congrArg TaskTable.tokenWords hus
    rw [TaskTable.tokenWords_dropWhile, TaskTable.tokenWords_dropWhile] at hbehind
    rw [wordCount, htokens, TaskTable.tokenWords_append, List.length_append, hbehind,
      length_tokenWords]
  have hnone : wordCount [] = 0 := by
    rw [wordCount, tokens_of_endOfFile (lexeme_next_of_rest_eq_nil rfl)]
    rfl
  have halone := hcount []
  rw [hsource, List.append_assoc, List.singleton_append, hcount, halone, hnone, Nat.add_zero]

/-- The heading is a word. -/
theorem wordCount_pos : 0 < wordCount p.source.toList := by
  obtain ⟨word, hword, -⟩ := h.heading
  have hcount : wordCount p.source.toList =
      (TaskTable.tokenWords (Reader.ofSource p.source).tokens).length := rfl
  rw [hcount, tokenWords_of_skipBreaks hword]
  simp

/-- The words of a task table are those of its source but for the heading. -/
theorem length_tableWords_alone (hkind : p.kind = .stages) :
    (TaskTable.tableWords p.quest.tasks).length + 2 = wordCount p.source.toList := by
  obtain ⟨word, hword, hfold⟩ := h.heading
  have hwords := length_tableWords hword (hkind ▸ hfold) (h.run_alone {} 0)
  rwa [Passage.applyTo, hkind] at hwords

end Passage.WellFormed

/-! ## 3. Many sections -/

/-- The sections one after the other. -/
def Passage.join (passages : List Passage) : List Char :=
  passages.flatMap (·.source.toList)

section Passages

variable {passages : List Passage} (h : ∀ p ∈ passages, p.WellFormed)

include h

theorem opensSection_join : OpensSection (Passage.join passages) := by
  cases passages with
  | nil => exact .inl rfl
  | cons p passages => exact (h p List.mem_cons_self).opensSection_append (Passage.join passages)

theorem wordCount_le_join {p : Passage} (hp : p ∈ passages) :
    wordCount p.source.toList ≤ wordCount (Passage.join passages) := by
  induction passages with
  | nil => cases hp
  | cons p' passages ih =>
    obtain ⟨hp', hothers⟩ := List.forall_mem_cons.1 h
    have hcount := hp'.wordCount_append (Passage.join passages)
    rw [Passage.join, List.flatMap_cons]
    rw [Passage.join] at hcount ih
    rcases List.mem_cons.1 hp with rfl | hp
    · omega
    · have := ih hothers hp
      omega

omit h in
/-- The tasks are those of the last task table, or those there were before. -/
theorem tasks_foldl_applyTo (q : Quest) :
    (passages.foldl (fun q p => p.applyTo q) q).tasks = q.tasks ∨
      ∃ p ∈ passages, p.kind = .stages ∧
        (passages.foldl (fun q p => p.applyTo q) q).tasks = p.quest.tasks := by
  induction passages generalizing q with
  | nil => exact .inl rfl
  | cons p passages ih =>
    rcases ih (p.applyTo q) with hsame | ⟨p', hp', hkind, htasks⟩
    · rw [List.foldl_cons, hsame]
      cases hp : p.kind with
      | stages => exact .inr ⟨p, List.mem_cons_self, hp, by rw [Passage.applyTo, hp]⟩
      | _ => exact .inl (by rw [Passage.applyTo, hp])
    · exact .inr ⟨p', List.mem_cons_of_mem _ hp', hkind, htasks⟩

/-- What stands behind a task table is read as commands. So there are more words in
the tasks than in any one task table. -/
theorem run_stages_ne {p : Passage} (hp : p.WellFormed) (hkind : p.kind = .stages)
    (hne : passages ≠ []) (q : Quest) :
    Stage.directive.run q ⟨p.source.toList ++ Passage.join passages, 0, false⟩ ≠
      .ok (passages.foldl (fun q p => p.applyTo q) (p.applyTo q)) := by
  intro hrun
  obtain ⟨word, hfold, hword⟩ := hp.heading_append (Passage.join passages)
  have hwords := length_tableWords (hword 0) (hkind ▸ hfold) hrun
  rw [length_tokenWords, hp.wordCount_append] at hwords
  have hfirst := hp.length_tableWords_alone hkind
  obtain ⟨p₀, others, rfl⟩ := List.exists_cons_of_ne_nil hne
  have hpos := (h p₀ List.mem_cons_self).wordCount_pos
  have hmore := wordCount_le_join h List.mem_cons_self
  rcases tasks_foldl_applyTo (p.applyTo q) with hsame | ⟨p', hp', hkind', htasks⟩
  · have htasks : (p.applyTo q).tasks = p.quest.tasks := by rw [Passage.applyTo, hkind]
    rw [hsame, htasks] at hwords
    omega
  · have hlast := (h p' hp').length_tableWords_alone hkind'
    have hle := wordCount_le_join h hp'
    rw [htasks] at hwords
    omega

/-- The sections are read one after the other, each as a section, as long as no task
table stands before another section. -/
theorem run_join (q : Quest) (offset : Nat) :
    Stage.directive.run q ⟨Passage.join passages, offset, false⟩ =
        .ok (passages.foldl (fun q p => p.applyTo q) q) ↔
      ∀ p ∈ passages.dropLast, p.kind ≠ .stages := by
  induction passages generalizing q offset with
  | nil =>
    have hend : Stage.directive.run q ⟨[], offset, false⟩ = .ok q := Stage.run_endOfFile rfl
    simp [Passage.join, hend]
  | cons p passages ih =>
    obtain ⟨hp, hothers⟩ := List.forall_mem_cons.1 h
    have hjoin : Passage.join (p :: passages) = p.source.toList ++ Passage.join passages := rfl
    rw [hjoin, List.foldl_cons]
    rw [Stage.run_directive_eq_ok]
    cases passages with
    | nil => simp [Passage.join, hp.run_alone]
    | cons p' passages =>
      rw [List.dropLast_cons_cons, List.forall_mem_cons]
      by_cases hkind : p.kind = .stages
      · exact iff_of_false (run_stages_ne hothers hp hkind (by simp) q)
          fun hall => hall.1 hkind
      · rw [hp.run_append hkind q (opensSection_join hothers), ih hothers]
        simp [hkind]

end Passages

/-! ## 4. Whole sources -/

/-- **Of repeated sections, the last one counts, but for task tables.** A source made
of sections, in any order and any of them more than once, makes the quest in which
the last section of each kind counts, if and only if no section stands behind a task
table. -/
theorem Quest.parse_passages {passages : List Passage} (h : ∀ p ∈ passages, p.WellFormed) :
    Quest.parse (.ofList (Passage.join passages)) = .ok (Quest.ofLast passages) ↔
      ∀ p ∈ passages.dropLast, p.kind ≠ .stages := by
  have hlast := Quest.foldl_applyTo_ofLast [] passages
  rw [List.nil_append] at hlast
  rw [Quest.parse_eq_run, State.run, State.start, Reader.ofSource, String.toList_ofList, ← hlast]
  exact run_join h {} 0

/-- The title twice, with a flag and resources between, and the task table last. Blanks
and an empty line stand before some of the headings. -/
def tides : List Passage := [
  ⟨.title, "  title : Low tide\n\n", { title := "Low tide" }⟩,
  ⟨.background, "+background\n", { runsInBackground := true }⟩,
  ⟨.resources, "\nqrc :\nsound : 2 Bell\n\n", { resources := .ofList [(2, ⟨.sound, "Bell"⟩)] }⟩,
  ⟨.title, "Title : High tide\n\n", { title := "High tide" }⟩,
  ⟨.stages, "qst :\nsound 2\n\n", { tasks := [.entryPoint [⟨"sound", ["2"]⟩]] }⟩]

theorem wellFormed_tides : ∀ p ∈ tides, p.WellFormed := by
  simp only [tides, List.forall_mem_cons]
  refine ⟨?_, ?_, ?_, ?_, ?_, by simp⟩
  · refine Passage.IsSection.of_plain ⟨⟨"title", by decide +kernel, by decide⟩,
      ⟨.title "Low tide", by decide +kernel⟩, Quest.parse_of_runFor (n := 20) (by cbv), by decide⟩
      "  title : Low tide".toList (by decide) (by decide)
  · refine Passage.IsSection.of_flag ⟨⟨"+background", by decide +kernel, by decide⟩,
      ⟨.flag "+background" 0, by decide +kernel⟩, Quest.parse_of_runFor (n := 20) (by cbv),
      by decide⟩ ⟨"+background".toList, by decide⟩ rfl
  · refine Passage.IsSection.of_plain ⟨⟨"qrc", by decide +kernel, by decide⟩,
      ⟨.resources [(2, ⟨.sound, "Bell"⟩)], by decide +kernel⟩,
      Quest.parse_of_runFor (n := 20) (by cbv), by decide⟩
      "\nqrc :\nsound : 2 Bell".toList (by decide) (by decide)
  · refine Passage.IsSection.of_plain ⟨⟨"Title", by decide +kernel, by decide⟩,
      ⟨.title "High tide", by decide +kernel⟩, Quest.parse_of_runFor (n := 20) (by cbv), by decide⟩
      "Title : High tide".toList (by decide) (by decide)
  · refine Passage.IsSection.of_plain ⟨⟨"qst", by decide +kernel, by decide⟩,
      ⟨.stages [⟨"sound", ["2"]⟩] [], by decide +kernel⟩, Quest.parse_of_runFor (n := 20) (by cbv),
      trivial⟩ "qst :\nsound 2".toList (by decide) (by decide)

theorem parse_passages_tides :
    (∀ p ∈ tides, p.WellFormed) ∧ (∀ p ∈ tides.dropLast, p.kind ≠ .stages) ∧
      Quest.parse (.ofList (Passage.join tides)) = .ok (Quest.ofLast tides) ∧
      (Quest.ofLast tides).title = "High tide" ∧
      (Quest.ofLast tides).runsInBackground = true := by
  have hlast : ∀ p ∈ tides.dropLast, p.kind ≠ .stages := by decide
  exact ⟨wellFormed_tides, hlast, (Quest.parse_passages wellFormed_tides).2 hlast, rfl, rfl⟩

/-- Two task tables. -/
def watches : List Passage := [
  ⟨.stages, "qst :\na\n\n", { tasks := [.entryPoint [⟨"a", []⟩]] }⟩,
  ⟨.stages, "qst :\nb\n\n", { tasks := [.entryPoint [⟨"b", []⟩]] }⟩]

theorem wellFormed_watches : ∀ p ∈ watches, p.WellFormed := by
  simp only [watches, List.forall_mem_cons]
  refine ⟨?_, ?_, by simp⟩
  · refine Passage.IsSection.of_plain ⟨⟨"qst", by decide +kernel, by decide⟩,
      ⟨.stages [⟨"a", []⟩] [], by decide +kernel⟩, Quest.parse_of_runFor (n := 20) (by cbv),
      trivial⟩ "qst :\na".toList (by decide) (by decide)
  · refine Passage.IsSection.of_plain ⟨⟨"qst", by decide +kernel, by decide⟩,
      ⟨.stages [⟨"b", []⟩] [], by decide +kernel⟩, Quest.parse_of_runFor (n := 20) (by cbv),
      trivial⟩ "qst :\nb".toList (by decide) (by decide)

/-- The second task table does not replace the first: its heading is read as a
command, and its commands are added. -/
theorem taskTable_not_replaced :
    ¬ ∀ passages : List Passage, (∀ p ∈ passages, p.WellFormed) →
      Quest.parse (.ofList (Passage.join passages)) = .ok (Quest.ofLast passages) := by
  intro h
  have hreplaced := h watches wellFormed_watches
  have hjoined : Quest.parse (.ofList (Passage.join watches)) =
      .ok { tasks := [.entryPoint [⟨"a", []⟩, ⟨"qst", [":"]⟩, ⟨"b", []⟩]] } :=
    Quest.parse_of_runFor (n := 20) (by cbv)
  rw [hjoined] at hreplaced
  exact absurd (congrArg Quest.tasks (Except.ok.inj hreplaced)) (by decide)

end Questbook
