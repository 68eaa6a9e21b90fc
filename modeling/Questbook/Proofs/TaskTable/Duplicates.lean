/-
Questbook.Proofs.TaskTable.Duplicates — the log and the check agree on repeated
tasks.

Repeated names are noticed in two places that know nothing of each other. The log is
told while the table is read: of each task whose name came before, and the name of
the entry point came first of all. The check looks at the finished quest: it leaves
out the entry point, reports a name used again once, at its second task, and keeps
the name of the entry point apart.

Both are counted here, name by name, against the number of later tasks of that name
(`Quest.laterTasks`): the notices by `Directive.count_taskNotices`, the findings by
`Finding.count_ofTasks` and `Finding.countP_ofTasks`. That these are counts of one
and the same list needs that a source that is read without an error has one task
table at most, and nothing behind it (`Reader.items_of_ok`); the tasks of an earlier
table would have been in the log and not in the quest.

A notice is found in the log by its wording, and no two sorts of notices have the
same (`Notice.eq_of_message_eq`).
-/
import Mathlib
import Questbook.Proofs.Grammar.Automaton
import Questbook.Proofs.TaskTable.Source
import Questbook.Quest.Finding

namespace Questbook

open Text

/-! ## 1. Wording -/

/-- How often the log was warned that there is more than one task of this name. -/
def Reading.repetitions (reading : Reading) (name : String) : Nat :=
  reading.notices.countP fun notice => notice.level == .warn && notice.message ==
    s!"task '{name}' is defined more than once; lookups will use the last definition"

namespace Notice

theorem head?_toList_append {s : String} {c : Char} (h : s.toList.head? = some c) (t : String) :
    (s ++ t).toList.head? = some c := by
  rw [String.toList_append, List.head?_append, h]
  rfl

theorem getLast?_toList_append {t : String} {c : Char} (h : t.toList.getLast? = some c)
    (s : String) : (s ++ t).toList.getLast? = some c := by
  rw [String.toList_append, List.getLast?_append, h]
  rfl

/-- The letter that the wording opens with. -/
def initial : Notice → Char
  | .unknownFlag .. => 'i'
  | .repeatedResource .. | .questReused _ => 'r'
  | .repeatedTask _ | .taskAdded false .. => 't'
  | .taskAdded true .. | .configLoaded .. => 'e'
  | .questParsed .. => 'q'
  | .configIgnored .. => 'C'

theorem head?_message (notice : Notice) : notice.message.toList.head? = some notice.initial := by
  cases notice with
  | taskAdded isEvent name commands =>
    cases isEvent <;>
    · unfold message
      repeat refine head?_toList_append ?_ _
      rfl
  | _ =>
    unfold message
    repeat refine head?_toList_append ?_ _
    rfl

/-- No other notice has the wording of a repeated task: the others open with another
letter, or they end with a parenthesis. -/
theorem eq_of_message_eq {notice : Notice} {name : String}
    (h : notice.message = (repeatedTask name).message) : notice = .repeatedTask name := by
  have hinitial : notice.initial = 't' := by
    have hhead := notice.head?_message
    rw [h, head?_message] at hhead
    exact (Option.some.inj hhead).symm
  cases notice with
  | repeatedTask other =>
    unfold message at h
    have hname := (String.append_right_inj _).1 ((String.append_left_inj _).1 h)
    exact congrArg repeatedTask hname
  | taskAdded isEvent other commands =>
    have hlast : (taskAdded isEvent other commands).message.toList.getLast? = some ')' := by
      unfold message
      exact getLast?_toList_append rfl _
    have hlast' : (repeatedTask name).message.toList.getLast? = some 'n' := by
      unfold message
      exact getLast?_toList_append rfl _
    rw [h, hlast'] at hlast
    cases hlast
  | _ => cases hinitial

end Notice

theorem Reading.repetitions_eq (reading : Reading) (name : String) :
    reading.repetitions name = reading.notices.count (.repeatedTask name) := by
  rw [repetitions, List.count_eq_countP]
  refine List.countP_congr fun notice _ => ?_
  rw [Bool.and_eq_true, beq_iff_eq, beq_iff_eq, beq_iff_eq]
  constructor
  · exact fun h => Notice.eq_of_message_eq h.2
  · rintro rfl
    exact ⟨rfl, rfl⟩

/-! ## 2. Counting -/

/-- How many of these tasks have this name. -/
def Task.occurrences (name : String) (tasks : List Task) : Nat :=
  (tasks.map Task.name).count name

theorem Task.occurrences_cons (name : String) (task : Task) (tasks : List Task) :
    occurrences name (task :: tasks) =
      occurrences name tasks + if task.name = name then 1 else 0 := by
  simp only [occurrences, List.map_cons, List.count_cons, beq_iff_eq]

/-- How many tasks behind the entry point have this name. -/
def Quest.laterTasks (q : Quest) (name : String) : Nat :=
  Task.occurrences name q.tasks.tail

namespace Directive

/-- Every task is noticed but the first of a name that is not among `names`. -/
theorem count_taskNotices (name : String) (names : List String) (tasks : List Task) :
    (taskNotices names tasks).count (.repeatedTask name) =
      Task.occurrences name tasks - if name ∈ names then 0 else 1 := by
  induction tasks generalizing names with
  | nil => simp [taskNotices, Task.occurrences]
  | cons task tasks ih =>
    rw [taskNotices, List.count_append, List.count_cons, ih, Task.occurrences_cons]
    by_cases hname : task.name = name
    · subst hname
      by_cases hmem : task.name ∈ names <;> simp [hmem]; omega
    · by_cases hmem : task.name ∈ names <;> simp [hmem, hname, Ne.symm hname]

theorem count_resourceNotices (name : String) (ids : List Int64)
    (entries : List (Int64 × Resource)) :
    (resourceNotices ids entries).count (.repeatedTask name) = 0 := by
  induction entries generalizing ids with
  | nil => rfl
  | cons entry entries ih =>
    rw [resourceNotices, List.count_append, ih]
    split <;> simp

end Directive

namespace Finding

/-- A task behind the entry point has its name. -/
def isMisplaced : Finding → Bool
  | .misplacedEntryPoint _ => true
  | _ => false

/-- A name that is not kept for the entry point is reported once, when it comes for
the second time; `names` are those before. -/
theorem count_ofTasks {name : String} (hname : name ≠ Task.entryPointName) (index : Nat)
    (names : List String) (tasks : List Task) :
    (ofTasks index names tasks).count (.duplicateTask name) =
      if names.count name ≤ 1 ∧ 2 ≤ names.count name + Task.occurrences name tasks then 1 else 0 := by
  induction tasks generalizing index names with
  | nil =>
    rw [if_neg (by simp only [Task.occurrences, List.map_nil, List.count_nil]; omega)]
    rfl
  | cons task tasks ih =>
    rw [Task.occurrences_cons]
    unfold ofTasks
    split
    · next hentry =>
      have hne : task.name ≠ name := by
        rintro rfl
        exact hname (beq_iff_eq.1 hentry)
      rw [List.count_cons_of_ne (by simp), ih, if_neg hne, Nat.add_zero]
    · by_cases heq : task.name = name
      · subst heq
        rw [if_pos rfl]
        split
        · next hcount =>
          rw [List.count_cons_self, ih, List.count_cons_self, if_neg (by omega),
            if_pos (by omega)]
        · next hcount =>
          rw [ih, List.count_cons_self]
          by_cases hnone : task.name ∈ names
          · have hmany := List.count_pos_iff.2 hnone
            rw [if_neg (by omega), if_neg (by omega)]
          · rw [List.count_eq_zero.2 hnone, Nat.zero_add, Nat.zero_add, Nat.add_comm]
            simp
      · rw [if_neg heq]
        split
        · rw [List.count_cons_of_ne (by simpa using heq), ih, List.count_cons_of_ne heq,
            Nat.add_zero]
        · rw [ih, List.count_cons_of_ne heq, Nat.add_zero]

/-- The name that is kept for the entry point is never reported as a duplicate. -/
theorem entryPointName_not_mem_ofTasks (index : Nat) (names : List String) (tasks : List Task) :
    duplicateTask Task.entryPointName ∉ ofTasks index names tasks := by
  induction tasks generalizing index names with
  | nil => exact List.not_mem_nil
  | cons task tasks ih =>
    unfold ofTasks
    split
    · simp [ih]
    · next hentry =>
      have hne : Task.entryPointName ≠ task.name := by
        intro heq
        exact hentry (beq_iff_eq.2 heq.symm)
      split <;> simp [ih, hne]

/-- It is reported at every later task that has it. -/
theorem countP_ofTasks (index : Nat) (names : List String) (tasks : List Task) :
    (ofTasks index names tasks).countP isMisplaced =
      Task.occurrences Task.entryPointName tasks := by
  induction tasks generalizing index names with
  | nil => rfl
  | cons task tasks ih =>
    rw [Task.occurrences_cons]
    unfold ofTasks
    split
    · next hentry => rw [List.countP_cons_of_pos rfl, ih, if_pos (beq_iff_eq.1 hentry)]
    · next hentry =>
      rw [if_neg fun heq => hentry (beq_iff_eq.2 heq)]
      split
      · rw [List.countP_cons_of_neg (by simp [isMisplaced]), ih, Nat.add_zero]
      · rw [ih, Nat.add_zero]

end Finding

/-! ## 3. One task table -/

/-- It is not a task table. -/
def Directive.NoTable (d : Directive) : Prop :=
  ∀ opening blocks, d ≠ .stages opening blocks

namespace Directive.NoTable

variable {d : Directive}

theorem tasks_applyTo (h : d.NoTable) (q : Quest) : (d.applyTo q).tasks = q.tasks := by
  cases d with
  | flag text offset =>
    rw [applyTo]
    split <;> rfl
  | stages opening blocks => exact absurd rfl (h opening blocks)
  | _ => rfl

theorem tasks_foldl {ds : List Directive} (h : ∀ d ∈ ds, d.NoTable) (q : Quest) :
    (ds.foldl applyTo q).tasks = q.tasks := by
  induction ds generalizing q with
  | nil => rfl
  | cons d ds ih =>
    obtain ⟨hd, hds⟩ := List.forall_mem_cons.1 h
    rw [List.foldl_cons, ih hds, hd.tasks_applyTo]

theorem count_notices (h : d.NoTable) (name : String) :
    d.notices.count (.repeatedTask name) = 0 := by
  cases d with
  | flag text offset =>
    rw [notices]
    split <;> simp
  | resources entries => exact count_resourceNotices name [] entries
  | stages opening blocks => exact absurd rfl (h opening blocks)
  | _ => rfl

theorem count_flatMap {ds : List Directive} (h : ∀ d ∈ ds, d.NoTable) (name : String) :
    (ds.flatMap notices).count (.repeatedTask name) = 0 := by
  induction ds with
  | nil => rfl
  | cons d ds ih =>
    obtain ⟨hd, hds⟩ := List.forall_mem_cons.1 h
    rw [List.flatMap_cons, List.count_append, hd.count_notices, ih hds]

end Directive.NoTable

namespace Reader

/-- What is read under a heading is one directive, and a task table reaches to where
no directive starts. -/
theorem items_body {heading : Identifier} {r last : Reader}
    (h : (r.body heading).ending = .ok last) :
    ∃ d, (r.body heading).items = [d] ∧ (d.NoTable ∨ last.Halted) := by
  unfold body at h ⊢
  split at h
  · exact ⟨_, rfl, .inl (by simp [Directive.NoTable])⟩
  · exact ⟨_, rfl, .inl (by simp [Directive.NoTable])⟩
  · exact ⟨_, rfl, .inl (by simp [Directive.NoTable])⟩
  · have htasks := tasks_tokens r (.entryPoint [])
    have hending : r.skipBreaks.commands.2.blocks.ending = .ok last := h
    rw [hending] at htasks
    exact ⟨_, rfl, .inr htasks.1⟩
  · cases h

theorem items_directive {r last : Reader} (h : r.directive.ending = .ok last) :
    ∃ d, r.directive.items = [d] ∧ (d.NoTable ∨ last.Halted) := by
  unfold directive at h ⊢
  split at h
  · cases h
  · next word r₁ _ =>
    split at h
    · next hplus =>
      simp only [if_pos hplus]
      exact ⟨_, rfl, .inl (by simp [Directive.NoTable])⟩
    · next hplus =>
      simp only [if_neg hplus]
      split at h
      · cases h
      · exact items_body h

/-- **Nothing stands behind a task table.** A source that is read without an error has
one task table at most, and it comes last. -/
theorem items_of_ok {r last : Reader} (h : r.directives.ending = .ok last) :
    ∃ ds, (∀ d ∈ ds, d.NoTable) ∧
      (r.directives.items = ds ∨
        ∃ opening blocks, r.directives.items = ds ++ [.stages opening blocks]) := by
  induction hn : r.rest.length using Nat.strongRecOn generalizing r with
  | ind n ih =>
    cases hend : r.skipBreaks.atEnd with
    | true => exact ⟨[], by simp, .inl (by rw [directives_of_atEnd hend])⟩
    | false =>
      cases hfirst : r.skipBreaks.directive.ending with
      | error e =>
        rw [directives_of_error hend hfirst] at h
        cases h
      | ok behind =>
        have hlt := Nat.lt_of_lt_of_le (length_directive_lt hfirst) r.length_skipBreaks_le
        obtain ⟨d, hd, hkind⟩ := items_directive hfirst
        rw [directives_of_ok hend hfirst] at h ⊢
        simp only [hd] at h ⊢
        by_cases htable : d.NoTable
        · obtain ⟨ds, hds, hitems⟩ := ih _ (hn ▸ hlt) h rfl
          refine ⟨d :: ds, List.forall_mem_cons.2 ⟨htable, hds⟩, ?_⟩
          rcases hitems with hitems | ⟨opening, blocks, hitems⟩
          · exact .inl (by rw [hitems]; rfl)
          · exact .inr ⟨opening, blocks, by rw [hitems]; rfl⟩
        · have hhalted := hkind.resolve_left htable
          simp only [Directive.NoTable, Classical.not_forall, Classical.not_not] at htable
          obtain ⟨opening, blocks, rfl⟩ := htable
          refine ⟨[], by simp, .inr ⟨opening, blocks, ?_⟩⟩
          rw [directives_of_halted hhalted]
          rfl

end Reader

/-! ## 4. The log and the check -/

namespace Quest

variable {source : String} {q : Quest}

/-- What the log is told of repeated tasks, it is told of the tasks of the quest. -/
theorem repetitions_eq_count (h : Quest.parse source = .ok q) (name : String) :
    (reading source).repetitions name =
      (Directive.taskNotices [Task.entryPointName] q.tasks.tail).count (.repeatedTask name) := by
  rw [Reading.repetitions_eq]
  rw [parse_eq, Run.quest] at h
  cases hending : (Reader.ofSource source).directives.ending with
  | error e =>
    rw [hending] at h
    cases h
  | ok last =>
    rw [hending] at h
    obtain ⟨ds, hds, hitems⟩ := Reader.items_of_ok hending
    rw [reading]
    rcases hitems with hitems | ⟨opening, blocks, hitems⟩
    · rw [hitems] at h ⊢
      cases h
      rw [Directive.NoTable.tasks_foldl hds, Directive.NoTable.count_flatMap hds]
      rfl
    · rw [hitems, List.foldl_append] at h
      cases h
      rw [hitems, List.flatMap_append, List.count_append, Directive.NoTable.count_flatMap hds,
        Nat.zero_add, List.flatMap_singleton]
      rfl

/-- A finding about repeated tasks is one about the tasks behind the entry point. -/
theorem findings_eq_append (q : Quest) :
    ∃ others, q.findings = others ++ Finding.ofTasks 1 [] q.tasks.tail ∧
      ∀ finding ∈ others, finding = .emptyTitle ∨ finding = .missingEntryPoint := by
  refine ⟨_, rfl, fun finding hfinding => ?_⟩
  rcases List.mem_append.1 hfinding with htitle | hentry
  · split at htitle
    · exact .inl (List.mem_singleton.1 htitle)
    · cases htitle
  · split at hentry
    · cases hentry
    · exact .inr (List.mem_singleton.1 hentry)

theorem count_findings (q : Quest) (name : String) :
    q.findings.count (.duplicateTask name) =
      (Finding.ofTasks 1 [] q.tasks.tail).count (.duplicateTask name) := by
  obtain ⟨others, hfindings, hothers⟩ := q.findings_eq_append
  have hnone : Finding.duplicateTask name ∉ others := by
    intro hmem
    rcases hothers _ hmem with h | h <;> cases h
  rw [hfindings, List.count_append, List.count_eq_zero.2 hnone, Nat.zero_add]

theorem countP_findings (q : Quest) :
    q.findings.countP Finding.isMisplaced = q.laterTasks Task.entryPointName := by
  obtain ⟨others, hfindings, hothers⟩ := q.findings_eq_append
  have hnone : others.countP Finding.isMisplaced = 0 := by
    refine List.countP_eq_zero.2 fun finding hmem => ?_
    rcases hothers _ hmem with rfl | rfl <;> simp [Finding.isMisplaced]
  rw [hfindings, List.countP_append, hnone, Nat.zero_add, Finding.countP_ofTasks]
  rfl

/-- The log is warned of each later task but the first of its name, and of each that
has the name of the entry point. -/
theorem repetitions_eq_laterTasks (h : Quest.parse source = .ok q) (name : String) :
    (reading source).repetitions name =
      q.laterTasks name - if name = Task.entryPointName then 0 else 1 := by
  rw [repetitions_eq_count h, Directive.count_taskNotices]
  simp only [List.mem_singleton]
  rfl

/-- The check reports each name that two later tasks have, other than that of the
entry point. -/
theorem count_findings_eq (q : Quest) (name : String) :
    q.findings.count (.duplicateTask name) =
      if name ≠ Task.entryPointName ∧ 2 ≤ q.laterTasks name then 1 else 0 := by
  rw [count_findings]
  by_cases hname : name = Task.entryPointName
  · subst hname
    rw [if_neg (by simp), List.count_eq_zero]
    exact Finding.entryPointName_not_mem_ofTasks 1 [] q.tasks.tail
  · rw [Finding.count_ofTasks hname]
    simp [hname, laterTasks]

/-- **The log and the check agree on repeated tasks.** The names the log was warned
of are those that the check reports as used again, and the name of the entry point if
the check reports a task that has it. Of a name that `k` tasks have, the log was
warned `k - 1` times, and the check reports it once if `k` is two or more; for the
name of the entry point, which comes before them all, both have `k`. -/
theorem repetitions_agree (h : Quest.parse source = .ok q) :
    (∀ name, 0 < (reading source).repetitions name ↔
      .duplicateTask name ∈ q.findings ∨
        (name = Task.entryPointName ∧ ∃ index, .misplacedEntryPoint index ∈ q.findings)) ∧
    (∀ name, name ≠ Task.entryPointName →
      (reading source).repetitions name = q.laterTasks name - 1 ∧
        q.findings.count (.duplicateTask name) = if 2 ≤ q.laterTasks name then 1 else 0) ∧
    (reading source).repetitions Task.entryPointName = q.laterTasks Task.entryPointName ∧
      q.findings.countP Finding.isMisplaced = q.laterTasks Task.entryPointName := by
  have hmisplaced : (∃ index, .misplacedEntryPoint index ∈ q.findings) ↔
      0 < q.laterTasks Task.entryPointName := by
    rw [← countP_findings, List.countP_pos_iff]
    constructor
    · rintro ⟨index, hindex⟩
      exact ⟨_, hindex, rfl⟩
    · rintro ⟨finding, hfinding, hkind⟩
      cases finding with
      | misplacedEntryPoint index => exact ⟨index, hfinding⟩
      | _ => cases hkind
  refine ⟨fun name => ?_, fun name hname => ?_, ?_, q.countP_findings⟩
  · rw [repetitions_eq_laterTasks h, ← List.count_pos_iff, count_findings_eq, hmisplaced]
    by_cases hname : name = Task.entryPointName
    · simp [hname]
    · rw [if_neg hname]
      simp only [hname, ne_eq, not_false_eq_true, true_and, false_and, or_false]
      split <;> omega
  · rw [repetitions_eq_laterTasks h, count_findings_eq, if_neg hname]
    simp [hname]
  · rw [repetitions_eq_laterTasks h, if_pos rfl, Nat.sub_zero]

/-- Three tasks of one name, one that differs in case, and one with the name of the
entry point. -/
theorem repetitions_agree_thrice :
    ∃ q, Quest.parse "qst:\ntask a:\nevent A:\ntask a:\ntask <entry-point>:\nx\nevent a:" = .ok q ∧
      q.findings = [.emptyTitle, .duplicateTask "a", .misplacedEntryPoint 4] ∧
      (reading
        "qst:\ntask a:\nevent A:\ntask a:\ntask <entry-point>:\nx\nevent a:").repetitions "a" = 2 ∧
      (reading
        "qst:\ntask a:\nevent A:\ntask a:\ntask <entry-point>:\nx\nevent a:").repetitions
          Task.entryPointName = 1 := by
  have hparse : Quest.parse
      "qst:\ntask a:\nevent A:\ntask a:\ntask <entry-point>:\nx\nevent a:" =
      .ok { tasks := [.entryPoint [], ⟨"a", [], false⟩, ⟨"A", [], true⟩, ⟨"a", [], false⟩,
        ⟨"<entry-point>", [⟨"x", []⟩], false⟩, ⟨"a", [], true⟩] } :=
    Quest.parse_of_runFor (n := 40) (by cbv)
  obtain ⟨-, hcounts, hentry, -⟩ := repetitions_agree hparse
  exact ⟨_, hparse, by decide, (hcounts "a" (by decide)).1, hentry⟩

end Quest

end Questbook
