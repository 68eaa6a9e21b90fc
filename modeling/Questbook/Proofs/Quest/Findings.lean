/-
Questbook.Proofs.Quest.Findings — the check reports exactly what is odd.

The check goes through the tasks behind the first with the names it has met so far.
What it should report can be said without such a loop: the task at a place shows
something by its own name and by how often that name stands before it
(`Finding.ShownBy`). The loop reports, place by place, what is shown there
(`Finding.ofTasks_shown`, `Finding.pairwise_ofTasks`), and a finding is shown by one
place only (`Finding.ShownBy.unique`). That each name is reported once can also be had by
remembering it, with no counting: a set of the names that came and a set of those that
were reported give the same findings (`Quest.laterFindings_eq_ofTasksWith`).

How often a duplicate is reported is counted in `Proofs.TaskTable.Duplicates`; the
places of the name kept for the entry point are counted here. `Quest.Reports` puts the
counts and the order together.
-/
import Mathlib
import Questbook.Proofs.TaskTable.Duplicates

namespace Questbook

/-! ## 1. Blank titles -/

namespace Unicode

/-- The text without the white space at either end. -/
def trim (cs : List Char) : List Char :=
  ((cs.dropWhile isSpace).reverse.dropWhile isSpace).reverse

theorem trim_eq_nil_iff (s : String) : trim s.toList = [] ↔ isBlankText s = true := by
  rw [trim, List.reverse_eq_nil_iff, List.dropWhile_eq_nil_iff, isBlankText, List.all_eq_true]
  constructor
  · intro h c hc
    rw [← List.takeWhile_append_dropWhile (p := isSpace) (l := s.toList), List.mem_append] at hc
    rcases hc with hc | hc
    · exact List.mem_takeWhile_imp hc
    · exact h c (List.mem_reverse.2 hc)
  · intro h c hc
    exact h c ((List.dropWhile_suffix _).subset (List.mem_reverse.1 hc))

end Unicode

/-! ## 2. The place that shows a finding -/

/-- What the task at a place shows, where `names` are the names of all tasks. The first
task shows nothing and does not count as a use of its name. -/
inductive Finding.ShownBy (names : List String) : Nat → Finding → Prop
  /-- It has the name that is kept for the entry point. -/
  | misplaced {i : Nat} : 1 ≤ i → names[i]? = some Task.entryPointName →
      ShownBy names i (.misplacedEntryPoint i)
  /-- One task between the first and it has its name: it is the second. -/
  | second {i : Nat} {name : String} : 1 ≤ i → name ≠ Task.entryPointName →
      names[i]? = some name → (names.take i).tail.count name = 1 →
      ShownBy names i (.duplicateTask name)

namespace Finding

/-- Behind a place that is not the first, its name is one more. -/
theorem tail_take_succ {names : List String} {i : Nat} {name : String} (hi : 1 ≤ i)
    (h : names[i]? = some name) : (names.take (i + 1)).tail = (names.take i).tail ++ [name] := by
  obtain ⟨hlt, -⟩ := List.getElem?_eq_some_iff.1 h
  rw [List.take_add_one, h, Option.toList_some, List.tail_append_of_ne_nil]
  exact List.ne_nil_of_length_pos (by rw [List.length_take]; omega)

/-- A name that stands at a place is counted from the next place on. -/
theorem count_take_lt {names : List String} {i j : Nat} {name : String} (hi : 1 ≤ i)
    (hij : i < j) (h : names[i]? = some name) :
    (names.take i).tail.count name < (names.take j).tail.count name := by
  have hsub : (names.take (i + 1)).tail.Sublist (names.take j).tail :=
    (List.take_sublist_take_left hij).tail
  calc (names.take i).tail.count name
      < (names.take (i + 1)).tail.count name := by
        rw [tail_take_succ hi h, List.count_append, List.count_singleton_self]
        exact Nat.lt_succ_self _
    _ ≤ (names.take j).tail.count name := hsub.count_le name

theorem ShownBy.unique {names : List String} {f : Finding} {i j : Nat} (hi : f.ShownBy names i)
    (hj : f.ShownBy names j) : i = j := by
  cases hi with
  | misplaced _ _ =>
    cases hj
    rfl
  | second hi _ hnamei hcounti =>
    cases hj with
    | second hj _ hnamej hcountj =>
      rcases Nat.lt_trichotomy i j with h | h | h
      · have hlt := count_take_lt hi h hnamei
        omega
      · exact h
      · have hlt := count_take_lt hj h hnamej
        omega

theorem shownBy_of_entryPoint {names : List String} {f : Finding} {i : Nat} (hi : 1 ≤ i)
    (h : names[i]? = some Task.entryPointName) :
    f.ShownBy names i ↔ f = .misplacedEntryPoint i := by
  constructor
  · intro hf
    cases hf with
    | misplaced _ _ => rfl
    | second _ hname hat _ =>
      rw [h] at hat
      exact absurd (Option.some.inj hat).symm hname
  · rintro rfl
    exact .misplaced hi h

theorem shownBy_of_ne {names : List String} {f : Finding} {i : Nat} {name : String} (hi : 1 ≤ i)
    (h : names[i]? = some name) (hname : name ≠ Task.entryPointName) :
    f.ShownBy names i ↔
      f = .duplicateTask name ∧ (names.take i).tail.count name = 1 := by
  constructor
  · intro hf
    cases hf with
    | misplaced _ hat =>
      rw [h] at hat
      exact absurd (Option.some.inj hat) hname
    | second _ _ hat hcount =>
      rw [h] at hat
      cases hat
      exact ⟨rfl, hcount⟩
  · rintro ⟨rfl, hcount⟩
    exact .second hi hname h hcount

/-! ## 3. The loop -/

/-- The loop is at place `index` of the names, and `met` are the names it has met, but
for the one kept for the entry point. -/
structure Met (names : List String) (index : Nat) (met : List String) : Prop where
  pos : 1 ≤ index
  count_eq : ∀ name, name ≠ Task.entryPointName →
    met.count name = (names.take index).tail.count name

namespace Met

variable {names met : List String} {index : Nat} {name : String}

theorem skip (h : Met names index met) (hat : names[index]? = some Task.entryPointName) :
    Met names (index + 1) met := by
  refine ⟨Nat.le_succ_of_le h.pos, fun other hother => ?_⟩
  rw [tail_take_succ h.pos hat, List.count_append, h.count_eq other hother,
    List.count_singleton, if_neg (by simpa using hother.symm), Nat.add_zero]

theorem cons (h : Met names index met) (hat : names[index]? = some name) :
    Met names (index + 1) (name :: met) := by
  refine ⟨Nat.le_succ_of_le h.pos, fun other hother => ?_⟩
  rw [tail_take_succ h.pos hat, List.count_append, List.count_cons, List.count_singleton,
    h.count_eq other hother]

end Met

variable {names met : List String} {index : Nat}

/-- The names from a place on, as those of the tasks that are left. -/
theorem getElem?_of_drop {name : String} {rest : List String}
    (h : names.drop index = name :: rest) :
    names[index]? = some name ∧ names.drop (index + 1) = rest := by
  rw [← List.head?_drop, ← List.tail_drop, h]
  exact ⟨rfl, rfl⟩

/-- **What is reported is what is shown.** From a place on, the loop reports what the
tasks from that place on show. -/
theorem mem_ofTasks_iff {tasks : List Task} {f : Finding} (h : Met names index met)
    (htasks : names.drop index = tasks.map Task.name) :
    f ∈ ofTasks index met tasks ↔ ∃ i, index ≤ i ∧ f.ShownBy names i := by
  induction tasks generalizing index met with
  | nil =>
    refine iff_of_false List.not_mem_nil ?_
    rintro ⟨i, hi, hf⟩
    have hat : names[i]? = none :=
      List.getElem?_eq_none ((List.drop_eq_nil_iff.1 htasks).trans hi)
    cases hf <;> simp_all
  | cons task tasks ih =>
    obtain ⟨hat, hrest⟩ := getElem?_of_drop htasks
    have hsplit : (∃ i, index ≤ i ∧ f.ShownBy names i) ↔
        f.ShownBy names index ∨ ∃ i, index + 1 ≤ i ∧ f.ShownBy names i := by
      constructor
      · rintro ⟨i, hi, hf⟩
        rcases Nat.eq_or_lt_of_le hi with rfl | hi
        · exact .inl hf
        · exact .inr ⟨i, hi, hf⟩
      · rintro (hf | ⟨i, hi, hf⟩)
        · exact ⟨index, le_rfl, hf⟩
        · exact ⟨i, by omega, hf⟩
    rw [hsplit]
    unfold ofTasks
    split
    · next hentry =>
      rw [beq_iff_eq.1 hentry] at hat
      rw [List.mem_cons, ih (h.skip hat) hrest, shownBy_of_entryPoint h.pos hat]
    · next hentry =>
      have hname : task.name ≠ Task.entryPointName := fun heq => hentry (beq_iff_eq.2 heq)
      rw [shownBy_of_ne h.pos hat hname, ← h.count_eq _ hname]
      split
      · next hcount => rw [List.mem_cons, ih (h.cons hat) hrest, and_iff_left hcount]
      · next hcount => rw [ih (h.cons hat) hrest, or_iff_right fun hf => hcount hf.2]

/-- The findings come in the order of the places that show them. -/
theorem pairwise_ofTasks {tasks : List Task} (h : Met names index met)
    (htasks : names.drop index = tasks.map Task.name) :
    (ofTasks index met tasks).Pairwise fun f g =>
      ∀ i j, f.ShownBy names i → g.ShownBy names j → i < j := by
  induction tasks generalizing index met with
  | nil => exact .nil
  | cons task tasks ih =>
    obtain ⟨hat, hrest⟩ := getElem?_of_drop htasks
    -- Whatever the place shows, what is reported behind it is shown behind it.
    have hhead : ∀ {f : Finding} {met' : List String}, f.ShownBy names index → Met names (index + 1) met' →
        ∀ g ∈ ofTasks (index + 1) met' tasks,
          ∀ i j, f.ShownBy names i → g.ShownBy names j → i < j := by
      intro f met' hf hmet g hg i j hi hj
      obtain ⟨k, hk, hgk⟩ := (mem_ofTasks_iff hmet hrest).1 hg
      rw [← hf.unique hi, hj.unique hgk]
      exact hk
    unfold ofTasks
    split
    · next hentry =>
      rw [beq_iff_eq.1 hentry] at hat
      exact .cons (hhead (.misplaced h.pos hat) (h.skip hat)) (ih (h.skip hat) hrest)
    · next hentry =>
      have hname : task.name ≠ Task.entryPointName := fun heq => hentry (beq_iff_eq.2 heq)
      split
      · next hcount =>
        rw [h.count_eq _ hname] at hcount
        exact .cons (hhead (.second h.pos hname hat hcount) (h.cons hat)) (ih (h.cons hat) hrest)
      · exact ih (h.cons hat) hrest

/-! ## 4. Two sets in place of the count

What decides about a name is whether it came never, once or more often. So two sets do
for the list of names: `seen` are the names that came, and `reported` those that were
reported. -/

/-- What the tasks from place `index` on show. A name is put into a set by asking whether
it is there already, and into `reported` only if it is in `seen`. -/
def ofTasksWith (index : Nat) (seen reported : Std.HashSet String) : List Task → List Finding
  | [] => []
  | task :: tasks =>
    if task.isEntryPoint then
      .misplacedEntryPoint index :: ofTasksWith (index + 1) seen reported tasks
    else
      let (isSeen, seen) := seen.containsThenInsert task.name
      if isSeen then
        let (isReported, reported) := reported.containsThenInsert task.name
        if isReported then
          ofTasksWith (index + 1) seen reported tasks
        else
          .duplicateTask task.name :: ofTasksWith (index + 1) seen reported tasks
      else
        ofTasksWith (index + 1) seen reported tasks

/-- The sets tell of each name whether it was met, and whether it was met again. -/
structure Sorts (met : List String) (seen reported : Std.HashSet String) : Prop where
  mem_seen : ∀ name, name ∈ seen ↔ 1 ≤ met.count name
  mem_reported : ∀ name, name ∈ reported ↔ 2 ≤ met.count name

namespace Sorts

variable {seen reported : Std.HashSet String} {name : String}

theorem empty : Sorts [] ∅ ∅ := by
  constructor <;> simp

theorem mem_insert_seen (h : Sorts met seen reported) (name other : String) :
    other ∈ seen.insert name ↔ 1 ≤ (name :: met).count other := by
  rw [Std.HashSet.mem_insert, h.mem_seen, List.count_cons]
  split <;> simp_all

/-- A name that comes for the first time gets into the one set. -/
theorem first (h : Sorts met seen reported) (hname : met.count name = 0) :
    Sorts (name :: met) (seen.insert name) reported := by
  refine ⟨h.mem_insert_seen name, fun other => ?_⟩
  rw [h.mem_reported, List.count_cons]
  split
  · next heq =>
    rw [← beq_iff_eq.1 heq, hname]
    omega
  · rfl

/-- A name that comes again gets into both sets. -/
theorem again (h : Sorts met seen reported) (hname : 1 ≤ met.count name) :
    Sorts (name :: met) (seen.insert name) (reported.insert name) := by
  refine ⟨h.mem_insert_seen name, fun other => ?_⟩
  rw [Std.HashSet.mem_insert, h.mem_reported, List.count_cons]
  split
  · next heq =>
    rw [← beq_iff_eq.1 heq]
    exact iff_of_true (.inl (beq_self_eq_true name)) (by omega)
  · next hne => simp [hne]

end Sorts

/-- **The sets do for the count.** -/
theorem ofTasksWith_eq {seen reported : Std.HashSet String} (h : Sorts met seen reported)
    (index : Nat) (tasks : List Task) :
    ofTasksWith index seen reported tasks = ofTasks index met tasks := by
  induction tasks generalizing index met seen reported with
  | nil => rfl
  | cons task tasks ih =>
    simp only [ofTasksWith, Std.HashSet.containsThenInsert_fst,
      Std.HashSet.containsThenInsert_snd, Std.HashSet.contains_iff_mem, h.mem_seen,
      h.mem_reported]
    unfold ofTasks
    split
    · rw [ih h]
    · by_cases hseen : 1 ≤ met.count task.name
      · rw [if_pos hseen, ih (h.again hseen)]
        by_cases hmore : 2 ≤ met.count task.name
        · rw [if_pos hmore, if_neg (by omega)]
        · rw [if_neg hmore, if_pos (by omega)]
      · rw [if_neg hseen, if_neg (by omega), ih (h.first (by omega))]

end Finding

/-! ## 5. The check -/

namespace Quest

/-- The names of the tasks, in order. -/
def taskNames (q : Quest) : List String :=
  q.tasks.map Task.name

/-- What the check should find. -/
structure Reports (q : Quest) (found : List Finding) : Prop where
  emptyTitle : found.count .emptyTitle = if Unicode.trim q.title.toList = [] then 1 else 0
  missingEntryPoint : found.count .missingEntryPoint =
    if q.taskNames.head? = some Task.entryPointName then 0 else 1
  misplacedEntryPoint : ∀ i, found.count (.misplacedEntryPoint i) =
    if 1 ≤ i ∧ q.taskNames[i]? = some Task.entryPointName then 1 else 0
  duplicateTask : ∀ name, found.count (.duplicateTask name) =
    if name ≠ Task.entryPointName ∧ 2 ≤ q.taskNames.tail.count name then 1 else 0
  /-- Of each finding about a task behind the first there is one task that shows it. -/
  shown : ∀ f ∈ found, f = .emptyTitle ∨ f = .missingEntryPoint ∨
    ∃! i, f.ShownBy q.taskNames i
  ordered : found.Pairwise fun f g =>
    ∀ i j, f.ShownBy q.taskNames i → g.ShownBy q.taskNames j → i < j

/-- The findings about the tasks behind the first. -/
def laterFindings (q : Quest) : List Finding :=
  Finding.ofTasks 1 [] q.tasks.tail

theorem laterFindings_eq_ofTasksWith (q : Quest) :
    q.laterFindings = Finding.ofTasksWith 1 ∅ ∅ q.tasks.tail :=
  (Finding.ofTasksWith_eq .empty 1 q.tasks.tail).symm

theorem met_start (q : Quest) : Finding.Met q.taskNames 1 [] := by
  refine ⟨le_rfl, fun name _ => ?_⟩
  cases q.taskNames <;> rfl

theorem drop_taskNames (q : Quest) : q.taskNames.drop 1 = q.tasks.tail.map Task.name := by
  rw [List.drop_one, taskNames, List.map_tail]

theorem mem_laterFindings_iff {q : Quest} {f : Finding} :
    f ∈ q.laterFindings ↔ ∃ i, f.ShownBy q.taskNames i := by
  rw [laterFindings, Finding.mem_ofTasks_iff q.met_start q.drop_taskNames]
  constructor
  · rintro ⟨i, -, hf⟩
    exact ⟨i, hf⟩
  · rintro ⟨i, hf⟩
    refine ⟨i, ?_, hf⟩
    cases hf <;> assumption

theorem pairwise_laterFindings (q : Quest) :
    q.laterFindings.Pairwise fun f g =>
      ∀ i j, f.ShownBy q.taskNames i → g.ShownBy q.taskNames j → i < j :=
  Finding.pairwise_ofTasks q.met_start q.drop_taskNames

theorem nodup_laterFindings (q : Quest) : q.laterFindings.Nodup := by
  refine q.pairwise_laterFindings.imp_of_mem ?_
  rintro f g hf - hlt rfl
  obtain ⟨i, hi⟩ := mem_laterFindings_iff.1 hf
  exact Nat.lt_irrefl i (hlt i i hi hi)

theorem findings_eq (q : Quest) :
    q.findings = (if Unicode.trim q.title.toList = [] then [.emptyTitle] else []) ++
      (if q.taskNames.head? = some Task.entryPointName then [] else [.missingEntryPoint]) ++
      q.laterFindings := by
  have hentry : (q.tasks.head?.map Task.isEntryPoint).getD false = true ↔
      q.taskNames.head? = some Task.entryPointName := by
    rw [taskNames, List.head?_map]
    cases q.tasks.head? with
    | none => simp
    | some task => simp [Task.isEntryPoint]
  simp only [findings, Unicode.trim_eq_nil_iff, hentry, laterFindings]

theorem emptyTitle_not_mem_laterFindings (q : Quest) : .emptyTitle ∉ q.laterFindings := by
  rw [mem_laterFindings_iff]
  rintro ⟨i, hi⟩
  cases hi

theorem missingEntryPoint_not_mem_laterFindings (q : Quest) :
    .missingEntryPoint ∉ q.laterFindings := by
  rw [mem_laterFindings_iff]
  rintro ⟨i, hi⟩
  cases hi

theorem count_misplacedEntryPoint (q : Quest) (i : Nat) :
    q.laterFindings.count (.misplacedEntryPoint i) =
      if 1 ≤ i ∧ q.taskNames[i]? = some Task.entryPointName then 1 else 0 := by
  split
  · next h =>
    exact List.count_eq_one_of_mem q.nodup_laterFindings
      (mem_laterFindings_iff.2 ⟨i, .misplaced h.1 h.2⟩)
  · next h =>
    refine List.count_eq_zero.2 fun hmem => h ?_
    obtain ⟨j, hj⟩ := mem_laterFindings_iff.1 hmem
    cases hj with
    | misplaced hpos hat => exact ⟨hpos, hat⟩

/-- The check finds what it should, no more and no less, and in order. -/
theorem reports_findings (q : Quest) : q.Reports q.findings where
  emptyTitle := by
    rw [findings_eq, List.count_append, List.count_append,
      List.count_eq_zero.2 q.emptyTitle_not_mem_laterFindings]
    split <;> split <;> rfl
  missingEntryPoint := by
    rw [findings_eq, List.count_append, List.count_append,
      List.count_eq_zero.2 q.missingEntryPoint_not_mem_laterFindings]
    split <;> split <;> rfl
  misplacedEntryPoint i := by
    rw [findings_eq, List.count_append, List.count_append, count_misplacedEntryPoint]
    split <;> split <;> simp
  duplicateTask name := by
    rw [count_findings_eq, laterTasks, Task.occurrences, taskNames, List.map_tail]
  shown f hf := by
    obtain ⟨others, heq, hothers⟩ := q.findings_eq_append
    rw [heq, List.mem_append] at hf
    rcases hf with hf | hf
    · rcases hothers f hf with rfl | rfl
      · exact .inl rfl
      · exact .inr (.inl rfl)
    · obtain ⟨i, hi⟩ := mem_laterFindings_iff.1 hf
      exact .inr (.inr ⟨i, hi, fun j hj => hj.unique hi⟩)
  ordered := by
    obtain ⟨others, heq, hothers⟩ := q.findings_eq_append
    -- What is found about the quest as a whole is shown by no task.
    have hnone : ∀ f ∈ others, ∀ i, ¬ f.ShownBy q.taskNames i := by
      intro f hf i hi
      rcases hothers f hf with rfl | rfl <;> cases hi
    rw [heq, List.pairwise_append]
    exact ⟨List.pairwise_of_forall_mem_list fun f hf _ _ i _ hi => absurd hi (hnone f hf i),
      q.pairwise_laterFindings, fun f hf _ _ i _ hi => absurd hi (hnone f hf i)⟩

/-- A quest with nothing odd in it: it has a title, it starts with the entry point, and
no name is used twice. -/
structure Clean (q : Quest) : Prop where
  title : Unicode.trim q.title.toList ≠ []
  entryPoint : q.taskNames.head? = some Task.entryPointName
  nodup : q.taskNames.Nodup

theorem Reports.clean_of_nil {q : Quest} (h : q.Reports []) : q.Clean := by
  have htitle : Unicode.trim q.title.toList ≠ [] := by
    intro hblank
    simpa [hblank] using h.emptyTitle
  have hentry : q.taskNames.head? = some Task.entryPointName := by
    by_contra hentry
    simpa [hentry] using h.missingEntryPoint
  refine ⟨htitle, hentry, ?_⟩
  obtain ⟨names, hnames⟩ := List.head?_eq_some_iff.1 hentry
  have hmem : Task.entryPointName ∉ names := by
    intro hmem
    obtain ⟨i, hi⟩ := List.mem_iff_getElem?.1 hmem
    simpa [hnames, hi] using h.misplacedEntryPoint (i + 1)
  rw [hnames, List.nodup_cons, List.nodup_iff_count_le_one]
  refine ⟨hmem, fun name => ?_⟩
  by_cases hname : name = Task.entryPointName
  · rw [hname, List.count_eq_zero.2 hmem]
    exact Nat.zero_le 1
  · by_contra htwice
    have hcount : 2 ≤ names.count name := by omega
    simpa [hnames, hname, hcount] using h.duplicateTask name

theorem Clean.findings_eq_nil {q : Quest} (h : q.Clean) : q.findings = [] := by
  rw [findings_eq, if_neg h.title, if_pos h.entryPoint, List.nil_append, List.nil_append,
    List.eq_nil_iff_forall_not_mem]
  intro f hf
  obtain ⟨i, hi⟩ := mem_laterFindings_iff.1 hf
  obtain ⟨names, hnames⟩ := List.head?_eq_some_iff.1 h.entryPoint
  have hnodup := h.nodup
  rw [hnames, List.nodup_cons] at hnodup
  -- The task that shows it makes its name come once more behind the first task.
  have hmore : ∀ {name}, 1 ≤ i → q.taskNames[i]? = some name →
      (q.taskNames.take i).tail.count name < names.count name := by
    intro name hpos hat
    obtain ⟨hlt, -⟩ := List.getElem?_eq_some_iff.1 hat
    have hcount := Finding.count_take_lt hpos hlt hat
    simpa only [List.take_length, hnames, List.tail_cons] using hcount
  cases hi with
  | misplaced hpos hat =>
    have hcount := hmore hpos hat
    rw [List.count_eq_zero.2 hnodup.1] at hcount
    exact Nat.not_lt_zero _ hcount
  | @second name hpos _ hat honce =>
    have hcount := hmore hpos hat
    have hle : names.count name ≤ 1 := List.nodup_iff_count_le_one.1 hnodup.2 name
    omega

theorem findings_eq_nil_iff (q : Quest) : q.findings = [] ↔ q.Clean :=
  ⟨fun h => (h ▸ q.reports_findings).clean_of_nil, Clean.findings_eq_nil⟩

/-- In a clean quest each task is the one its name stands for. -/
theorem Clean.task?_name {q : Quest} (h : q.Clean) {i : Nat} {task : Task}
    (htask : q.tasks[i]? = some task) : q.task? task.name = some task := by
  have hmem : task ∈ q.tasks := List.mem_of_getElem? htask
  unfold task?
  cases hfind : q.tasks.reverse.find? fun t => t.name == task.name with
  | none =>
    have hnone := List.find?_eq_none.1 hfind task (List.mem_reverse.2 hmem)
    exact absurd (beq_self_eq_true task.name) hnone
  | some other =>
    have hname : other.name = task.name := by simpa using List.find?_some hfind
    have hother : other ∈ q.tasks := List.mem_reverse.1 (List.mem_of_find?_eq_some hfind)
    rw [List.inj_on_of_nodup_map h.nodup hother hmem hname]

/-- **The findings are exact.** The check reports a blank title once and a missing entry
point once; each later task under the name kept for the entry point, by its place; and
each other name that two later tasks have, once. The findings about tasks come in the
order of the tasks that show them. It reports nothing if and only if there is a title,
the first task is the entry point and all names are different, and then each task is
found under its name. -/
theorem findings_exact (q : Quest) :
    q.Reports q.findings ∧
    (q.findings = [] ↔
      Unicode.trim q.title.toList ≠ [] ∧ q.taskNames.head? = some Task.entryPointName ∧
        q.taskNames.Nodup) ∧
    (q.findings = [] →
      ∀ (i : Nat) (task : Task), q.tasks[i]? = some task → q.task? task.name = some task) := by
  rw [findings_eq_nil_iff]
  refine ⟨q.reports_findings, ⟨?_, ?_⟩, fun h _ _ htask => h.task?_name htask⟩
  · exact fun h => ⟨h.title, h.entryPoint, h.nodup⟩
  · exact fun h => ⟨h.1, h.2.1, h.2.2⟩

/-- A title of spaces that are not ASCII, a name that three tasks have, the name kept for
the entry point twice, and a name that the first task has; and a quest with nothing odd. -/
theorem findings_exact_repeated :
    ({ title := "\u3000\u00a0", tasks := [⟨"b", [], false⟩, ⟨"a", [], false⟩, .entryPoint [],
        ⟨"a", [], true⟩, ⟨"b", [], false⟩, ⟨"a", [], false⟩, .entryPoint []] } : Quest).findings =
      [.emptyTitle, .missingEntryPoint, .misplacedEntryPoint 2, .duplicateTask "a",
        .misplacedEntryPoint 6] ∧
    ({ title := " t ", tasks := [.entryPoint [], ⟨"a", [], false⟩, ⟨"A", [], true⟩] } :
        Quest).task? "A" = some ⟨"A", [], true⟩ :=
  ⟨by decide,
    (findings_exact
      { title := " t ", tasks := [.entryPoint [], ⟨"a", [], false⟩, ⟨"A", [], true⟩] }).2.2
        (by decide) 2 ⟨"A", [], true⟩ rfl⟩

end Quest

end Questbook
