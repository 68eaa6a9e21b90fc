/-
Questbook.Proofs.Cache.Bookkeeping — what is in a cache, told from what was
tried.

An *attempt* is one quest asked for or one text handed in. A call is one attempt,
or, when it preloads, a row of them that ends behind the first failure. The record
of a run (`Cache.record`) is all its attempts in order, each with what there was
to read, what came of it, and the cache before and behind it.

Three facts hold of every attempt, whatever the assets answer (`Attempt.Honest`):
it succeeds exactly if its quest is in or what there is to read can be read; a
failure leaves the cache as it was; a success adds the key of its name to the keys
and nothing else. The caches of a record fit together (`Linked`), so the keys at
the end of a run are those of the attempts that succeeded
(`Linked.mem_names`). `history_accounts` puts this together with the paths looked
up, of which there is one for each quest asked for that was not in.
-/
import Questbook.Proofs.Cache.History

namespace Questbook

/-! ## 1. Attempts -/

/-- One quest asked for, or one text handed in. -/
structure Attempt where
  name : String
  /-- It goes by the assets, not by a text handed in. -/
  asks : Bool
  /-- What there is to read: the answer of the assets, or the text handed in. -/
  found : Lookup
  before : Cache
  result : Except QuestError Cached
  after : Cache

namespace Attempt

/-- It gave a quest. -/
def Succeeds (a : Attempt) : Prop :=
  ∃ cached, a.result = .ok cached

/-- A quest of this name was in before. -/
def bound (a : Attempt) : Bool :=
  a.before.contains a.name

/-- A quest was asked for that was not in. -/
def misses (a : Attempt) : Bool :=
  a.asks && !a.bound

/-- There is a text to read, and it is a quest. -/
def Readable (a : Attempt) : Prop :=
  ∃ text quest, a.found = .found text ∧ Quest.parse text = .ok quest

/-- The paths that attempts in a row look up: that of each miss. -/
def lookups (attempts : List Attempt) : List String :=
  (attempts.filter misses).map fun a => assetPath a.name

theorem lookups_append (front back : List Attempt) :
    lookups (front ++ back) = lookups front ++ lookups back := by
  simp [lookups]

end Attempt

namespace Cache

/-- Asking for a quest behind the paths that were asked for. -/
def requestAttempt (cache : Cache) (answers : Answers) (asked : List String) (name : String) :
    Attempt :=
  let reply := ((cache.request answers.source name).run asked).1
  { name, asks := true, found := answers asked (assetPath name)
    before := cache, result := reply.result, after := reply.cache }

/-- Handing in a text. -/
def insertAttempt (cache : Cache) (name text : String) : Attempt :=
  let reply := cache.insertSource name text
  { name, asks := false, found := .found text
    before := cache, result := reply.result, after := reply.cache }

/-- Quests asked for one after the other, up to the first failure. -/
def requestAttempts (cache : Cache) (answers : Answers) (asked : List String) :
    List String → List Attempt
  | [] => []
  | name :: names =>
    let first := cache.requestAttempt answers asked name
    match first.result with
    | .error _ => [first]
    | .ok _ =>
      let asked := ((cache.request answers.source name).run asked).2
      first :: first.after.requestAttempts answers asked names

/-- The attempts of a call. -/
def attempts (cache : Cache) (answers : Answers) : Call → List Attempt
  | .request name => [cache.requestAttempt answers [] name]
  | .insertSource name text => [cache.insertAttempt name text]
  | .preload names => cache.requestAttempts answers [] names

/-- The cache behind calls made one after the other. -/
def afterAll (cache : Cache) : List (Call × Answers) → Cache
  | [] => cache
  | (call, answers) :: steps => (cache.perform answers call).cache.afterAll steps

/-- The attempts of calls made one after the other. -/
def record (cache : Cache) : List (Call × Answers) → List Attempt
  | [] => []
  | (call, answers) :: steps =>
    cache.attempts answers call ++ (cache.perform answers call).cache.record steps

/-! ## 2. One attempt -/

theorem mem_names {cache : Cache} {k : String} :
    k ∈ cache.names ↔ (cache.quests.get? k).isSome = true :=
  Table.mem_keys

theorem contains_iff {cache : Cache} {name : String} :
    cache.contains name = true ↔ key name ∈ cache.names :=
  mem_names.symm

theorem names_empty : names {} = [] := rfl

theorem mem_names_insert {cache : Cache} {k k' : String} {cached : Cached} :
    k' ∈ names ⟨cache.quests.insert k cached⟩ ↔ k' ∈ cache.names ∨ k = k' := by
  rw [mem_names, mem_names, Table.get?_insert]
  split
  · next h => simp [h]
  · next h => simp [Ne.symm h]

end Cache

/-- What is true of every attempt. -/
structure Attempt.Honest (a : Attempt) : Prop where
  succeeds_iff : a.Succeeds ↔ a.bound = true ∨ a.Readable
  kept : ¬ a.Succeeds → a.after = a.before
  mem_names : ∀ k, k ∈ a.after.names ↔ k ∈ a.before.names ∨ (a.Succeeds ∧ Cache.key a.name = k)

namespace Attempt.Honest

variable {a : Attempt}

/-- A hit changes nothing. -/
theorem of_bound (hbound : a.bound = true) (hsucceeds : a.Succeeds) (hafter : a.after = a.before) :
    a.Honest := by
  refine ⟨by simp [hbound, hsucceeds], fun _ => hafter, fun k => ?_⟩
  rw [hafter, iff_self_or]
  rintro ⟨-, rfl⟩
  exact Cache.contains_iff.1 hbound

/-- A failure on a miss has nothing to read. -/
theorem of_error {e : QuestError} (hbound : a.bound = false) (hresult : a.result = .error e)
    (hread : ¬ a.Readable) (hafter : a.after = a.before) : a.Honest := by
  have hfails : ¬ a.Succeeds := by
    rintro ⟨cached, hcached⟩
    cases hresult.symm.trans hcached
  refine ⟨by simp [hbound, hfails, hread], fun _ => hafter, fun k => ?_⟩
  rw [hafter]
  simp [hfails]

/-- So has one that is told of no text. -/
theorem of_no_text {e : QuestError} (hbound : a.bound = false) (hresult : a.result = .error e)
    (hfound : ∀ text, a.found ≠ .found text) (hafter : a.after = a.before) : a.Honest := by
  refine of_error hbound hresult ?_ hafter
  rintro ⟨text, quest, htext, -⟩
  exact hfound text htext

/-- A success on a miss puts one quest in. -/
theorem of_entered (hsucceeds : a.Succeeds) (hread : a.Readable) {cached : Cached}
    (hafter : a.after = ⟨a.before.quests.insert (Cache.key a.name) cached⟩) : a.Honest := by
  refine ⟨by simp [hsucceeds, hread], fun hfails => absurd hsucceeds hfails, fun k => ?_⟩
  rw [hafter, Cache.mem_names_insert]
  simp [hsucceeds]

/-- A text that is read on a miss. -/
theorem of_enter {text : String} (hbound : a.bound = false) (hfound : a.found = .found text)
    (hresult : a.result = (a.before.enter a.name text).result)
    (hafter : a.after = (a.before.enter a.name text).cache) : a.Honest := by
  cases hparse : (Quest.reading text).result with
  | error e =>
    rw [Cache.enter, hparse] at hresult hafter
    refine of_error hbound hresult ?_ hafter
    rintro ⟨text', quest, htext, hquest⟩
    cases hfound.symm.trans htext
    rw [Quest.parse, hparse] at hquest
    cases hquest
  | ok quest =>
    have hsucceeds : a.Succeeds :=
      ⟨⟨a.before.size, quest⟩, by simp [hresult, Cache.enter, hparse]⟩
    have hin : a.after =
        ⟨a.before.quests.insert (Cache.key a.name) ⟨a.before.size, quest⟩⟩ := by
      simp [hafter, Cache.enter, hparse]
    exact of_entered hsucceeds ⟨text, quest, hfound, hparse⟩ hin

end Attempt.Honest

namespace Cache

variable {answers : Answers}

theorem bound_eq_false {cache : Cache} {name : String} (h : cache.get? name = none) :
    cache.contains name = false := by
  rw [contains, h]
  rfl

theorem honest_insertAttempt (cache : Cache) (name text : String) :
    (cache.insertAttempt name text).Honest := by
  cases hin : cache.get? name with
  | some cached =>
    refine .of_bound ?_ ⟨cached, ?_⟩ ?_
    · simp [Attempt.bound, insertAttempt, contains, hin]
    · simp [insertAttempt, insertSource_of_get? hin]
    · simp [insertAttempt, insertSource_of_get? hin]
  | none =>
    have henter : cache.insertSource name text = cache.enter name text := by
      simp [insertSource, hin]
    have hfound : (cache.insertAttempt name text).found = .found text := rfl
    exact .of_enter (bound_eq_false hin) hfound (congrArg Reply.result henter)
      (congrArg Reply.cache henter)

theorem honest_requestAttempt (cache : Cache) (answers : Answers) (asked : List String)
    (name : String) : (cache.requestAttempt answers asked name).Honest := by
  cases hin : cache.get? name with
  | some cached =>
    have hrun := run_request_of_get? hin answers asked
    refine .of_bound ?_ ⟨cached, ?_⟩ ?_
    · simp [Attempt.bound, requestAttempt, contains, hin]
    · simp [requestAttempt, hrun]
    · simp [requestAttempt, hrun]
  | none =>
    have hrun := congrArg Prod.fst (run_request_of_get?_eq_none hin answers asked)
    have hbound : (cache.requestAttempt answers asked name).bound = false := bound_eq_false hin
    cases hfound : answers asked (assetPath name) with
    | found text =>
      rw [hfound] at hrun
      exact .of_enter hbound hfound (congrArg Reply.result hrun) (congrArg Reply.cache hrun)
    | missing =>
      rw [hfound] at hrun
      have hnone (text : String) : answers asked (assetPath name) ≠ .found text := by simp [hfound]
      exact .of_no_text hbound (congrArg Reply.result hrun) hnone (congrArg Reply.cache hrun)
    | unreadable =>
      rw [hfound] at hrun
      have hnone (text : String) : answers asked (assetPath name) ≠ .found text := by simp [hfound]
      exact .of_no_text hbound (congrArg Reply.result hrun) hnone (congrArg Reply.cache hrun)

/-- A path is looked up exactly on a miss. -/
theorem lookups_request (cache : Cache) (answers : Answers) (asked : List String)
    (name : String) :
    ((cache.request answers.source name).run asked).2 =
      asked ++ Attempt.lookups [cache.requestAttempt answers asked name] := by
  cases hin : cache.get? name with
  | some cached =>
    have hhit : (cache.requestAttempt answers asked name).misses = false := by
      simp [Attempt.misses, Attempt.bound, requestAttempt, contains, hin]
    rw [run_request_of_get? hin, Attempt.lookups, List.filter_cons_of_neg (by simp [hhit])]
    simp
  | none =>
    have hmiss : (cache.requestAttempt answers asked name).misses = true := by
      simp [Attempt.misses, Attempt.bound, requestAttempt, contains, hin]
    rw [run_request_of_get?_eq_none hin, Attempt.lookups, List.filter_cons_of_pos hmiss]
    rfl

end Cache

/-! ## 3. Attempts in a row -/

/-- The attempts lead from the one cache to the other: each starts with the cache
that the one before it left. -/
def Linked : Cache → List Attempt → Cache → Prop
  | cache, [], later => cache = later
  | cache, a :: attempts, later => a.before = cache ∧ Linked a.after attempts later

namespace Linked

theorem append {cache mid later : Cache} {front back : List Attempt} (h₁ : Linked cache front mid)
    (h₂ : Linked mid back later) : Linked cache (front ++ back) later := by
  induction front generalizing cache with
  | nil =>
    cases h₁
    exact h₂
  | cons a front ih => exact ⟨h₁.1, ih h₁.2⟩

/-- The keys at the end are those at the start and those of the attempts that
succeeded. -/
theorem mem_names {cache later : Cache} {attempts : List Attempt}
    (h : Linked cache attempts later) (hhonest : ∀ a ∈ attempts, a.Honest) (k : String) :
    k ∈ later.names ↔
      k ∈ cache.names ∨ ∃ a ∈ attempts, a.Succeeds ∧ Cache.key a.name = k := by
  induction attempts generalizing cache with
  | nil =>
    cases h
    simp
  | cons a attempts ih =>
    obtain ⟨rfl, hlast⟩ := h
    obtain ⟨hfirst, hothers⟩ := List.forall_mem_cons.1 hhonest
    simp only [ih hlast hothers, hfirst.mem_names, List.mem_cons, exists_eq_or_imp, or_assoc]

end Linked

namespace Cache

/-- The attempts of a call or of more lead from the one cache to the other and look
up these paths. -/
structure Recorded (cache : Cache) (attempts : List Attempt) (later : Cache)
    (lookups : List String) : Prop where
  linked : Linked cache attempts later
  honest : ∀ a ∈ attempts, a.Honest
  lookups_eq : lookups = Attempt.lookups attempts

theorem Recorded.append {cache mid later : Cache} {front back : List Attempt}
    {lookups lookups' : List String} (h₁ : Recorded cache front mid lookups)
    (h₂ : Recorded mid back later lookups') :
    Recorded cache (front ++ back) later (lookups ++ lookups') := by
  refine ⟨h₁.linked.append h₂.linked, ?_, ?_⟩
  · intro a ha
    rcases List.mem_append.1 ha with ha | ha
    · exact h₁.honest a ha
    · exact h₂.honest a ha
  · rw [Attempt.lookups_append, h₁.lookups_eq, h₂.lookups_eq]

theorem recorded_insertSource (cache : Cache) (name text : String) :
    Recorded cache [cache.insertAttempt name text] (cache.insertSource name text).cache [] :=
  ⟨⟨rfl, rfl⟩, by simpa using cache.honest_insertAttempt name text, rfl⟩

theorem recorded_request (cache : Cache) (answers : Answers) (asked : List String)
    (name : String) :
    Recorded cache [cache.requestAttempt answers asked name]
      ((cache.request answers.source name).run asked).1.cache
      (Attempt.lookups [cache.requestAttempt answers asked name]) :=
  ⟨⟨rfl, rfl⟩, by simpa using cache.honest_requestAttempt answers asked name, rfl⟩

/-- Preloading is the attempts it consists of. -/
theorem recorded_preload (cache : Cache) (answers : Answers) (asked names : List String) :
    ∃ lookups, ((cache.preload answers.source names).run asked).2 = asked ++ lookups ∧
      Recorded cache (cache.requestAttempts answers asked names)
        ((cache.preload answers.source names).run asked).1.cache lookups := by
  induction names generalizing cache asked with
  | nil => exact ⟨[], by simp [preload]; rfl, rfl, by simp [requestAttempts], rfl⟩
  | cons name names ih =>
    have hfirst := cache.recorded_request answers asked name
    have hlookups := cache.lookups_request answers asked name
    cases hrun : (cache.request answers.source name).run asked with
    | mk first asked' =>
      have hresult : (cache.requestAttempt answers asked name).result = first.result :=
        congrArg (·.1.result) hrun
      have hafter : (cache.requestAttempt answers asked name).after = first.cache :=
        congrArg (·.1.cache) hrun
      rw [hrun] at hfirst hlookups
      rw [requestAttempts]
      simp only [hresult, hafter, hrun]
      cases hreply : first.result with
      | error e =>
        rw [run_preload_of_error hrun hreply]
        exact ⟨_, hlookups, hfirst⟩
      | ok cached =>
        obtain ⟨lookups, hothers, hrecorded⟩ := ih first.cache asked'
        rw [run_preload_of_ok hrun hreply]
        refine ⟨_, ?_, hfirst.append hrecorded⟩
        rw [← List.append_assoc, ← hlookups]
        exact hothers

/-- **Step lemma.** A call is the attempts it consists of. -/
theorem recorded_perform (cache : Cache) (answers : Answers) (call : Call) :
    Recorded cache (cache.attempts answers call) (cache.perform answers call).cache
      (cache.perform answers call).lookups := by
  cases call with
  | request name =>
    have hrecorded := cache.recorded_request answers [] name
    have hlookups := cache.lookups_request answers [] name
    rw [List.nil_append] at hlookups
    rw [← hlookups] at hrecorded
    exact hrecorded
  | insertSource name text => exact cache.recorded_insertSource name text
  | preload names =>
    obtain ⟨lookups, hlookups, hrecorded⟩ := cache.recorded_preload answers [] names
    rw [List.nil_append] at hlookups
    rw [← hlookups] at hrecorded
    exact hrecorded

/-- **Run lemma.** A run is the attempts of its calls. -/
theorem recorded_history (cache : Cache) (steps : List (Call × Answers)) :
    Recorded cache (cache.record steps) (cache.afterAll steps)
      ((cache.history steps).flatMap Turn.lookups) := by
  induction steps generalizing cache with
  | nil => exact ⟨rfl, by simp [record], rfl⟩
  | cons step steps ih =>
    exact (cache.recorded_perform step.2 step.1).append (ih (cache.perform step.2 step.1).cache)

/-! ## 4. The books of a run -/

/-- What the attempts of a run that started with an empty cache say of the cache
that it left, and of the paths it looked up. -/
structure Accounts (attempts : List Attempt) (cache : Cache) (lookups : List String) : Prop where
  /-- The keys ascend strictly, so none is there twice. -/
  names_ascend : cache.names.Pairwise (· < ·)
  /-- They are the keys of the names for which an attempt has succeeded. -/
  mem_names : ∀ k, k ∈ cache.names ↔ ∃ a ∈ attempts, a.Succeeds ∧ key a.name = k
  size_eq : cache.size = cache.names.length
  isEmpty_iff : cache.isEmpty = true ↔ cache.size = 0
  contains_iff : ∀ name, cache.contains name = true ↔ key name ∈ cache.names
  /-- Each attempt starts with the cache that the one before it left. -/
  linked : Linked {} attempts cache
  /-- An attempt that fails leaves the cache as it was, keys, quests and handles. -/
  kept : ∀ a ∈ attempts, ¬ a.Succeeds → a.after = a.before
  /-- An attempt succeeds if the quest is in or there is a readable text, whatever
  was tried in vain before. -/
  succeeds_iff : ∀ a ∈ attempts, a.Succeeds ↔ a.before.contains a.name = true ∨ a.Readable
  /-- One path was looked up for each quest asked for that was not in. -/
  length_lookups : lookups.length =
    attempts.countP fun a => a.asks && !a.before.contains a.name

theorem names_ascend (cache : Cache) : cache.names.Pairwise (· < ·) :=
  cache.quests.keys_ascend.imp compareOfLessAndEq_eq_lt.1

/-- **The books of a cache are right after every run.** The assets may answer each
look-up in any way. As each run so far is a run, this is what holds after every
step. -/
theorem history_accounts (steps : List (Call × Answers)) :
    Accounts (record {} steps) (afterAll {} steps) ((history {} steps).flatMap Turn.lookups) := by
  obtain ⟨hlinked, hhonest, hlookups⟩ := recorded_history {} steps
  exact {
    names_ascend := names_ascend _
    mem_names := fun k => by simpa [names_empty] using hlinked.mem_names hhonest k
    size_eq := (List.length_map _).symm
    isEmpty_iff := beq_iff_eq
    contains_iff := fun name => contains_iff
    linked := hlinked
    kept := fun a ha => (hhonest a ha).kept
    succeeds_iff := fun a ha => (hhonest a ha).succeeds_iff
    length_lookups := by
      rw [hlookups, Attempt.lookups, List.length_map, ← List.countP_eq_length_filter]
      rfl }

/-- Two failures under a name, and preloading that gets it in under a third spelling,
hits it, and then fails at another quest. -/
theorem history_accounts_retry :
    let steps : List (Call × Answers) :=
      [(.request "Fog", fun _ _ => .missing),
        (.insertSource "fog" "foo : bar\n", fun _ _ => .missing),
        (.preload ["FOG", "fog", "tides", "ebb"],
          fun asked _ => if asked = [] then .found "title : Fog\n" else .unreadable)]
    Accounts (record {} steps) (afterAll {} steps) ((history {} steps).flatMap Turn.lookups) ∧
      (afterAll {} steps).names = ["fog"] ∧
      (record {} steps).length = 5 ∧
      (history {} steps).flatMap Turn.lookups =
        ["quests/fog.qst", "quests/fog.qst", "quests/tides.qst"] :=
  ⟨history_accounts _, by decide +kernel, by decide +kernel, by decide +kernel⟩

end Cache

end Questbook
