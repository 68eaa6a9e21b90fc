/-
Questbook.Proofs.Cache.History — what a cache does over a row of calls.

A *call* is one of the three ways to put a quest into a cache. Between two
calls the assets may change in any way, so each call comes with its own
`Answers`; and inside one call, which may look up many paths, an answer may
depend on the paths that were looked up before. Nothing at all is assumed of
the answers. The paths looked up are noted, and that is how a call that asks
for nothing is told from one that does.

The step lemma is `Keeps`: whatever a call comes to, no entry of the cache is
lost or replaced (`Extends`), and handles go on to tell the keys apart
(`Distinct`). `Cache.keeps_perform` proves it for the three calls from one
lemma on `Cache.enter`, the only place where a cache changes, and
`Cache.exists_perform_of_mem_history` carries it along a history.
-/
import Questbook.Cache

namespace Questbook

/-! ## 1. Calls and histories -/

/-- A call that may put quests into a cache. -/
inductive Call where
  | request (name : String)
  | insertSource (name text : String)
  | preload (names : List String)
deriving DecidableEq, Repr

/-- The name whose quest a call hands out. Preloading hands out none. -/
def Call.name? : Call → Option String
  | .request name => some name
  | .insertSource name _ => some name
  | .preload _ => none

/-- The names whose quests are bound when the call succeeds. -/
def Call.names : Call → List String
  | .request name => [name]
  | .insertSource name _ => [name]
  | .preload names => names

/-- What the assets have to say during one call: what is found at a path after
the paths that were looked up before it. -/
abbrev Answers := List String → String → Lookup

/-- The source that answers so, and notes each path it is asked for. -/
def Answers.source (answers : Answers) : Source (StateM (List String)) :=
  fun path asked => (answers asked path, asked ++ [path])

/-- What a successful call gives back. -/
inductive Given where
  | quest (cached : Cached)
  | count (number : Nat)
deriving DecidableEq, Repr

/-- A call that was made: what it gave back, the paths it looked up, and the
cache behind it. -/
structure Turn where
  call : Call
  result : Except QuestError Given
  lookups : List String
  cache : Cache

/-- The call handed out this quest under this name. -/
def Turn.HandsOut (turn : Turn) (name : String) (cached : Cached) : Prop :=
  turn.call.name? = some name ∧ turn.result = .ok (.quest cached)

/-- The call gave something back. -/
def Turn.Succeeds (turn : Turn) : Prop :=
  ∃ given, turn.result = .ok given

namespace Cache

/-- Makes a call, with nothing looked up so far. -/
def perform (cache : Cache) (answers : Answers) : Call → Turn
  | .request name =>
    let run := (cache.request answers.source name).run []
    ⟨.request name, run.1.result.map .quest, run.2, run.1.cache⟩
  | .insertSource name text =>
    let reply := cache.insertSource name text
    ⟨.insertSource name text, reply.result.map .quest, [], reply.cache⟩
  | .preload names =>
    let run := (cache.preload answers.source names).run []
    ⟨.preload names, run.1.result.map .count, run.2, run.1.cache⟩

/-- Makes calls one after the other, each with the assets as they are then. -/
def history (cache : Cache) : List (Call × Answers) → List Turn
  | [] => []
  | (call, answers) :: steps =>
    let turn := cache.perform answers call
    turn :: turn.cache.history steps

@[simp] theorem call_perform (cache : Cache) (answers : Answers) (call : Call) :
    (cache.perform answers call).call = call := by
  cases call <;> rfl

/-! ## 2. What is in stays in -/

/-- Whatever is in the first cache is in the second, the same under each key. -/
def Extends (cache later : Cache) : Prop :=
  ∀ {key : String} {cached : Cached},
    cache.quests.get? key = some cached → later.quests.get? key = some cached

/-- Handles tell the keys apart, and those from the size on are not in use. -/
structure Distinct (cache : Cache) : Prop where
  handle_lt : ∀ {key : String} {cached : Cached},
    cache.quests.get? key = some cached → cached.handle < cache.size
  key_eq : ∀ {key key' : String} {cached cached' : Cached},
    cache.quests.get? key = some cached → cache.quests.get? key' = some cached' →
    cached.handle = cached'.handle → key = key'

/-- What a call does not break: entries stay, and handles stay distinct. -/
structure Keeps (cache later : Cache) : Prop where
  stays : cache.Extends later
  distinct : cache.Distinct → later.Distinct

theorem Keeps.refl (cache : Cache) : cache.Keeps cache :=
  ⟨id, id⟩

theorem Keeps.trans {cache mid later : Cache} (h₁ : cache.Keeps mid) (h₂ : mid.Keeps later) :
    cache.Keeps later :=
  ⟨fun h => h₂.stays (h₁.stays h), fun h => h₂.distinct (h₁.distinct h)⟩

theorem distinct_empty : Distinct {} := by
  constructor <;> intro key <;> simp

/-- A quest put in under a new key, with the size for its handle. -/
theorem keeps_insert {cache : Cache} {key : String} (hnew : cache.quests.get? key = none)
    (quest : Quest) : cache.Keeps ⟨cache.quests.insert key ⟨cache.size, quest⟩⟩ := by
  have hget (key' : String) := Table.get?_insert cache.quests key key' (⟨cache.size, quest⟩ : Cached)
  refine ⟨?_, fun hd => ⟨?_, ?_⟩⟩
  · intro key' cached hin
    have hne : key' ≠ key := by
      rintro rfl
      simp [hnew] at hin
    simp [hget, hne, hin]
  · intro key' cached hin
    have hsize : Cache.size ⟨cache.quests.insert key ⟨cache.size, quest⟩⟩ = cache.size + 1 :=
      Table.size_insert_of_get?_eq_none hnew _
    rw [hget] at hin
    split at hin
    · cases hin
      exact hsize ▸ Nat.lt_succ_self _
    · have := hd.handle_lt hin
      omega
  · intro key₁ key₂ cached₁ cached₂ h₁ h₂ heq
    rw [hget] at h₁ h₂
    split at h₁ <;> split at h₂
    · simp_all
    · cases h₁
      have := hd.handle_lt h₂
      simp at heq
      omega
    · cases h₂
      have := hd.handle_lt h₁
      simp at heq
      omega
    · exact hd.key_eq h₁ h₂ heq

/-! ## 3. One call -/

/-- All that entering a text can come to: an error and the same cache, or a
quest under a new handle. -/
theorem enter_cases (cache : Cache) (name text : String) :
    (∃ error, (cache.enter name text).result = .error error ∧
      (cache.enter name text).cache = cache) ∨
    (∃ quest, (cache.enter name text).result = .ok ⟨cache.size, quest⟩ ∧
      (cache.enter name text).cache = ⟨cache.quests.insert (key name) ⟨cache.size, quest⟩⟩) := by
  cases h : (Quest.reading text).result with
  | error e => exact .inl ⟨.malformed name e, by simp [enter, h]⟩
  | ok quest => exact .inr ⟨quest, by simp [enter, h]⟩

/-- A reply about one name keeps the cache, and a quest handed out is in under
that name. -/
structure Answered (cache : Cache) (name : String) (reply : Reply Cached) : Prop where
  keeps : cache.Keeps reply.cache
  bound : ∀ {cached : Cached}, reply.result = .ok cached → reply.cache.get? name = some cached

theorem answered_enter {cache : Cache} {name : String} (hnew : cache.get? name = none)
    (text : String) : cache.Answered name (cache.enter name text) := by
  obtain ⟨error, hresult, hcache⟩ | ⟨quest, hresult, hcache⟩ := cache.enter_cases name text
  · refine ⟨by rw [hcache]; exact .refl cache, ?_⟩
    intro cached h
    simp [hresult] at h
  · refine ⟨by rw [hcache]; exact keeps_insert hnew quest, ?_⟩
    intro cached h
    rw [hresult] at h
    cases h
    simp [hcache, get?, Table.get?_insert]

theorem answered_answer {cache : Cache} {name : String} (hnew : cache.get? name = none)
    (found : Lookup) : cache.Answered name (cache.answer name found) := by
  cases found with
  | found text => exact answered_enter hnew text
  | missing => exact ⟨.refl cache, nofun⟩
  | unreadable => exact ⟨.refl cache, nofun⟩

/-- A hit: the entry that is in is handed out and nothing changes. -/
theorem insertSource_of_get? {cache : Cache} {name : String} {cached : Cached}
    (hin : cache.get? name = some cached) (text : String) :
    cache.insertSource name text = { result := .ok cached, cache, notices := [] } := by
  simp [insertSource, hin]

theorem answered_insertSource (cache : Cache) (name text : String) :
    cache.Answered name (cache.insertSource name text) := by
  cases hin : cache.get? name with
  | none => simpa [insertSource, hin] using answered_enter hin text
  | some cached =>
    rw [insertSource_of_get? hin]
    exact ⟨.refl cache, fun h => by cases h; exact hin⟩

/-- A hit looks nothing up. -/
theorem run_request_of_get? {cache : Cache} {name : String} {cached : Cached}
    (hin : cache.get? name = some cached) (answers : Answers) (asked : List String) :
    (cache.request answers.source name).run asked =
      ({ result := .ok cached, cache, notices := [.questReused (key name)] }, asked) := by
  simp [request, hin]
  rfl

/-- A miss looks up one path and goes by the answer. -/
theorem run_request_of_get?_eq_none {cache : Cache} {name : String} (hnew : cache.get? name = none)
    (answers : Answers) (asked : List String) :
    (cache.request answers.source name).run asked =
      (cache.answer name (answers asked (assetPath name)), asked ++ [assetPath name]) := by
  simp [request, hnew]
  rfl

theorem answered_request (cache : Cache) (answers : Answers) (name : String)
    (asked : List String) :
    cache.Answered name ((cache.request answers.source name).run asked).1 := by
  cases hin : cache.get? name with
  | none =>
    rw [run_request_of_get?_eq_none hin]
    exact answered_answer hin _
  | some cached =>
    rw [run_request_of_get? hin]
    exact ⟨.refl cache, fun h => by cases h; exact hin⟩

/-- Preloading stops at a request that fails. -/
theorem run_preload_of_error {cache : Cache} {answers : Answers} {name : String}
    {asked asked' : List String} {first : Reply Cached} {error : QuestError}
    (hfirst : (cache.request answers.source name).run asked = (first, asked'))
    (herror : first.result = .error error) (names : List String) :
    (cache.preload answers.source (name :: names)).run asked =
      ({ result := .error error, cache := first.cache, notices := first.notices }, asked') := by
  rw [preload, StateT.run_bind, hfirst]
  simp [herror, pure, bind]
  rfl

/-- Preloading goes on behind a request that succeeds, with the cache it left. -/
theorem run_preload_of_ok {cache : Cache} {answers : Answers} {name : String}
    {asked asked' : List String} {first : Reply Cached} {cached : Cached}
    (hfirst : (cache.request answers.source name).run asked = (first, asked'))
    (hok : first.result = .ok cached) (names : List String) :
    (cache.preload answers.source (name :: names)).run asked =
      let run := (first.cache.preload answers.source names).run asked'
      ({ run.1 with
          result := run.1.result.map (· + 1)
          notices := first.notices ++ run.1.notices }, run.2) := by
  rw [preload, StateT.run_bind, hfirst]
  simp [hok, pure, bind]
  rfl

/-- Preloading is requests in a row, so it keeps what each of them keeps. -/
theorem keeps_preload (cache : Cache) (answers : Answers) (names : List String)
    (asked : List String) :
    cache.Keeps ((cache.preload answers.source names).run asked).1.cache := by
  induction names generalizing cache asked with
  | nil => exact .refl cache
  | cons name names ih =>
    have hkeeps := (cache.answered_request answers name asked).keeps
    cases hfirst : (cache.request answers.source name).run asked with
    | mk first asked' =>
      rw [hfirst] at hkeeps
      cases hresult : first.result with
      | error e =>
        rw [run_preload_of_error hfirst hresult]
        exact hkeeps
      | ok cached =>
        rw [run_preload_of_ok hfirst hresult]
        exact hkeeps.trans (ih first.cache asked')

/-- Preloading that succeeds has every one of its quests in. -/
theorem contains_of_preload_ok {cache : Cache} {answers : Answers} {names asked : List String}
    {number : Nat}
    (hok : ((cache.preload answers.source names).run asked).1.result = .ok number) :
    ∀ name ∈ names,
      ((cache.preload answers.source names).run asked).1.cache.contains name = true := by
  induction names generalizing cache asked number with
  | nil => simp
  | cons name names ih =>
    have hanswered := cache.answered_request answers name asked
    cases hfirst : (cache.request answers.source name).run asked with
    | mk first asked' =>
      rw [hfirst] at hanswered
      cases hresult : first.result with
      | error e =>
        rw [run_preload_of_error hfirst hresult] at hok
        cases hok
      | ok cached =>
        rw [run_preload_of_ok hfirst hresult] at hok ⊢
        cases hothers : ((first.cache.preload answers.source names).run asked').1.result with
        | error e => simp [hothers, Except.map] at hok
        | ok rest =>
          intro n hn
          rcases List.mem_cons.1 hn with rfl | hn
          · have hin := hanswered.bound hresult
            have hstays := (first.cache.keeps_preload answers names asked').stays hin
            rw [contains, get?, hstays]
            rfl
          · exact ih hothers n hn

/-- **Step lemma.** Every call keeps the cache. -/
theorem keeps_perform (cache : Cache) (answers : Answers) (call : Call) :
    cache.Keeps (cache.perform answers call).cache := by
  cases call with
  | request name => exact (cache.answered_request answers name []).keeps
  | insertSource name text => exact (cache.answered_insertSource name text).keeps
  | preload names => exact cache.keeps_preload answers names []

/-- **Run lemma.** Each turn of a history is a call made on a cache that keeps
the one at the start. -/
theorem exists_perform_of_mem_history {cache : Cache} {steps : List (Call × Answers)}
    {turn : Turn} (h : turn ∈ cache.history steps) :
    ∃ (before : Cache) (answers : Answers),
      cache.Keeps before ∧ turn = before.perform answers turn.call := by
  induction steps generalizing cache with
  | nil => cases h
  | cons step steps ih =>
    rcases List.mem_cons.1 h with rfl | h
    · exact ⟨cache, step.2, .refl cache, by simp⟩
    · obtain ⟨before, answers, hkeeps, heq⟩ := ih h
      exact ⟨before, answers, (cache.keeps_perform step.2 step.1).trans hkeeps, heq⟩

/-- What is handed out is in the cache behind the call. -/
theorem get?_of_handsOut {cache : Cache} {answers : Answers} {call : Call} {name : String}
    {cached : Cached} (h : (cache.perform answers call).HandsOut name cached) :
    (cache.perform answers call).cache.get? name = some cached := by
  obtain ⟨hname, hresult⟩ := h
  rw [call_perform] at hname
  cases call with
  | request name' =>
    cases hname
    cases h : ((cache.request answers.source name).run []).1.result with
    | error e => simp [perform, h, Except.map] at hresult
    | ok e =>
      simp [perform, h, Except.map] at hresult
      exact (cache.answered_request answers name []).bound (hresult ▸ h)
  | insertSource name' text =>
    cases hname
    cases h : (cache.insertSource name text).result with
    | error e => simp [perform, h, Except.map] at hresult
    | ok e =>
      simp [perform, h, Except.map] at hresult
      exact (cache.answered_insertSource name text).bound (hresult ▸ h)
  | preload names => cases hname

/-- A successful call has bound each of its names. -/
theorem contains_of_succeeds {cache : Cache} {answers : Answers} {call : Call}
    (h : (cache.perform answers call).Succeeds) :
    ∀ name ∈ call.names, (cache.perform answers call).cache.contains name = true := by
  obtain ⟨given, hgiven⟩ := h
  cases call with
  | request name =>
    intro name' hname
    obtain rfl := List.mem_singleton.1 hname
    cases h : ((cache.request answers.source name').run []).1.result with
    | error e => simp [perform, h, Except.map] at hgiven
    | ok cached =>
      have hin := (cache.answered_request answers name' []).bound h
      simp [perform, contains, hin]
  | insertSource name text =>
    intro name' hname
    obtain rfl := List.mem_singleton.1 hname
    cases h : (cache.insertSource name' text).result with
    | error e => simp [perform, h, Except.map] at hgiven
    | ok cached =>
      have hin := (cache.answered_insertSource name' text).bound h
      simp [perform, contains, hin]
  | preload names =>
    cases h : ((cache.preload answers.source names).run []).1.result with
    | error e => simp [perform, h, Except.map] at hgiven
    | ok number => exact contains_of_preload_ok h

/-- A call for a quest that is in hands it out, looks nothing up and changes
nothing, whatever the assets and the text are. -/
theorem perform_of_get? {cache : Cache} {call : Call} {name : String} {cached : Cached}
    (hname : call.name? = some name) (hin : cache.get? name = some cached) (answers : Answers) :
    cache.perform answers call = ⟨call, .ok (.quest cached), [], cache⟩ := by
  cases call with
  | request name' =>
    cases hname
    simp only [perform, run_request_of_get? hin]
    rfl
  | insertSource name' text =>
    cases hname
    simp only [perform, insertSource_of_get? hin]
    rfl
  | preload names => cases hname

end Cache

end Questbook
