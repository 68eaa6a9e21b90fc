/-
Questbook.Proofs.Cache.Transparency — as long as the assets do not change, a
cache cannot be told from reading anew.

A request is answered in one of two ways. On a miss the name leads to a path and
the path to a text; on a hit it leads to a key and the key to a quest read
earlier, perhaps under another spelling. That both ways come to the same is an
invariant of the cache: whatever is in for a name is what the assets hold for
that name (`Cache.Faithful`). A path follows from the key of a name, so it does
not matter under which spelling the quest came in (`questOf_congr`).

Errors are never kept, so they are those of a reading now, and they carry the
name as it is spelled in this request. What a cache adds is the handle, and it is
left out of the comparison (`Given.content`). Texts that a caller hands in are
not among the assets, so such calls are left out of the runs.
-/
import Mathlib
import Questbook.Proofs.Cache.History
import Questbook.Proofs.Grammar.Automaton

namespace Questbook

/-! ## 1. Reading without a cache -/

/-- The answers of assets that do not change. -/
def Answers.fixed (assets : String → Lookup) : Answers :=
  fun _ path => assets path

/-- The quest that the assets hold for a name, or why there is none. -/
def questOf (assets : String → Lookup) (name : String) : Except QuestError Quest :=
  match assets (assetPath name) with
  | .found text => (Quest.parse text).mapError (.malformed name)
  | .missing => .error (.notFound name (assetPath name))
  | .unreadable => .error (.unreadable (assetPath name))

theorem questOf_of_found {assets : String → Lookup} {name text : String}
    (h : assets (assetPath name) = .found text) :
    questOf assets name = (Quest.parse text).mapError (.malformed name) := by
  rw [questOf, h]

/-- What was given, without the handle. -/
def Given.content : Given → Quest ⊕ Nat
  | .quest cached => .inl cached.quest
  | .count number => .inr number

/-- The call goes by the assets alone. -/
def Call.Asks : Call → Prop
  | .insertSource _ _ => False
  | _ => True

instance : (call : Call) → Decidable call.Asks
  | .request _ => isTrue trivial
  | .insertSource _ _ => isFalse id
  | .preload _ => isTrue trivial

theorem assetPath_congr {name name' : String} (h : Cache.key name = Cache.key name') :
    assetPath name = assetPath name' := by
  have hlower : Unicode.lower name = Unicode.lower name' := h
  rw [assetPath, assetPath, hlower]

/-- Every spelling of a name leads to the same quest. -/
theorem questOf_congr {assets : String → Lookup} {name name' : String} {quest : Quest}
    (h : Cache.key name = Cache.key name') (hquest : questOf assets name = .ok quest) :
    questOf assets name' = .ok quest := by
  unfold questOf at hquest ⊢
  rw [← assetPath_congr h]
  cases hfound : assets (assetPath name) with
  | found text =>
    rw [hfound] at hquest
    cases hparse : Quest.parse text with
    | error e => simp [hparse, Except.mapError] at hquest
    | ok q => simpa [hparse, Except.mapError] using hquest
  | missing => simp [hfound] at hquest
  | unreadable => simp [hfound] at hquest

namespace Cache

/-! ## 2. Faithful caches -/

/-- Whatever is in for a name is what the assets hold for it. -/
def Faithful (assets : String → Lookup) (cache : Cache) : Prop :=
  ∀ {name : String} {cached : Cached}, cache.get? name = some cached →
    questOf assets name = .ok cached.quest

variable {assets : String → Lookup} {cache : Cache} {name : String}

theorem faithful_empty (assets : String → Lookup) : Faithful assets {} := by
  intro name cached hin
  simp [get?] at hin

theorem Faithful.insert (h : cache.Faithful assets) {cached : Cached}
    (hquest : questOf assets name = .ok cached.quest) :
    Faithful assets ⟨cache.quests.insert (key name) cached⟩ := by
  intro name' cached' hin
  rw [get?, Table.get?_insert] at hin
  split at hin
  · next hkey =>
    cases hin
    exact questOf_congr hkey.symm hquest
  · exact h hin

/-- A reply tells what the assets hold for the name, and leaves a faithful cache. -/
structure Tells (assets : String → Lookup) (name : String) (reply : Reply Cached) : Prop where
  result_eq : reply.result.map Cached.quest = questOf assets name
  faithful : reply.cache.Faithful assets

theorem tells_enter (h : cache.Faithful assets) {text : String}
    (hfound : assets (assetPath name) = .found text) :
    Tells assets name (cache.enter name text) := by
  have hquest := questOf_of_found hfound
  cases hparse : (Quest.reading text).result with
  | error e =>
    rw [Quest.parse, hparse] at hquest
    have henter : (cache.enter name text).result = .error (.malformed name e) ∧
        (cache.enter name text).cache = cache := by simp [enter, hparse]
    exact ⟨by rw [henter.1, hquest]; rfl, by rw [henter.2]; exact h⟩
  | ok quest =>
    rw [Quest.parse, hparse] at hquest
    have henter : (cache.enter name text).result = .ok ⟨cache.size, quest⟩ ∧
        (cache.enter name text).cache =
          ⟨cache.quests.insert (key name) ⟨cache.size, quest⟩⟩ := by simp [enter, hparse]
    exact ⟨by rw [henter.1, hquest]; rfl, by rw [henter.2]; exact h.insert hquest⟩

/-- On a miss, the reply is made of what is at the path of the name. -/
theorem tells_answer (h : cache.Faithful assets) (name : String) :
    Tells assets name (cache.answer name (assets (assetPath name))) := by
  cases hfound : assets (assetPath name) with
  | found text => exact tells_enter h hfound
  | missing => exact ⟨by rw [questOf, hfound]; rfl, h⟩
  | unreadable => exact ⟨by rw [questOf, hfound]; rfl, h⟩

/-- Hit or miss, a request tells the same. -/
theorem tells_request (h : cache.Faithful assets) (name : String) (asked : List String) :
    Tells assets name ((cache.request (Answers.fixed assets).source name).run asked).1 := by
  cases hin : cache.get? name with
  | none =>
    rw [run_request_of_get?_eq_none hin]
    exact tells_answer h name
  | some cached =>
    rw [run_request_of_get? hin]
    exact ⟨(h hin).symm, h⟩

/-- The same when nothing is noted down. -/
theorem tells_request_fixed (h : cache.Faithful assets) (name : String) :
    Tells assets name (cache.request (m := Id) assets name) := by
  cases hin : cache.get? name with
  | none =>
    have hrun : cache.request (m := Id) assets name =
        cache.answer name (assets (assetPath name)) := by simp [request, hin]; rfl
    rw [hrun]
    exact tells_answer h name
  | some cached =>
    have hrun : cache.request (m := Id) assets name =
        { result := .ok cached, cache, notices := [.questReused (key name)] } := by
      simp [request, hin]; rfl
    rw [hrun]
    exact ⟨(h hin).symm, h⟩

/-- Reading quests first comes to reading their files one by one, up to the first
that fails, and leaves a faithful cache. -/
theorem tells_preload_fixed (h : cache.Faithful assets) (names : List String) :
    (cache.preload (m := Id) assets names).result =
        (names.mapM (questOf assets)).map List.length ∧
      (cache.preload (m := Id) assets names).cache.Faithful assets := by
  induction names generalizing cache with
  | nil => exact ⟨rfl, h⟩
  | cons name names ih =>
    obtain ⟨hresult, hfaithful⟩ := tells_request_fixed h name
    rw [preload, List.mapM_cons, ← hresult]
    generalize cache.request (m := Id) assets name = reply at hfaithful
    obtain ⟨result, after, notices⟩ := reply
    cases result with
    | error e => exact ⟨rfl, hfaithful⟩
    | ok cached =>
      obtain ⟨hothers, hlast⟩ := ih hfaithful
      refine ⟨?_, hlast⟩
      show (after.preload (m := Id) assets names).result.map (· + 1) = _
      rw [hothers]
      cases names.mapM (questOf assets) <;> rfl

/-! ## 3. Runs -/

/-- What a request for the quest gives on an empty cache. -/
def alone (assets : String → Lookup) (name : String) : Except QuestError (Quest ⊕ Nat) :=
  (perform {} (.fixed assets) (.request name)).result.map Given.content

theorem Tells.content_eq {reply : Reply Cached} (h : Tells assets name reply) :
    (reply.result.map Given.quest).map Given.content = (questOf assets name).map .inl := by
  rw [← h.result_eq]
  cases reply.result <;> rfl

theorem alone_eq (assets : String → Lookup) (name : String) :
    alone assets name = (questOf assets name).map .inl :=
  (tells_request (faithful_empty assets) name []).content_eq

/-- Preloading comes to what the names come to one by one, up to the first that
fails. -/
theorem tells_preload (h : cache.Faithful assets) (names asked : List String) :
    ((cache.preload (Answers.fixed assets).source names).run asked).1.result =
        (names.mapM (alone assets)).map List.length ∧
      ((cache.preload (Answers.fixed assets).source names).run asked).1.cache.Faithful assets := by
  induction names generalizing cache asked with
  | nil => exact ⟨rfl, h⟩
  | cons name names ih =>
    obtain ⟨hresult, hfirst⟩ := tells_request h name asked
    cases hrun : (cache.request (Answers.fixed assets).source name).run asked with
    | mk first asked' =>
      rw [hrun] at hresult hfirst
      rw [List.mapM_cons, alone_eq, ← hresult]
      cases hreply : first.result with
      | error e =>
        rw [run_preload_of_error hrun hreply]
        exact ⟨rfl, hfirst⟩
      | ok cached =>
        obtain ⟨hothers, hlast⟩ := ih hfirst asked'
        rw [run_preload_of_ok hrun hreply]
        refine ⟨?_, hlast⟩
        show ((first.cache.preload (Answers.fixed assets).source names).run asked').1.result.map
          (· + 1) = _
        rw [hothers]
        cases names.mapM (alone assets) <;> rfl

/-- The turn gives what its requests give on an empty cache. -/
structure Transparent (assets : String → Lookup) (turn : Turn) : Prop where
  request : ∀ name, turn.call = .request name → turn.result.map Given.content = alone assets name
  preload : ∀ names, turn.call = .preload names →
    turn.result.map Given.content = (names.mapM (alone assets)).map fun given => .inr given.length

/-- **Step lemma.** A call on a faithful cache leaves a faithful cache. -/
theorem transparent_perform (h : cache.Faithful assets) {call : Call} (hasks : call.Asks) :
    Transparent assets (cache.perform (.fixed assets) call) ∧
      (cache.perform (.fixed assets) call).cache.Faithful assets := by
  cases call with
  | request name =>
    have htells := tells_request h name []
    refine ⟨⟨?_, nofun⟩, htells.faithful⟩
    rintro _ ⟨⟩
    rw [alone_eq]
    exact htells.content_eq
  | insertSource name text => exact hasks.elim
  | preload names =>
    obtain ⟨hresult, hfaithful⟩ := tells_preload h names []
    refine ⟨⟨nofun, ?_⟩, hfaithful⟩
    rintro _ ⟨⟩
    simp only [perform, hresult]
    cases names.mapM (alone assets) <;> rfl

/-- **Run lemma.** -/
theorem transparent_of_mem_history (h : cache.Faithful assets) {calls : List Call}
    (hasks : ∀ call ∈ calls, call.Asks) {turn : Turn}
    (hturn : turn ∈ cache.history (calls.map (·, .fixed assets))) : Transparent assets turn := by
  induction calls generalizing cache with
  | nil => cases hturn
  | cons call calls ih =>
    obtain ⟨hcall, hcalls⟩ := List.forall_mem_cons.1 hasks
    obtain ⟨hhere, hfaithful⟩ := transparent_perform h hcall
    rcases List.mem_cons.1 hturn with rfl | hturn
    · exact hhere
    · exact ih hfaithful hcalls hturn

/-- **A cache is transparent.** While the assets do not change, every request in a
run that starts with an empty cache gives the quest or the error that it gives on
an empty cache, and preloading gives what its requests give there, one by one. -/
theorem history_transparent (assets : String → Lookup) (calls : List Call)
    (hasks : ∀ call ∈ calls, call.Asks) :
    ∀ turn ∈ history {} (calls.map (·, .fixed assets)),
      (∀ name, turn.call = .request name →
        turn.result.map Given.content = alone assets name) ∧
      (∀ names, turn.call = .preload names →
        turn.result.map Given.content =
          (names.mapM (alone assets)).map fun given => .inr given.length) := by
  intro turn hturn
  have h := transparent_of_mem_history (faithful_empty assets) hasks hturn
  exact ⟨h.request, h.preload⟩

/-- Two quests, one of which cannot be read. -/
def tideAssets (path : String) : Lookup :=
  if path = "quests/tides.qst" then .found "title : Tides\n"
  else if path = "quests/fog.qst" then .found "foo : bar\n"
  else .missing

/-- A hit under another spelling, and a failure under a third. -/
theorem history_transparent_spellings :
    ∃ preloaded hit failed, history {} ([.preload ["tides"], .request "TIDES",
        .request "Fog"].map (·, .fixed tideAssets)) = [preloaded, hit, failed] ∧
      hit.lookups = [] ∧
      hit.result.map Given.content = .ok (.inl { title := "Tides" }) ∧
      alone tideAssets "TIDES" = .ok (.inl { title := "Tides" }) ∧
      failed.result.map Given.content =
        .error (.malformed "Fog" ⟨.unknownDirective "foo", 0⟩) ∧
      alone tideAssets "Fog" = .error (.malformed "Fog" ⟨.unknownDirective "foo", 0⟩) := by
  have hall := history_transparent tideAssets
    [.preload ["tides"], .request "TIDES", .request "Fog"] (by decide)
  refine ⟨_, _, _, rfl, ?_⟩
  have htides : alone tideAssets "TIDES" = .ok (.inl { title := "Tides" }) := by
    have hfound : tideAssets (assetPath "TIDES") = .found "title : Tides\n" := by decide +kernel
    have hparse : Quest.parse "title : Tides\n" = .ok { title := "Tides" } :=
      Quest.parse_of_runFor (n := 20) (by cbv)
    rw [alone_eq, questOf_of_found hfound, hparse]
    rfl
  have hfog : alone tideAssets "Fog" =
      .error (.malformed "Fog" ⟨.unknownDirective "foo", 0⟩) := by
    have hfound : tideAssets (assetPath "Fog") = .found "foo : bar\n" := by decide +kernel
    have hparse : Quest.parse "foo : bar\n" = .error ⟨.unknownDirective "foo", 0⟩ :=
      Quest.parse_of_runFor (n := 20) (by cbv)
    rw [alone_eq, questOf_of_found hfound, hparse]
    rfl
  have hin : (perform {} (.fixed tideAssets) (.preload ["tides"])).cache.get? "TIDES" =
      some ⟨0, { title := "Tides" }⟩ := by decide +kernel
  have hhit := @perform_of_get? _ (.request "TIDES") _ _ rfl hin (.fixed tideAssets)
  refine ⟨by rw [hhit], ?_, htides, ?_, hfog⟩
  · rw [← htides]
    exact (hall _ (by simp [history])).1 _ (call_perform _ _ _)
  · rw [← hfog]
    exact (hall _ (by simp [history])).1 _ (call_perform _ _ _)

end Cache

end Questbook
