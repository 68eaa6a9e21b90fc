/-
Questbook.Proofs.Cache.Permanence — a quest that is in a cache stays there,
and everyone gets the same one.

`bound_quest_is_permanent` speaks of any history that starts with an empty
cache. It has four parts. What a call hands out, or preloads, is bound: it is
in the cache behind that call. A call for a bound quest hands out the entry
that was bound first, handle and quest, and looks nothing up; the assets and
the text handed in have no say. And quests handed out under different keys
have different handles.

The first two are facts about one call. The other two compare two calls of the
history, and rest on the cache being kept in between (`Cache.pairwise_history`,
`Cache.exists_keeps_all`).
-/
import Questbook.Proofs.Cache.History

namespace Questbook

namespace Cache

/-- What is bound at a turn of a history is handed out at every later call for
it, and the later call looks nothing up. -/
theorem pairwise_history (cache : Cache) (steps : List (Call × Answers)) :
    (cache.history steps).Pairwise fun earlier later =>
      ∀ {name name' : String} {cached : Cached}, earlier.cache.get? name = some cached →
        later.call.name? = some name' → key name' = key name →
        later.HandsOut name' cached ∧ later.lookups = [] := by
  induction steps generalizing cache with
  | nil => exact .nil
  | cons step steps ih =>
    refine List.pairwise_cons.2 ⟨?_, ih _⟩
    intro later hlater name name' cached hin hname hkey
    obtain ⟨before, answers, hkeeps, heq⟩ := exists_perform_of_mem_history hlater
    have hbefore : before.get? name' = some cached := by
      rw [get?, hkey]
      exact hkeeps.stays hin
    have hhit := perform_of_get? hname hbefore answers
    rw [heq]
    exact ⟨⟨by simp [hname], by rw [hhit]⟩, by rw [hhit]⟩

/-- The cache at the end of a history holds what any of its turns left. -/
theorem exists_keeps_all (cache : Cache) (steps : List (Call × Answers)) :
    ∃ last, cache.Keeps last ∧ ∀ turn ∈ cache.history steps, turn.cache.Keeps last := by
  induction steps generalizing cache with
  | nil => exact ⟨cache, .refl cache, by simp [history]⟩
  | cons step steps ih =>
    have hstep := cache.keeps_perform step.2 step.1
    obtain ⟨last, hlast, hall⟩ := ih (cache.perform step.2 step.1).cache
    refine ⟨last, hstep.trans hlast, ?_⟩
    intro turn hturn
    rcases List.mem_cons.1 hturn with rfl | hturn
    · exact hlast
    · exact hall turn hturn

/-- What a turn of a history hands out is in the cache behind it. -/
theorem get?_of_mem_history {cache : Cache} {steps : List (Call × Answers)} {turn : Turn}
    (hturn : turn ∈ cache.history steps) {name : String} {cached : Cached}
    (h : turn.HandsOut name cached) : turn.cache.get? name = some cached := by
  obtain ⟨before, answers, -, heq⟩ := exists_perform_of_mem_history hturn
  rw [heq] at h ⊢
  exact get?_of_handsOut h

/-- Quests handed out under different keys, at whatever turns of a history,
have different handles: both are in the cache at the end. -/
theorem handle_ne_of_handsOut {steps : List (Call × Answers)} {turn turn' : Turn}
    (hturn : turn ∈ Cache.history {} steps) (hturn' : turn' ∈ Cache.history {} steps)
    {name name' : String} {cached cached' : Cached} (h : turn.HandsOut name cached)
    (h' : turn'.HandsOut name' cached') (hkey : key name ≠ key name') :
    cached.handle ≠ cached'.handle := by
  obtain ⟨last, hlast, hall⟩ := exists_keeps_all {} steps
  have hin := (hall turn hturn).stays (get?_of_mem_history hturn h)
  have hin' := (hall turn' hturn').stays (get?_of_mem_history hturn' h')
  intro heq
  exact hkey ((hlast.distinct distinct_empty).key_eq hin hin' heq)

/-- **A bound quest is permanent and shared.** -/
theorem bound_quest_is_permanent (steps : List (Call × Answers)) :
    (∀ turn ∈ Cache.history {} steps,
      (turn.Succeeds → ∀ name ∈ turn.call.names, turn.cache.contains name = true) ∧
      ∀ name cached, turn.HandsOut name cached → turn.cache.get? name = some cached) ∧
    ((Cache.history {} steps).Pairwise fun earlier later =>
      ∀ name name', earlier.cache.contains name = true → later.call.name? = some name' →
        key name' = key name →
        ∃ cached, earlier.cache.get? name = some cached ∧ later.HandsOut name' cached ∧
          later.lookups = []) ∧
    (∀ turn ∈ Cache.history {} steps, ∀ turn' ∈ Cache.history {} steps,
      ∀ name name' cached cached', turn.HandsOut name cached → turn'.HandsOut name' cached' →
        key name ≠ key name' → cached.handle ≠ cached'.handle) := by
  refine ⟨?_, ?_, ?_⟩
  · intro turn hturn
    refine ⟨?_, fun name cached => get?_of_mem_history hturn⟩
    obtain ⟨before, answers, -, heq⟩ := exists_perform_of_mem_history hturn
    intro hsucceeds
    rw [heq] at hsucceeds ⊢
    simpa using contains_of_succeeds hsucceeds
  · refine (pairwise_history {} steps).imp ?_
    intro earlier later h name name' hin hname hkey
    obtain ⟨cached, hcached⟩ := Option.isSome_iff_exists.1 hin
    exact ⟨cached, hcached, h hcached hname hkey⟩
  · intro turn hturn turn' hturn' name name' cached cached' h h' hkey
    exact handle_ne_of_handsOut hturn hturn' h h' hkey

/-- A quest entered under one spelling is handed out under another, though the
second text is malformed and the assets cannot be read. -/
theorem entered_quest_is_permanent :
    ∃ first second, Cache.history {}
        [(.insertSource "side" "title : One\n", fun _ _ => .unreadable),
          (.insertSource "SIDE" "foo : bar\n", fun _ _ => .unreadable)] = [first, second] ∧
      first.HandsOut "side" ⟨0, { title := "One" }⟩ ∧
      second.HandsOut "SIDE" ⟨0, { title := "One" }⟩ ∧ second.lookups = [] := by
  have hall := bound_quest_is_permanent
    [(.insertSource "side" "title : One\n", fun _ _ => .unreadable),
      (.insertSource "SIDE" "foo : bar\n", fun _ _ => .unreadable)]
  refine ⟨_, _, rfl, ?_⟩
  obtain ⟨hbound, hpairs, -⟩ := hall
  have hfirst : (perform {} (fun _ _ => .unreadable)
      (.insertSource "side" "title : One\n")).HandsOut "side" ⟨0, { title := "One" }⟩ := by
    refine ⟨rfl, ?_⟩
    have hquest : (perform {} (fun _ _ => .unreadable)
        (.insertSource "side" "title : One\n")).result.toOption =
        some (.quest ⟨0, { title := "One" }⟩) := by decide +kernel
    revert hquest
    cases (perform {} (fun _ _ => .unreadable) (.insertSource "side" "title : One\n")).result with
    | error e => simp [Except.toOption]
    | ok given => simp [Except.toOption]
  have hin := (hbound _ (List.mem_cons_self ..)).2 _ _ hfirst
  obtain ⟨cached, hcached, hsecond⟩ := (List.pairwise_cons.1 hpairs).1 _ (List.mem_cons_self ..)
    "side" "SIDE" (by rw [contains, hin]; rfl) rfl (by decide +kernel)
  rw [hin] at hcached
  cases hcached
  exact ⟨hfirst, hsecond⟩

end Cache

end Questbook
