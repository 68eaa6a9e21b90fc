/-
Questbook.Proofs.Cache.Preloading — preloading stops at the first failure, and
otherwise does not depend on the order of the names.

Preloading is compared with asking for the names one after the other, each on the cache
that the one before it left (`Cache.inTurn`). The cache may hold anything to begin with.
Of the assets it is only taken that they do not change meanwhile.

What a request comes to is settled by the cache and the assets together
(`Cache.request_cases`): the quest is in, or it is read, or it cannot be read. Earlier
requests change nothing about that. They may have put the quest in, but then it was
read from the same path, because the path follows from the key. So whether all names
can be had is a question about each name alone (`Cache.forall_succeeds_iff`), and what
is in afterwards is a question about the set of their keys
(`Cache.Loads.get?_eq_some_iff`). Neither sees the order, repetitions or the spelling.
-/
import Mathlib.Data.Finset.SDiff
import Questbook.Proofs.Cache.Bookkeeping
import Questbook.Proofs.Cache.Transparency

namespace Questbook

namespace Cache

/-- Asking for each of the names. -/
def requestsFor (assets : String → Lookup) (names : List String) : List (Call × Answers) :=
  names.map fun name => (.request name, .fixed assets)

/-- The names asked for one after the other, whatever comes of each. -/
def inTurn (cache : Cache) (assets : String → Lookup) (names : List String) : List Turn :=
  cache.history (requestsFor assets names)

/-- The cache behind that. -/
def behind (cache : Cache) (assets : String → Lookup) (names : List String) : Cache :=
  cache.afterAll (requestsFor assets names)

variable {assets : String → Lookup} {cache : Cache} {name : String} {names : List String}

theorem inTurn_cons (cache : Cache) (assets : String → Lookup) (name : String)
    (names : List String) :
    cache.inTurn assets (name :: names) =
      cache.perform (.fixed assets) (.request name) ::
        (cache.perform (.fixed assets) (.request name)).cache.inTurn assets names := rfl

theorem behind_cons (cache : Cache) (assets : String → Lookup) (name : String)
    (names : List String) :
    cache.behind assets (name :: names) =
      (cache.perform (.fixed assets) (.request name)).cache.behind assets names := rfl

/-! ## 1. One request -/

/-- All that a request can come to. -/
theorem request_cases (cache : Cache) (assets : String → Lookup) (name : String) :
    (∃ cached, cache.get? name = some cached ∧
      cache.perform (.fixed assets) (.request name) =
        ⟨.request name, .ok (.quest cached), [], cache⟩) ∨
    (∃ quest, cache.get? name = none ∧ questOf assets name = .ok quest ∧
      cache.perform (.fixed assets) (.request name) =
        ⟨.request name, .ok (.quest ⟨cache.size, quest⟩), [assetPath name],
          ⟨cache.quests.insert (key name) ⟨cache.size, quest⟩⟩⟩) ∨
    (∃ e, cache.get? name = none ∧ questOf assets name = .error e ∧
      cache.perform (.fixed assets) (.request name) =
        ⟨.request name, .error e, [assetPath name], cache⟩) := by
  cases hin : cache.get? name with
  | some cached => exact .inl ⟨cached, rfl, perform_of_get? rfl hin _⟩
  | none =>
    have hrun := run_request_of_get?_eq_none hin (.fixed assets) []
    right
    rw [perform, hrun, Answers.fixed, List.nil_append]
    cases hfound : assets (assetPath name) with
    | missing => exact .inr ⟨_, rfl, by rw [questOf, hfound], rfl⟩
    | unreadable => exact .inr ⟨_, rfl, by rw [questOf, hfound], rfl⟩
    | found text =>
      have hquest := questOf_of_found hfound
      cases hparse : (Quest.reading text).result with
      | error e =>
        refine .inr ⟨.malformed name e, rfl, by rw [hquest, Quest.parse, hparse]; rfl, ?_⟩
        simp [answer, enter, hparse, Except.map]
      | ok quest =>
        refine .inl ⟨quest, rfl, by rw [hquest, Quest.parse, hparse]; rfl, ?_⟩
        simp [answer, enter, hparse, Except.map]

/-- A request succeeds if the quest is in or can be read. -/
theorem succeeds_request_iff :
    (cache.perform (.fixed assets) (.request name)).Succeeds ↔
      cache.contains name = true ∨ ∃ quest, questOf assets name = .ok quest := by
  obtain ⟨cached, hin, hturn⟩ | ⟨quest, hin, hquest, hturn⟩ | ⟨e, hin, hquest, hturn⟩ :=
    cache.request_cases assets name
  · simp [hturn, Turn.Succeeds, contains, hin]
  · simp [hturn, Turn.Succeeds, contains, hin, hquest]
  · simp [hturn, Turn.Succeeds, contains, hin, hquest]

/-! ## 2. What is in afterwards -/

/-- The quest under a key, if one is in. -/
def questAt (cache : Cache) (k : String) : Option Quest :=
  (cache.quests.get? k).map Cached.quest

/-- The later cache holds what was in the first, and for each of the names that were not
in the quest that the assets hold, if it can be read. -/
def Loads (assets : String → Lookup) (cache : Cache) (names : List String) (later : Cache) :
    Prop :=
  ∀ k quest, later.questAt k = some quest ↔
    cache.questAt k = some quest ∨
      cache.questAt k = none ∧ ∃ name ∈ names, key name = k ∧ questOf assets name = .ok quest

theorem mem_names_iff_questAt {cache : Cache} {k : String} :
    k ∈ cache.names ↔ ∃ quest, cache.questAt k = some quest := by
  rw [mem_names, questAt, ← Option.isSome_iff_exists, Option.isSome_map]

theorem questAt_key {cache : Cache} {name : String} :
    cache.questAt (key name) = (cache.get? name).map Cached.quest := rfl

/-- Nothing is read anew for a name that was asked for before. -/
theorem Loads.append {mid later : Cache} {names' : List String}
    (h₁ : Loads assets cache names mid) (h₂ : Loads assets mid names' later) :
    Loads assets cache (names ++ names') later := by
  intro k quest
  rw [h₂ k quest, h₁ k quest]
  constructor
  · rintro ((hin | ⟨hnew, name, hname, hread⟩) | ⟨hmid, name, hname, hread⟩)
    · exact .inl hin
    · exact .inr ⟨hnew, name, List.mem_append_left _ hname, hread⟩
    · have hnew : cache.questAt k = none := by
        cases hin : cache.questAt k with
        | none => rfl
        | some quest' => rw [(h₁ k quest').2 (.inl hin)] at hmid; cases hmid
      exact .inr ⟨hnew, name, List.mem_append_right _ hname, hread⟩
  · rintro (hin | ⟨hnew, name, hname, hkey, hquest⟩)
    · exact .inl (.inl hin)
    · rcases List.mem_append.1 hname with hname | hname
      · exact .inl (.inr ⟨hnew, name, hname, hkey, hquest⟩)
      · cases hmid : mid.questAt k with
        | none => exact .inr ⟨rfl, name, hname, hkey, hquest⟩
        | some quest' =>
          -- The quest came in under another name with this key, and it is the same.
          obtain hin | ⟨-, name', hname', hkey', hquest'⟩ := (h₁ k quest').1 hmid
          · rw [hnew] at hin
            cases hin
          · have hsame := questOf_congr (hkey'.trans hkey.symm) hquest'
            exact .inl (.inr ⟨hnew, name', hname', hkey', by rw [hquest', ← hsame, hquest]⟩)

theorem loads_nil (assets : String → Lookup) (cache : Cache) : Loads assets cache [] cache := by
  intro k quest
  simp

/-- **Step lemma.** A request loads its quest. One that fails has nothing to load. -/
theorem loads_request (cache : Cache) (assets : String → Lookup) (name : String) :
    Loads assets cache [name] (cache.perform (.fixed assets) (.request name)).cache := by
  intro k quest
  obtain ⟨cached, hin, hturn⟩ | ⟨quest', hin, hquest, hturn⟩ | ⟨e, hin, hquest, hturn⟩ :=
    cache.request_cases assets name
  · have hbound : cache.questAt (key name) = some cached.quest := by rw [questAt_key, hin]; rfl
    rw [hturn]
    refine ⟨.inl, ?_⟩
    rintro (h | ⟨hnew, name', hname', rfl, -⟩)
    · exact h
    · rw [List.mem_singleton.1 hname', hbound] at hnew
      cases hnew
  · have hnew : cache.questAt (key name) = none := by rw [questAt_key, hin]; rfl
    have hlater (k : String) :
        questAt ⟨cache.quests.insert (key name) ⟨cache.size, quest'⟩⟩ k =
          if k = key name then some quest' else cache.questAt k := by
      rw [questAt, Table.get?_insert]
      split <;> rfl
    rw [hturn, hlater]
    by_cases hk : k = key name
    · subst hk
      simp [hnew, hquest]
    · simp [hk, Ne.symm hk]
  · rw [hturn]
    simp [hquest]

/-- **Run lemma.** -/
theorem loads_behind (cache : Cache) (assets : String → Lookup) (names : List String) :
    Loads assets cache names (cache.behind assets names) := by
  induction names generalizing cache with
  | nil => exact loads_nil assets cache
  | cons name names ih =>
    rw [behind_cons]
    exact (cache.loads_request assets name).append (ih _)

/-! ## 3. All names can be had -/

/-- Requests in turn succeed if each of the quests is in at the start or can be read. -/
theorem forall_succeeds_iff :
    (∀ turn ∈ cache.inTurn assets names, turn.Succeeds) ↔
      ∀ name ∈ names, cache.contains name = true ∨ ∃ quest, questOf assets name = .ok quest := by
  induction names generalizing cache with
  | nil => simp [inTurn, requestsFor, history]
  | cons name names ih =>
    rw [inTurn_cons, List.forall_mem_cons, List.forall_mem_cons, succeeds_request_iff, ih]
    refine and_congr_right fun hname => forall₂_congr fun name' _ => ?_
    -- What the first request put in can be read under any spelling.
    have hloads := cache.loads_request assets name
    simp only [contains_iff, mem_names_iff_questAt, hloads (key name'), List.mem_singleton,
      exists_eq_left]
    constructor
    · rintro (⟨quest, hin | ⟨-, hkey, hquest⟩⟩ | hread)
      · exact .inl ⟨quest, hin⟩
      · exact .inr ⟨quest, questOf_congr hkey hquest⟩
      · exact .inr hread
    · rintro (⟨quest, hin⟩ | hread)
      · exact .inl ⟨quest, .inl hin⟩
      · exact .inr hread

/-- The keys that successful requests leave. -/
theorem mem_names_behind (h : ∀ turn ∈ cache.inTurn assets names, turn.Succeeds) (k : String) :
    k ∈ (cache.behind assets names).names ↔ k ∈ cache.names ∨ k ∈ names.map key := by
  have hread := forall_succeeds_iff.1 h
  simp only [mem_names_iff_questAt, cache.loads_behind assets names k]
  constructor
  · rintro ⟨quest, hin | ⟨-, name, hname, rfl, -⟩⟩
    · exact .inl ⟨quest, hin⟩
    · exact .inr (List.mem_map_of_mem hname)
  · rintro (⟨quest, hin⟩ | hk)
    · exact ⟨quest, .inl hin⟩
    · obtain ⟨name, hname, rfl⟩ := List.mem_map.1 hk
      cases hin : cache.questAt (key name) with
      | some quest => exact ⟨quest, .inl rfl⟩
      | none =>
        rcases hread name hname with hbound | ⟨quest, hquest⟩
        · obtain ⟨quest, hquest⟩ := mem_names_iff_questAt.1 (contains_iff.1 hbound)
          rw [hin] at hquest
          cases hquest
        · exact ⟨quest, .inr ⟨rfl, name, hname, rfl, hquest⟩⟩

/-- If not all names can be had, there is a first one that cannot. -/
theorem exists_first_error (h : ¬∀ turn ∈ cache.inTurn assets names, turn.Succeeds) :
    ∃ front name back e, names = front ++ name :: back ∧
      (∀ turn ∈ cache.inTurn assets front, turn.Succeeds) ∧
      ((cache.behind assets front).perform (.fixed assets) (.request name)).result = .error e := by
  induction names generalizing cache with
  | nil => exact absurd (by simp [inTurn, requestsFor, history]) h
  | cons name names ih =>
    cases hfirst : (cache.perform (.fixed assets) (.request name)).result with
    | error e => exact ⟨[], name, names, e, rfl, by simp [inTurn, requestsFor, history], hfirst⟩
    | ok given =>
      rw [inTurn_cons, List.forall_mem_cons] at h
      obtain ⟨front, failed, back, e, hnames, hfront, herror⟩ := ih fun hall =>
        h ⟨⟨given, hfirst⟩, hall⟩
      refine ⟨name :: front, failed, back, e, by rw [hnames, List.cons_append], ?_, herror⟩
      rw [inTurn_cons, List.forall_mem_cons]
      exact ⟨⟨given, hfirst⟩, hfront⟩

/-! ## 4. Preloading is requests in turn -/

/-- A request does not mind what was looked up before. -/
theorem run_request_eq (cache : Cache) (assets : String → Lookup) (name : String)
    (asked : List String) :
    ∃ reply : Reply Cached,
      (cache.request (Answers.fixed assets).source name).run asked =
        (reply, asked ++ (cache.perform (.fixed assets) (.request name)).lookups) ∧
      reply.result.map Given.quest = (cache.perform (.fixed assets) (.request name)).result ∧
      reply.cache = (cache.perform (.fixed assets) (.request name)).cache := by
  cases hin : cache.get? name with
  | none =>
    rw [perform, run_request_of_get?_eq_none hin (.fixed assets) []]
    exact ⟨_, run_request_of_get?_eq_none hin (.fixed assets) asked, rfl, rfl⟩
  | some cached =>
    rw [perform_of_get? rfl hin, List.append_nil]
    exact ⟨_, run_request_of_get? hin (.fixed assets) asked, rfl, rfl⟩

theorem run_preload_nil (cache : Cache) (assets : String → Lookup) (asked : List String) :
    (cache.preload (Answers.fixed assets).source []).run asked =
      ({ result := .ok 0, cache, notices := [] }, asked) := rfl

/-- Names that can all be had are passed, and preloading goes on behind them. -/
theorem run_preload_append {front : List String}
    (h : ∀ turn ∈ cache.inTurn assets front, turn.Succeeds) (back asked : List String) :
    let whole := (cache.preload (Answers.fixed assets).source (front ++ back)).run asked
    let rest := ((cache.behind assets front).preload (Answers.fixed assets).source back).run
      (asked ++ (cache.inTurn assets front).flatMap Turn.lookups)
    whole.1.result = rest.1.result.map (· + front.length) ∧ whole.1.cache = rest.1.cache ∧
      whole.2 = rest.2 := by
  induction front generalizing cache asked with
  | nil =>
    have hasked : asked ++ (cache.inTurn assets []).flatMap Turn.lookups = asked :=
      List.append_nil asked
    rw [hasked]
    refine ⟨?_, rfl, rfl⟩
    show ((cache.preload (Answers.fixed assets).source back).run asked).1.result =
      ((cache.preload (Answers.fixed assets).source back).run asked).1.result.map (· + 0)
    cases ((cache.preload (Answers.fixed assets).source back).run asked).1.result <;> rfl
  | cons name front ih =>
    rw [inTurn_cons, List.forall_mem_cons] at h
    obtain ⟨⟨given, hgiven⟩, hothers⟩ := h
    obtain ⟨reply, hrun, hresult, hcache⟩ := cache.run_request_eq assets name asked
    rw [hgiven] at hresult
    obtain ⟨cached, hok⟩ : ∃ cached, reply.result = .ok cached := by
      cases hreply : reply.result with
      | error e => simp [hreply, Except.map] at hresult
      | ok cached => exact ⟨cached, rfl⟩
    obtain ⟨hsum, hlast, hlookups⟩ :=
      ih hothers (asked ++ (cache.perform (.fixed assets) (.request name)).lookups)
    rw [List.cons_append, run_preload_of_ok hrun hok, hcache, inTurn_cons, behind_cons,
      List.flatMap_cons, ← List.append_assoc]
    refine ⟨?_, hlast, hlookups⟩
    simp only [hsum, List.length_cons]
    cases (((cache.perform (.fixed assets) (.request name)).cache.behind assets front).preload
        (Answers.fixed assets).source back).run _ |>.1.result with
    | error e => rfl
    | ok count => rfl

/-- What preloading comes to if all names can be had. -/
theorem perform_preload_of_succeeds (h : ∀ turn ∈ cache.inTurn assets names, turn.Succeeds) :
    cache.perform (.fixed assets) (.preload names) =
      ⟨.preload names, .ok (.count names.length), (cache.inTurn assets names).flatMap Turn.lookups,
        cache.behind assets names⟩ := by
  obtain ⟨hresult, hcache, hlookups⟩ := run_preload_append h [] []
  rw [List.append_nil, run_preload_nil] at hresult hcache hlookups
  simp only [perform, hresult, hcache, hlookups]
  simp [Except.map]

/-- What preloading comes to if a name behind others cannot be had. -/
theorem perform_preload_of_error {front : List String} {e : QuestError}
    (h : ∀ turn ∈ cache.inTurn assets front, turn.Succeeds)
    (herror : ((cache.behind assets front).perform (.fixed assets) (.request name)).result =
      .error e) (back : List String) :
    cache.perform (.fixed assets) (.preload (front ++ name :: back)) =
      ⟨.preload (front ++ name :: back), .error e,
        (cache.inTurn assets front).flatMap Turn.lookups ++ [assetPath name],
        cache.behind assets front⟩ := by
  obtain ⟨hresult, hcache, hlookups⟩ := run_preload_append h (name :: back) []
  obtain ⟨reply, hrun, hreply, hafter⟩ := (cache.behind assets front).run_request_eq assets name
    ([] ++ (cache.inTurn assets front).flatMap Turn.lookups)
  obtain ⟨cached, hin, hturn⟩ | ⟨quest, hin, hquest, hturn⟩ | ⟨e', hin, hquest, hturn⟩ :=
    (cache.behind assets front).request_cases assets name
  · simp [hturn] at herror
  · simp [hturn] at herror
  · rw [hturn] at herror hrun hreply hafter
    obtain rfl : e' = e := by simpa using herror
    have hfails : reply.result = .error e' := by
      cases hresult : reply.result with
      | error e => simpa [hresult, Except.map] using hreply
      | ok cached => simp [hresult, Except.map] at hreply
    rw [run_preload_of_error hrun hfails] at hresult hcache hlookups
    simp only [perform, hresult, hcache, hlookups, hafter]
    simp [Except.map]

/-! ## 5. Order, repetitions and spelling -/

/-- A key that is not in counts once, and is in from then on. -/
theorem card_insert_sdiff {k : String} {bound : Finset String} (h : k ∉ bound)
    (keys : Finset String) :
    (insert k keys \ bound).card = (keys \ insert k bound).card + 1 := by
  have hsplit : insert k keys \ bound = insert k (keys \ insert k bound) := by
    ext k'
    by_cases hk : k' = k <;> simp [hk, h]
  rw [hsplit, Finset.card_insert_of_notMem (by simp)]

theorem toFinset_names_insert (cache : Cache) (k : String) (cached : Cached) :
    (Cache.names ⟨cache.quests.insert k cached⟩).toFinset = insert k cache.names.toFinset := by
  ext k'
  rw [List.mem_toFinset, mem_names_insert, Finset.mem_insert, List.mem_toFinset, or_comm, eq_comm]

/-- One path is looked up for each key that is not in. -/
theorem length_lookups_inTurn (h : ∀ turn ∈ cache.inTurn assets names, turn.Succeeds) :
    ((cache.inTurn assets names).flatMap Turn.lookups).length =
      ((names.map key).toFinset \ cache.names.toFinset).card := by
  induction names generalizing cache with
  | nil => simp [inTurn, requestsFor, history]
  | cons name names ih =>
    rw [inTurn_cons, List.forall_mem_cons] at h
    obtain ⟨⟨given, hgiven⟩, hothers⟩ := h
    rw [inTurn_cons, List.flatMap_cons, List.length_append, ih hothers, List.map_cons,
      List.toFinset_cons]
    obtain ⟨cached, hin, hturn⟩ | ⟨quest, hin, hquest, hturn⟩ | ⟨e, hin, hquest, hturn⟩ :=
      cache.request_cases assets name
    · have hmem : key name ∈ cache.names.toFinset := by
        rw [List.mem_toFinset, ← contains_iff, contains, hin]
        rfl
      rw [hturn, Finset.insert_sdiff_of_mem _ hmem, List.length_nil, Nat.zero_add]
    · have hmem : key name ∉ cache.names.toFinset := by
        rw [List.mem_toFinset, ← contains_iff, contains, hin]
        simp
      rw [hturn, toFinset_names_insert, card_insert_sdiff hmem, List.length_singleton, Nat.add_comm]
    · rw [hturn] at hgiven
      cases hgiven

/-- Names with the same keys can be had as well. -/
theorem succeeds_of_keys {names' : List String}
    (h : ∀ turn ∈ cache.inTurn assets names, turn.Succeeds)
    (hkeys : ∀ k, k ∈ names'.map key ↔ k ∈ names.map key) :
    ∀ turn ∈ cache.inTurn assets names', turn.Succeeds := by
  rw [forall_succeeds_iff] at h ⊢
  intro name' hname'
  obtain ⟨name, hname, hkey⟩ := List.mem_map.1 ((hkeys _).1 (List.mem_map_of_mem hname'))
  rcases h name hname with hbound | ⟨quest, hquest⟩
  · rw [contains_iff, hkey, ← contains_iff] at hbound
    exact .inl hbound
  · exact .inr ⟨quest, questOf_congr hkey hquest⟩

/-- Names with the same keys leave the same quests. -/
theorem Loads.questAt_congr {names' : List String} {later later' : Cache}
    (h' : Loads assets cache names' later') (h : Loads assets cache names later)
    (hkeys : ∀ k, k ∈ names'.map key ↔ k ∈ names.map key) (k : String) :
    later'.questAt k = later.questAt k := by
  have hread {names names' : List String} (hkeys : ∀ k, k ∈ names.map key → k ∈ names'.map key)
      {quest : Quest} (hread : ∃ name ∈ names, key name = k ∧ questOf assets name = .ok quest) :
      ∃ name ∈ names', key name = k ∧ questOf assets name = .ok quest := by
    obtain ⟨name, hname, rfl, hquest⟩ := hread
    obtain ⟨name', hname', hkey⟩ := List.mem_map.1 (hkeys _ (List.mem_map_of_mem hname))
    exact ⟨name', hname', hkey, questOf_congr hkey.symm hquest⟩
  ext quest
  rw [h' k quest, h k quest]
  exact or_congr_right (and_congr_right fun _ =>
    ⟨hread fun k => (hkeys k).1, hread fun k => (hkeys k).2⟩)

/-- Preloading stopped: the requests before `name` are made, the one for `name` failed, and
nothing else was done. -/
structure Stops (assets : String → Lookup) (cache : Cache) (front : List String) (name : String)
    (e : QuestError) (turn : Turn) : Prop where
  result_eq : turn.result = .error e
  /-- The quests before are in. -/
  contains : ∀ name ∈ front, turn.cache.contains name = true
  /-- Nothing else came in. -/
  mem_names : ∀ k, k ∈ turn.cache.names ↔ k ∈ cache.names ∨ k ∈ front.map key
  extends_start : cache.Extends turn.cache
  /-- The last path looked up is that of `name`. -/
  lookups_eq : turn.lookups =
    (cache.inTurn assets front).flatMap Turn.lookups ++ [assetPath name]

/-- Preloading went through: it gives the number of names, and looked up one path for each
key that was not in. -/
structure Completes (cache : Cache) (names : List String) (turn : Turn) : Prop where
  result_eq : turn.result = .ok (.count names.length)
  length_lookups : turn.lookups.length = ((names.map key).toFinset \ cache.names.toFinset).card

/-- **Preloading stops at the first failure, and otherwise does not depend on order.** If not
all names can be had, when they are asked for in turn, preloading gives the error of the
first that cannot and leaves what the names before it left. If all can be had, it gives
their number, and any other list with the same keys, be it in another order, with
repetitions or in another spelling, goes through as well and leaves the same quests under
the same keys, with as many look-ups. -/
theorem preload_determined (assets : String → Lookup) (cache : Cache) (names : List String) :
    ((¬∀ turn ∈ cache.inTurn assets names, turn.Succeeds) →
      ∃ front name back e, names = front ++ name :: back ∧
        (∀ turn ∈ cache.inTurn assets front, turn.Succeeds) ∧
        ((cache.behind assets front).perform (.fixed assets) (.request name)).result = .error e ∧
        Stops assets cache front name e (cache.perform (.fixed assets) (.preload names))) ∧
    ((∀ turn ∈ cache.inTurn assets names, turn.Succeeds) →
      Completes cache names (cache.perform (.fixed assets) (.preload names)) ∧
      ∀ names', (∀ k, k ∈ names'.map key ↔ k ∈ names.map key) →
        let turn := cache.perform (.fixed assets) (.preload names)
        let turn' := cache.perform (.fixed assets) (.preload names')
        Completes cache names' turn' ∧ turn'.lookups.length = turn.lookups.length ∧
          turn'.cache.names = turn.cache.names ∧
          ∀ k, turn'.cache.questAt k = turn.cache.questAt k) := by
  constructor
  · intro hsome
    obtain ⟨front, name, back, e, rfl, h, herror⟩ := exists_first_error hsome
    refine ⟨front, name, back, e, rfl, h, herror, ?_⟩
    have hturn := perform_preload_of_error h herror back
    exact {
      result_eq := by rw [hturn]
      contains := fun name hname => by
        rw [hturn, contains_iff, mem_names_behind h]
        exact .inr (List.mem_map_of_mem hname)
      mem_names := fun k => by rw [hturn, mem_names_behind h]
      extends_start := (cache.keeps_perform _ _).stays
      lookups_eq := by rw [hturn] }
  · intro h
    have hcompletes {names' : List String}
        (h : ∀ turn ∈ cache.inTurn assets names', turn.Succeeds) :
        Completes cache names' (cache.perform (.fixed assets) (.preload names')) := by
      rw [perform_preload_of_succeeds h]
      exact ⟨rfl, length_lookups_inTurn h⟩
    refine ⟨hcompletes h, fun names' hkeys => ?_⟩
    have h' := succeeds_of_keys h hkeys
    have hlater (k : String) :
        (cache.perform (.fixed assets) (.preload names')).cache.questAt k =
          (cache.perform (.fixed assets) (.preload names)).cache.questAt k := by
      rw [perform_preload_of_succeeds h, perform_preload_of_succeeds h']
      exact (cache.loads_behind assets names').questAt_congr (cache.loads_behind assets names)
        hkeys k
    refine ⟨hcompletes h', ?_, ?_, hlater⟩
    · have hsame : (names'.map key).toFinset = (names.map key).toFinset := by
        ext k
        simp only [List.mem_toFinset, hkeys]
      rw [(hcompletes h').length_lookups, (hcompletes h).length_lookups, hsame]
    · refine (names_ascend _).eq_of_mem_iff (names_ascend _) fun k => ?_
      simp only [mem_names_iff_questAt, hlater]

/-- A list that stops at a malformed quest, and two that load the same quest. -/
theorem preload_determined_tides :
    (∃ front name back e, ["tides", "Fog", "ebb"] = front ++ name :: back ∧
      Stops tideAssets {} front name e
        (perform {} (.fixed tideAssets) (.preload ["tides", "Fog", "ebb"]))) ∧
    Completes {} ["tides", "TIDES"]
      (perform {} (.fixed tideAssets) (.preload ["tides", "TIDES"])) ∧
    Completes {} ["Tides"] (perform {} (.fixed tideAssets) (.preload ["Tides"])) ∧
    (perform {} (.fixed tideAssets) (.preload ["Tides"])).cache.names = ["tides"] := by
  have htides : ∃ quest, questOf tideAssets "tides" = .ok quest := by
    have hfound : tideAssets (assetPath "tides") = .found "title : Tides\n" := by decide +kernel
    have hparse : Quest.parse "title : Tides\n" = .ok { title := "Tides" } :=
      Quest.parse_of_runFor (n := 20) (by cbv)
    rw [questOf_of_found hfound, hparse]
    exact ⟨_, rfl⟩
  have hfog : ¬∃ quest, questOf tideAssets "Fog" = .ok quest := by
    have hfound : tideAssets (assetPath "Fog") = .found "foo : bar\n" := by decide +kernel
    have hparse : Quest.parse "foo : bar\n" = .error ⟨.unknownDirective "foo", 0⟩ :=
      Quest.parse_of_runFor (n := 20) (by cbv)
    rw [questOf_of_found hfound, hparse]
    rintro ⟨quest, ⟨⟩⟩
  have hall : ∀ turn ∈ inTurn {} tideAssets ["tides", "TIDES"], turn.Succeeds := by
    obtain ⟨quest, hquest⟩ := htides
    rw [forall_succeeds_iff]
    simp only [List.forall_mem_cons]
    exact ⟨.inr ⟨quest, hquest⟩, .inr ⟨quest, questOf_congr (by decide +kernel) hquest⟩, by simp⟩
  have hsome : ¬∀ turn ∈ inTurn {} tideAssets ["tides", "Fog", "ebb"], turn.Succeeds := by
    rw [forall_succeeds_iff]
    intro h
    exact (h "Fog" (by simp)).elim (by decide +kernel) hfog
  obtain ⟨front, name, back, e, hnames, -, -, hstops⟩ :=
    (preload_determined tideAssets {} ["tides", "Fog", "ebb"]).1 hsome
  obtain ⟨hfirst, hothers⟩ := (preload_determined tideAssets {} ["tides", "TIDES"]).2 hall
  have hkeys : ["Tides"].map key = ["tides"] ∧ ["tides", "TIDES"].map key = ["tides", "tides"] := by
    decide +kernel
  obtain ⟨hsecond, -, hsame, -⟩ := hothers ["Tides"] (by simp [hkeys])
  refine ⟨⟨front, name, back, e, hnames, hstops⟩, hfirst, hsecond, ?_⟩
  exact hsame.trans (by decide +kernel)

end Cache

end Questbook
