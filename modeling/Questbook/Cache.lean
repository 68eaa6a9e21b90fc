/-
Questbook.Cache — quests that were read once.

A cache holds quests by the small letters of their names. A quest that is in
stays in, and is handed out again without asking its source; a quest that
cannot be read leaves no trace. Two answers with the same handle are one
shared quest.

The source is asked in the caller's monad and may answer differently each
time. A request gives its result, the cache after it, and what the log is
told.
-/
import Questbook.Assets
import Questbook.Quest.Parse

namespace Questbook

/-- Why a quest is not to be had. -/
inductive QuestError where
  | notFound (name path : String)
  | unreadable (path : String)
  | malformed (name : String) (error : ParseError)
deriving DecidableEq, Repr

/-- The error in words. -/
def QuestError.message : QuestError → String
  | .notFound name path => s!"quest '{name}' could not be found (looked for '{path}')"
  | .unreadable path => s!"failed to read quest asset '{path}'"
  | .malformed name error => s!"quest '{name}' is malformed: {error.message}"

/-- A quest in a cache. -/
structure Cached where
  handle : Nat
  quest : Quest
deriving DecidableEq, Repr

/-- The quests read so far, by key. -/
structure Cache where
  quests : Table String Cached := ∅
deriving DecidableEq, Repr

/-- What came of a request. -/
structure Reply (α : Type) where
  result : Except QuestError α
  cache : Cache
  notices : List Notice

namespace Cache

/-- The key of a name. -/
def key (name : String) : String :=
  Unicode.lower name

/-- The quest of this name, if it is in. -/
def get? (cache : Cache) (name : String) : Option Cached :=
  cache.quests.get? (key name)

/-- A quest of this name is in. -/
def contains (cache : Cache) (name : String) : Bool :=
  (cache.get? name).isSome

/-- The keys of all quests that are in, ascending. -/
def names (cache : Cache) : List String :=
  cache.quests.keys

/-- The number of quests that are in. -/
def size (cache : Cache) : Nat :=
  cache.quests.size

/-- No quest is in. -/
def isEmpty (cache : Cache) : Bool :=
  cache.size == 0

/-! ## 1. Requests -/

/-- Reads a text as the quest of this name and puts it in. Nothing is ever
taken out, so the number of quests before is a handle not in use. -/
def enter (cache : Cache) (name text : String) : Reply Cached :=
  let reading := Quest.reading text
  match reading.result with
  | .error e =>
    { result := .error (.malformed name e), cache, notices := reading.notices }
  | .ok quest =>
    let cached := ⟨cache.size, quest⟩
    { result := .ok cached
      cache := ⟨cache.quests.insert (key name) cached⟩
      notices := reading.notices ++
        [.questParsed (key name) quest.tasks.length quest.resources.size] }

/-- Reads a text as the quest of this name, unless that quest is in already. -/
def insertSource (cache : Cache) (name text : String) : Reply Cached :=
  match cache.get? name with
  | some cached => { result := .ok cached, cache, notices := [] }
  | none => cache.enter name text

/-- Makes the reply of what the source has at the quest's path. -/
def answer (cache : Cache) (name : String) : Lookup → Reply Cached
  | .found text => cache.enter name text
  | .missing => { result := .error (.notFound name (assetPath name)), cache, notices := [] }
  | .unreadable => { result := .error (.unreadable (assetPath name)), cache, notices := [] }

variable {m : Type → Type} [Monad m]

/-- The quest of this name. Its source is asked only if the quest is not in. -/
def request (source : Source m) (cache : Cache) (name : String) : m (Reply Cached) :=
  match cache.get? name with
  | some cached =>
    pure { result := .ok cached, cache, notices := [.questReused (key name)] }
  | none => do
    return cache.answer name (← source (assetPath name))

/-- Requests quests one after the other up to the first failure, and gives
their number. -/
def preload (source : Source m) (cache : Cache) : List String → m (Reply Nat)
  | [] => pure { result := .ok 0, cache, notices := [] }
  | name :: names => do
    let first ← cache.request source name
    match first.result with
    | .error e => return { result := .error e, cache := first.cache, notices := first.notices }
    | .ok _ =>
      let others ← first.cache.preload source names
      return { others with
        result := others.result.map (· + 1)
        notices := first.notices ++ others.notices }

end Cache

end Questbook
