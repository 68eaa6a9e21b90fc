/-
Questbook.Quest — quests, as the game's executor receives them.

A quest has a title, a briefing, a table of resources that its commands refer
to by number, and tasks. The first task is the entry point, the main line of
the quest, under a name that no author is meant to use; tasks and events
follow in the order of the source. A name may occur more than once, and the
last task of that name is the one that counts.
-/
import Questbook.Table
import Questbook.Text.Fold

namespace Questbook

/-- What a resource is. -/
inductive ResourceKind where
  | message
  | sound
  | video
  | stage
deriving DecidableEq, Repr

namespace ResourceKind

/-- The word for a kind. -/
def name : ResourceKind → String
  | .message => "message"
  | .sound => "sound"
  | .video => "video"
  | .stage => "stage"

/-- All kinds there are. -/
def all : List ResourceKind := [.message, .sound, .video, .stage]

/-- The kind with exactly this name. -/
def ofName? (name : String) : Option ResourceKind :=
  all.find? fun kind => kind.name == name

/-- The kind a keyword stands for, in any case of its ASCII letters. -/
def ofKeyword? (keyword : String) : Option ResourceKind :=
  ofName? (Text.fold keyword)

end ResourceKind

/-- Content that commands refer to. -/
structure Resource where
  kind : ResourceKind
  content : String
deriving DecidableEq, Repr

/-- One instruction. What its arguments mean is up to the executor. -/
structure Command where
  name : String
  arguments : List String := []
deriving DecidableEq, Repr

/-- A task or an event with its instructions. -/
structure Task where
  name : String
  commands : List Command := []
  isEvent : Bool := false
deriving DecidableEq, Repr

namespace Task

/-- The name that is kept for the main line of a quest. -/
def entryPointName : String := "<entry-point>"

/-- The main line of a quest with these instructions. -/
def entryPoint (commands : List Command) : Task :=
  { name := entryPointName, commands }

/-- The task has the name kept for the main line. -/
def isEntryPoint (t : Task) : Bool :=
  t.name == entryPointName

/-- What the source calls it. -/
def keyword (isEvent : Bool) : String :=
  if isEvent then "event" else "task"

end Task

/-- A quest. -/
structure Quest where
  title : String := ""
  briefing : String := ""
  /-- The quest runs beside others. -/
  runsInBackground : Bool := false
  resources : Table Int64 Resource := ∅
  tasks : List Task := [.entryPoint []]
deriving DecidableEq, Repr

namespace Quest

/-- The first task, if there is one. -/
def entryPoint? (q : Quest) : Option Task :=
  q.tasks.head?

/-- The last task of this name. -/
def task? (q : Quest) (name : String) : Option Task :=
  q.tasks.reverse.find? fun t => t.name == name

/-- The events, in order. -/
def events (q : Quest) : List Task :=
  q.tasks.filter (·.isEvent)

/-- The tasks that are no events, in order. -/
def linearTasks (q : Quest) : List Task :=
  q.tasks.filter fun t => !t.isEvent

/-- The resource of this number. -/
def resource? (q : Quest) (id : Int64) : Option Resource :=
  q.resources.get? id

end Quest

end Questbook
