/-
Questbook.Notice — what the library tells a log, and how urgent it is.

Notices are data: a function that has something to tell returns its notices
beside its result, in the order they arose, whether the result is a success or
a failure. The wording is made here and nowhere else.
-/
import Questbook.Quest
import Questbook.Text.Numeral

namespace Questbook

/-- How urgent a notice is. -/
inductive Level where
  | debug
  | info
  | warn
deriving DecidableEq, Repr

/-- The word for a level. -/
def Level.name : Level → String
  | .debug => "DEBUG"
  | .info => "INFO"
  | .warn => "WARN"

/-- Something for the log. -/
inductive Notice where
  | unknownFlag (text : String) (offset : Nat)
  | repeatedResource (id : Int64)
  | repeatedTask (name : String)
  | taskAdded (isEvent : Bool) (name : String) (commands : Nat)
  | questReused (key : String)
  | questParsed (key : String) (tasks resources : Nat)
  | configLoaded (path assetRoot : String)
  | configIgnored (path reason : String)
deriving DecidableEq, Repr

namespace Notice

/-- How urgent the notice is. -/
def level : Notice → Level
  | .unknownFlag .. | .repeatedResource .. | .repeatedTask .. | .configIgnored .. => .warn
  | .questParsed .. | .configLoaded .. => .info
  | .taskAdded .. | .questReused .. => .debug

/-- The notice in words. -/
def message : Notice → String
  | .unknownFlag text offset =>
    s!"ignoring unknown quest flag '{text}' at byte {offset}"
  | .repeatedResource id =>
    s!"resource {Text.Numeral.render id} is defined more than once; keeping the last definition"
  | .repeatedTask name =>
    s!"task '{name}' is defined more than once; lookups will use the last definition"
  | .taskAdded isEvent name commands =>
    s!"{Task.keyword isEvent} '{name}' added with {commands} command(s)"
  | .questReused key =>
    s!"reusing cached quest '{key}'"
  | .questParsed key tasks resources =>
    s!"quest '{key}' parsed: {tasks} task(s), {resources} resource(s)"
  | .configLoaded path assetRoot =>
    s!"engine config loaded from '{path}' (asset root '{assetRoot}')"
  | .configIgnored path reason =>
    s!"Could not load engine config from '{path}': {reason}. Using defaults."

end Notice

end Questbook
