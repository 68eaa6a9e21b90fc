/-
Questbook.Quest.Json — quests as JSON, and back.

Writing gives every field. Reading asks for the task list, for the name of
each task and command, and for the kind and content of each resource; what
else is missing takes its default, and fields of other names are passed over.
A field that is there has to be of the right sort: `null` is no default. The
numbers of resources are names of fields, and only the canonical numeral of a
signed 64-bit number is one.
-/
import Questbook.Json
import Questbook.Quest
import Questbook.Text.Numeral

namespace Questbook

open Text

/-! ## 1. Writing -/

namespace Resource

/-- The resource as an object. -/
def toJson (r : Resource) : Json :=
  .object [("kind", .string r.kind.name), ("content", .string r.content)]

end Resource

namespace Command

/-- The command as an object. -/
def toJson (c : Command) : Json :=
  .object [("name", .string c.name), ("arguments", .array (c.arguments.map .string))]

end Command

namespace Task

/-- The task as an object. -/
def toJson (t : Task) : Json :=
  .object [
    ("name", .string t.name),
    ("commands", .array (t.commands.map Command.toJson)),
    ("is_event", .bool t.isEvent)]

end Task

namespace Quest

/-- The quest as an object. -/
def toJson (q : Quest) : Json :=
  .object [
    ("title", .string q.title),
    ("briefing", .string q.briefing),
    ("runs_in_background", .bool q.runsInBackground),
    ("resources", .object (q.resources.entries.map fun (id, r) => (Numeral.render id, r.toJson))),
    ("tasks", .array (q.tasks.map Task.toJson))]

end Quest

/-! ## 2. Reading -/

namespace Resource

/-- The resource that a value describes. -/
def ofJson? (value : Json) : Option Resource := do
  let fields ← value.fields?
  let kind ← Json.required fields "kind" fun v => v.string?.bind ResourceKind.ofName?
  let content ← Json.required fields "content" Json.string?
  return { kind, content }

/-- The resource and its number that a field describes. -/
def ofField? (field : String × Json) : Option (Int64 × Resource) := do
  let id ← Numeral.readCanonical? field.1
  let resource ← ofJson? field.2
  return (id, resource)

end Resource

namespace Command

/-- The command that a value describes. -/
def ofJson? (value : Json) : Option Command := do
  let fields ← value.fields?
  let name ← Json.required fields "name" Json.string?
  let arguments ← Json.optional fields "arguments" [] (Json.list? Json.string?)
  return { name, arguments }

end Command

namespace Task

/-- The task that a value describes. -/
def ofJson? (value : Json) : Option Task := do
  let fields ← value.fields?
  let name ← Json.required fields "name" Json.string?
  let commands ← Json.optional fields "commands" [] (Json.list? Command.ofJson?)
  let isEvent ← Json.optional fields "is_event" false Json.bool?
  return { name, commands, isEvent }

end Task

namespace Quest

/-- The table of resources that a value describes. -/
def resourcesOfJson? (value : Json) : Option (Table Int64 Resource) := do
  let fields ← value.fields?
  return .ofList (← fields.mapM Resource.ofField?)

/-- The quest that a value describes. -/
def ofJson? (value : Json) : Option Quest := do
  let fields ← value.fields?
  let title ← Json.optional fields "title" "" Json.string?
  let briefing ← Json.optional fields "briefing" "" Json.string?
  let runsInBackground ← Json.optional fields "runs_in_background" false Json.bool?
  let resources ← Json.optional fields "resources" ∅ resourcesOfJson?
  let tasks ← Json.required fields "tasks" (Json.list? Task.ofJson?)
  return { title, briefing, runsInBackground, resources, tasks }

end Quest

end Questbook
