/-
Questbook.Proofs.Quest.Json — a quest comes back from its JSON value.

Others edit what was written: they leave out a field that has its default, and
they put in fields of their own. A value may be edited at three levels at once,
in the quest, in its resources and tasks, and in the commands of the tasks.
`Json.Varies` says what an editor may do to one struct, given the fields that
its reader knows (`Struct`) and what may be done to the values of the fields;
`Quest.Varies` puts the levels together.

All readers look a known field up by its name. So one lemma is enough about the
edits of a list of fields (`FieldsVary.lookup`): a known field is found with an
edited value, or it is missing and had its default. The theorem about each
struct follows from it by one line for each of its fields.
-/
import Mathlib.Data.List.Forall2
import Questbook.Proofs.Text.Numeral
import Questbook.Quest.Json

namespace Questbook

open Text

/-! ## 1. Edits -/

/-- The names of the fields that a reader knows, each with the value that it
stands for when it is missing; `none` stands for a field that has to be there. -/
abbrev Struct := List (String × Option Json)

/-- One list of fields is another with known fields left out that have their
default, with fields of unknown names put in anywhere, and with the values that
are kept edited as `vary` allows. -/
inductive FieldsVary (struct : Struct) (vary : String → Json → Json → Prop) :
    List (String × Json) → List (String × Json) → Prop where
  | nil : FieldsVary struct vary [] []
  | keep {name : String} {value value' : Json} {fields fields' : List (String × Json)}
      (hvalue : vary name value value') (h : FieldsVary struct vary fields fields') :
      FieldsVary struct vary ((name, value) :: fields) ((name, value') :: fields')
  | leaveOut {name : String} {value : Json} {fields fields' : List (String × Json)}
      (hdefault : (name, some value) ∈ struct) (h : FieldsVary struct vary fields fields') :
      FieldsVary struct vary ((name, value) :: fields) fields'
  | putIn {name : String} {value : Json} {fields fields' : List (String × Json)}
      (hunknown : name ∉ struct.map (·.1)) (h : FieldsVary struct vary fields fields') :
      FieldsVary struct vary fields ((name, value) :: fields')

namespace Json

/-- Edits of a struct. -/
inductive Varies (struct : Struct) (vary : String → Json → Json → Prop) : Json → Json → Prop where
  | object {fields fields' : List (String × Json)} (h : FieldsVary struct vary fields fields') :
      Varies struct vary (.object fields) (.object fields')

/-- Edits of the items of an array. -/
inductive ItemsVary (vary : Json → Json → Prop) : Json → Json → Prop where
  | array {items items' : List Json} (h : List.Forall₂ vary items items') :
      ItemsVary vary (.array items) (.array items')

/-- Edits of the values of a map. The keys of a map are data, so none is put in
and none is left out. -/
inductive EntriesVary (vary : Json → Json → Prop) : Json → Json → Prop where
  | object {fields fields' : List (String × Json)}
      (h : List.Forall₂ (fun e e' => e.1 = e'.1 ∧ vary e.2 e'.2) fields fields') :
      EntriesVary vary (.object fields) (.object fields')

end Json

/-- The fields of a resource. -/
@[simp] def Resource.struct : Struct := [("kind", none), ("content", none)]

/-- The fields of a command. -/
@[simp] def Command.struct : Struct := [("name", none), ("arguments", some (.array []))]

/-- The fields of a task. -/
@[simp] def Task.struct : Struct :=
  [("name", none), ("commands", some (.array [])), ("is_event", some (.bool false))]

/-- The fields of a quest. -/
@[simp] def Quest.struct : Struct := [
  ("title", some (.string "")), ("briefing", some (.string "")),
  ("runs_in_background", some (.bool false)), ("resources", some (.object [])), ("tasks", none)]

/-- Edits of a resource. -/
def Resource.Varies : Json → Json → Prop :=
  Json.Varies Resource.struct fun _ => Eq

/-- Edits of a command. -/
def Command.Varies : Json → Json → Prop :=
  Json.Varies Command.struct fun _ => Eq

/-- Edits of a task and its commands. -/
def Task.Varies : Json → Json → Prop :=
  Json.Varies Task.struct fun name =>
    if name = "commands" then Json.ItemsVary Command.Varies else Eq

/-- Edits of a quest, its resources and its tasks. -/
def Quest.Varies : Json → Json → Prop :=
  Json.Varies Quest.struct fun name =>
    if name = "resources" then Json.EntriesVary Resource.Varies
    else if name = "tasks" then Json.ItemsVary Task.Varies
    else Eq

/-! ## 2. Fields found by name -/

namespace FieldsVary

variable {struct : Struct} {vary : String → Json → Json → Prop}
  {fields fields' : List (String × Json)} {name : String}

/-- A field that the reader does not know is not found in place of one it knows. -/
theorem lookup_putIn {name' : String} (hknown : name ∈ struct.map (·.1))
    (hunknown : name' ∉ struct.map (·.1)) (value : Json) (fields : List (String × Json)) :
    ((name', value) :: fields).lookup name = fields.lookup name := by
  have hne : (name == name') = false := by
    rw [beq_eq_false_iff_ne]
    rintro rfl
    exact hunknown hknown
  rw [List.lookup_cons, hne]

theorem lookup_eq_none (h : FieldsVary struct vary fields fields')
    (hknown : name ∈ struct.map (·.1)) (hnone : fields.lookup name = none) :
    fields'.lookup name = none := by
  induction h with
  | nil => rfl
  | @keep name' _ _ _ _ _ _ ih =>
    rw [List.lookup_cons] at hnone ⊢
    cases hname : name == name' with
    | true => simp [hname] at hnone
    | false => exact ih (by simpa [hname] using hnone)
  | @leaveOut name' _ _ _ _ _ ih =>
    rw [List.lookup_cons] at hnone
    cases hname : name == name' with
    | true => simp [hname] at hnone
    | false => exact ih (by simpa [hname] using hnone)
  | putIn hunknown _ ih => rw [lookup_putIn hknown hunknown, ih hnone]

/-- What became of a known field: its value was edited, or it had its default and
was left out. -/
theorem lookup (h : FieldsVary struct vary fields fields') (hnodup : (fields.map (·.1)).Nodup)
    (hknown : name ∈ struct.map (·.1)) {value : Json} (hvalue : fields.lookup name = some value) :
    (∃ value', fields'.lookup name = some value' ∧ vary name value value') ∨
      (fields'.lookup name = none ∧ (name, some value) ∈ struct) := by
  induction h with
  | nil => cases hvalue
  | @keep name' _ value' _ _ hvary _ ih =>
    rw [List.lookup_cons] at hvalue ⊢
    cases hname : name == name' with
    | true =>
      obtain rfl := eq_of_beq hname
      rw [hname] at hvalue
      cases hvalue
      exact .inl ⟨value', rfl, hvary⟩
    | false =>
      rw [hname] at hvalue
      exact ih (List.nodup_cons.1 hnodup).2 hvalue
  | @leaveOut name' _ fields fields' hdefault h ih =>
    rw [List.lookup_cons] at hvalue
    cases hname : name == name' with
    | true =>
      obtain rfl := eq_of_beq hname
      rw [hname] at hvalue
      cases hvalue
      -- no second field of the name is left that could be found in its place
      have hnone : fields.lookup name = none := by
        refine List.lookup_eq_none_iff.2 fun e he => ?_
        rw [bne_iff_ne]
        rintro rfl
        exact (List.nodup_cons.1 hnodup).1 (List.mem_map.2 ⟨e, he, rfl⟩)
      exact .inr ⟨h.lookup_eq_none hknown hnone, hdefault⟩
    | false =>
      rw [hname] at hvalue
      exact ih (List.nodup_cons.1 hnodup).2 hvalue
  | putIn hunknown _ ih =>
    rw [lookup_putIn hknown hunknown]
    exact ih hnodup hvalue

variable {α : Type} {read : Json → Option α} {a : α} {value : Json}

/-- A field that has to be there reads as before. -/
theorem required (h : FieldsVary struct vary fields fields')
    (hvalue : fields.lookup name = some value)
    (hread : ∀ value', vary name value value' → read value' = some a)
    (hknown : name ∈ struct.map (·.1) := by simp)
    (hrequired : (name, some value) ∉ struct := by simp)
    (hnodup : (fields.map (·.1)).Nodup := by simp) :
    Json.required fields' name read = some a := by
  rcases h.lookup hnodup hknown hvalue with ⟨value', hvalue', hvary⟩ | ⟨-, hdefault⟩
  · rw [Json.required, hvalue', Option.bind_some, hread value' hvary]
  · exact absurd hdefault hrequired

/-- A field that may be left out reads as before, if it is left out only when it
has the default of its reader. -/
theorem optional (h : FieldsVary struct vary fields fields') {default : α}
    (hvalue : fields.lookup name = some value)
    (hread : ∀ value', vary name value value' → read value' = some a)
    (hdefault : (name, some value) ∈ struct → default = a)
    (hknown : name ∈ struct.map (·.1) := by simp)
    (hnodup : (fields.map (·.1)).Nodup := by simp) :
    Json.optional fields' name default read = some a := by
  rcases h.lookup hnodup hknown hvalue with ⟨value', hvalue', hvary⟩ | ⟨hnone, hmem⟩
  · rw [Json.optional, hvalue']
    exact hread value' hvary
  · rw [Json.optional, hnone, hdefault hmem]

end FieldsVary

/-- Edited items read as before, if each of them does. -/
theorem Json.list?_of_itemsVary {α : Type} {write : α → Json} {read : Json → Option α}
    {vary : Json → Json → Prop} (hread : ∀ {a value}, vary (write a) value → read value = some a)
    {as : List α} {value : Json} (h : ItemsVary vary (.array (as.map write)) value) :
    Json.list? read value = some as := by
  cases h with
  | @array _ items' h =>
    rw [Json.list?]
    induction as generalizing items' with
    | nil =>
      obtain rfl := List.forall₂_nil_left_iff.1 h
      rfl
    | cons a as ih =>
      obtain ⟨item, items, hitem, hitems, rfl⟩ := List.forall₂_cons_left_iff.1 h
      rw [List.mapM_cons, hread hitem, ih hitems]
      rfl

/-! ## 3. Reading what was written and edited -/

theorem Text.Numeral.readCanonical?_render (n : Int64) :
    Numeral.readCanonical? (Numeral.render n) = some n := by
  simp [Numeral.readCanonical?, Numeral.read?_render]

theorem ResourceKind.ofName?_name (kind : ResourceKind) : ofName? kind.name = some kind := by
  cases kind <;> rfl

theorem Resource.ofJson?_of_varies {r : Resource} {value : Json}
    (h : Resource.Varies r.toJson value) : Resource.ofJson? value = some r := by
  cases h with
  | @object _ fields h =>
    have hkind : Json.required fields "kind" (fun v => v.string?.bind ResourceKind.ofName?) =
        some r.kind :=
      h.required rfl (by rintro _ rfl; exact ResourceKind.ofName?_name r.kind)
    have hcontent : Json.required fields "content" Json.string? = some r.content :=
      h.required rfl (by rintro _ rfl; rfl)
    simp [ofJson?, Json.fields?, hkind, hcontent]

theorem Command.ofJson?_of_varies {c : Command} {value : Json}
    (h : Command.Varies c.toJson value) : Command.ofJson? value = some c := by
  cases h with
  | @object _ fields h =>
    have hname : Json.required fields "name" Json.string? = some c.name :=
      h.required rfl (by rintro _ rfl; rfl)
    have harguments : Json.optional fields "arguments" [] (Json.list? Json.string?) =
        some c.arguments := by
      refine h.optional rfl ?_ (by simp)
      rintro _ rfl
      have hsame : Json.ItemsVary Eq (.array (c.arguments.map .string))
          (.array (c.arguments.map .string)) := .array (List.forall₂_eq_eq_eq ▸ rfl)
      exact Json.list?_of_itemsVary (by rintro a _ rfl; rfl) hsame
    simp [ofJson?, Json.fields?, hname, harguments]

theorem Task.ofJson?_of_varies {t : Task} {value : Json}
    (h : Task.Varies t.toJson value) : Task.ofJson? value = some t := by
  cases h with
  | @object _ fields h =>
    have hname : Json.required fields "name" Json.string? = some t.name :=
      h.required rfl (by rintro _ rfl; rfl)
    have hcommands : Json.optional fields "commands" [] (Json.list? Command.ofJson?) =
        some t.commands := by
      refine h.optional rfl ?_ (by simp)
      intro value' hvary
      exact Json.list?_of_itemsVary Command.ofJson?_of_varies hvary
    have hevent : Json.optional fields "is_event" false Json.bool? = some t.isEvent :=
      h.optional rfl (by rintro _ rfl; rfl) (by simp)
    simp [ofJson?, Json.fields?, hname, hcommands, hevent]

/-- Edited entries read as the table they were written of. -/
theorem Quest.resourcesOfJson?_of_varies {resources : Table Int64 Resource} {value : Json}
    (h : Json.EntriesVary Resource.Varies
      (.object (resources.entries.map fun (id, r) => (Numeral.render id, r.toJson))) value) :
    resourcesOfJson? value = some resources := by
  cases h with
  | @object _ fields h =>
    have hentries : fields.mapM Resource.ofField? = some resources.entries := by
      generalize resources.entries = entries at h
      induction entries generalizing fields with
      | nil =>
        obtain rfl := List.forall₂_nil_left_iff.1 h
        rfl
      | cons e entries ih =>
        obtain ⟨field, fields, ⟨hid, hvary⟩, hfields, rfl⟩ := List.forall₂_cons_left_iff.1 h
        have hfield : Resource.ofField? field = some e := by
          rw [Resource.ofField?, ← hid, Numeral.readCanonical?_render,
            Resource.ofJson?_of_varies hvary]
          rfl
        rw [List.mapM_cons, hfield, ih hfields]
        rfl
    simp [resourcesOfJson?, Json.fields?, hentries, Table.ofList_entries]

theorem Quest.ofJson?_of_varies {q : Quest} {value : Json} (h : Quest.Varies q.toJson value) :
    Quest.ofJson? value = some q := by
  cases h with
  | @object _ fields h =>
    have htitle : Json.optional fields "title" "" Json.string? = some q.title :=
      h.optional rfl (by rintro _ rfl; rfl) (by simp)
    have hbriefing : Json.optional fields "briefing" "" Json.string? = some q.briefing :=
      h.optional rfl (by rintro _ rfl; rfl) (by simp)
    have hbackground : Json.optional fields "runs_in_background" false Json.bool? =
        some q.runsInBackground :=
      h.optional rfl (by rintro _ rfl; rfl) (by simp)
    have hresources : Json.optional fields "resources" ∅ resourcesOfJson? =
        some q.resources := by
      refine h.optional rfl (fun _ => resourcesOfJson?_of_varies) ?_
      simp
      exact fun hnil => (Table.eq_of_entries_eq hnil).symm
    have htasks : Json.required fields "tasks" (Json.list? Task.ofJson?) = some q.tasks :=
      h.required rfl fun _ hvary => Json.list?_of_itemsVary Task.ofJson?_of_varies hvary
    simp [ofJson?, Json.fields?, htitle, hbriefing, hbackground, hresources, htasks]

/-! ## 4. Nothing edited -/

theorem FieldsVary.refl {struct : Struct} {vary : String → Json → Json → Prop}
    {fields : List (String × Json)} (h : ∀ e ∈ fields, vary e.1 e.2 e.2) :
    FieldsVary struct vary fields fields := by
  induction fields with
  | nil => exact .nil
  | cons e fields ih =>
    obtain ⟨he, hfields⟩ := List.forall_mem_cons.1 h
    exact .keep he (ih hfields)

theorem Resource.varies_toJson (r : Resource) : Resource.Varies r.toJson r.toJson :=
  .object (.refl fun _ _ => rfl)

theorem Command.varies_toJson (c : Command) : Command.Varies c.toJson c.toJson :=
  .object (.refl fun _ _ => rfl)

theorem Task.varies_toJson (t : Task) : Task.Varies t.toJson t.toJson := by
  refine .object (.refl ?_)
  simp only [List.forall_mem_cons, List.not_mem_nil, false_imp_iff, implies_true, and_true]
  refine ⟨rfl, .array ?_, rfl⟩
  exact List.forall₂_same.2 fun v hv => by
    obtain ⟨c, -, rfl⟩ := List.mem_map.1 hv
    exact c.varies_toJson

theorem Quest.varies_toJson (q : Quest) : Quest.Varies q.toJson q.toJson := by
  refine .object (.refl ?_)
  simp only [List.forall_mem_cons, List.not_mem_nil, false_imp_iff, implies_true, and_true]
  refine ⟨rfl, rfl, rfl, .object ?_, .array ?_⟩
  · refine List.forall₂_same.2 fun e he => ⟨rfl, ?_⟩
    obtain ⟨⟨id, r⟩, -, rfl⟩ := List.mem_map.1 he
    exact r.varies_toJson
  · refine List.forall₂_same.2 fun v hv => ?_
    obtain ⟨t, -, rfl⟩ := List.mem_map.1 hv
    exact t.varies_toJson

theorem Quest.ofJson?_toJson (q : Quest) : Quest.ofJson? q.toJson = some q :=
  ofJson?_of_varies q.varies_toJson

/-! ## 5. Main statement -/

/-- **What is written as JSON comes back.** Reading the value that a quest is
written as gives the quest. So does reading an edited value, with fields left out
that have their default and with unknown fields put in, at any level. And
whatever value is read, writing the quest and reading it once more changes
nothing. -/
theorem Quest.json_round_trip (q : Quest) (value : Json) :
    ofJson? q.toJson = some q ∧
      (Varies q.toJson value → ofJson? value = some q) ∧
      (ofJson? value).bind (fun read => ofJson? read.toJson) = ofJson? value := by
  refine ⟨ofJson?_toJson q, ofJson?_of_varies, ?_⟩
  cases ofJson? value with
  | none => rfl
  | some read => exact read.ofJson?_toJson

/-- A quest with the least number there is for a resource, and with no main line. -/
def Quest.vigil : Quest where
  title := "Vigil"
  resources := ⟨[(Int64.minValue, ⟨.sound, "bell"⟩)], by decide⟩
  tasks := [⟨"watch", [⟨"ring", []⟩], false⟩]

/-- The quest as JSON, edited at each level. -/
def Quest.vigilEdited : Json := .object [
  ("author", .null),
  ("title", .string "Vigil"),
  ("resources", .object [("-9223372036854775808", .object [
    ("volume", .number "3"), ("kind", .string "sound"), ("content", .string "bell")])]),
  ("tasks", .array [.object [
    ("name", .string "watch"),
    ("commands", .array [.object [("name", .string "ring"), ("tempo", .bool true)]])]])]

theorem Quest.json_round_trip_vigil :
    Varies vigil.toJson vigilEdited ∧ ofJson? vigilEdited = some vigil := by
  have hbell : Resource.Varies (Resource.toJson ⟨.sound, "bell"⟩) (.object [
      ("volume", .number "3"), ("kind", .string "sound"), ("content", .string "bell")]) :=
    .object (.putIn (by simp) (.keep rfl (.keep rfl .nil)))
  have hring : Command.Varies (Command.toJson ⟨"ring", []⟩)
      (.object [("name", .string "ring"), ("tempo", .bool true)]) :=
    .object (.keep rfl (.leaveOut (by simp) (.putIn (by simp) .nil)))
  have hwatch : Task.Varies (Task.toJson ⟨"watch", [⟨"ring", []⟩], false⟩) (.object [
      ("name", .string "watch"),
      ("commands", .array [.object [("name", .string "ring"), ("tempo", .bool true)]])]) :=
    .object (.keep rfl (.keep (.array (.cons hring .nil)) (.leaveOut (by simp) .nil)))
  have hvigil : Varies vigil.toJson vigilEdited := by
    refine .object (.putIn (by simp) (.keep rfl (.leaveOut (by simp [vigil])
      (.leaveOut (by simp [vigil])
        (.keep (.object (.cons ⟨?_, hbell⟩ .nil)) (.keep (.array (.cons hwatch .nil)) .nil))))))
    decide +kernel
  exact ⟨hvigil, (json_round_trip vigil vigilEdited).2.1 hvigil⟩

end Questbook
