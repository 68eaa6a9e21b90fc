/-
Questbook.Directive.Read — reading the directives of a source.

The grammar has three nested lists: directives, the entries of a resource
table or the blocks of a task table, and the commands of a block. Reading a
list gives the items it found and how it ended, either at a place where no
item begins or with an error (`Run`). The items found before an error are kept,
because the log is told of them.

No list reads on without progress: each item takes at least one token
(`length_command?_lt` and its companions), and that is why the lists end.
-/
import Questbook.Directive
import Questbook.Reader.Take

namespace Questbook

open Text

/-- The items that a list consists of, and where it ended or what went wrong
behind them. -/
structure Run (α : Type) where
  items : List α
  ending : Except ParseError Reader

namespace Reader

/-- What was read, with the place behind it; a failure has no place. -/
def onward {α : Type} (read : Except ParseError α × Reader) : Except ParseError (α × Reader) :=
  read.1.map fun a => (a, read.2)

theorem onward_eq_ok {α : Type} {read : Except ParseError α × Reader} {a : α} {last : Reader}
    (h : onward read = .ok (a, last)) : read.1 = .ok a ∧ read.2 = last := by
  cases hr : read.1 <;> simp_all [onward, Except.map]

theorem length_onward_take_le {α : Type} {expected : String} {accept : Token → Option α}
    {r last : Reader} {a : α} (h : onward (r.take expected accept) = .ok (a, last)) :
    last.rest.length ≤ r.rest.length := by
  obtain ⟨-, rfl⟩ := onward_eq_ok h
  exact r.length_take_le expected accept

theorem length_onward_take_lt {α : Type} {expected : String} {accept : Token → Option α}
    {r last : Reader} {a : α} (haccept : ∀ offset, accept ⟨.endOfFile, offset⟩ = none)
    (h : onward (r.take expected accept) = .ok (a, last)) :
    last.rest.length < r.rest.length := by
  obtain ⟨ha, rfl⟩ := onward_eq_ok h
  have hle := r.length_skipBreaks_le
  have hne : r.skipBreaks.next.1.lexeme ≠ .endOfFile := by
    intro he
    have := haccept r.skipBreaks.next.1.offset
    rw [← he] at this
    simp [take, this] at ha
  have hlt := length_next_lt hne
  have : (r.take expected accept).2 = r.skipBreaks.next.2 := by
    unfold take
    split
    split <;> simp_all
  rw [this]
  omega

/-- Reads items with `item` as long as it finds one. -/
def list {α : Type} (item : Reader → Except ParseError (Option (α × Reader)))
    (shorter : ∀ {r a last}, item r = .ok (some (a, last)) → last.rest.length < r.rest.length)
    (r : Reader) : Run α :=
  match _ : item r with
  | .error e => ⟨[], .error e⟩
  | .ok none => ⟨[], .ok r⟩
  | .ok (some (a, last)) =>
    let others := last.list item shorter
    ⟨a :: others.items, others.ending⟩
termination_by r.rest.length
decreasing_by exact shorter ‹_›

/-! ## 1. Commands -/

/-- The sort of block that a keyword opens: a task or an event. -/
def blockKind? (keyword : String) : Option Bool :=
  match fold keyword with
  | "task" => some false
  | "event" => some true
  | _ => none

/-- The command that stands next, unless a block or something that is no
identifier does. The name is folded; the arguments are the words up to the end
of the line. -/
def command? (r : Reader) : Option (Command × Reader) :=
  match r.next.1.lexeme with
  | .identifier name =>
    if (blockKind? name).isSome then none
    else
      let (arguments, last) := r.next.2.words
      some (⟨fold name, arguments⟩, last.skipBreaks)
  | _ => none

theorem length_command?_lt {r last : Reader} {c : Command} (h : r.command? = some (c, last)) :
    last.rest.length < r.rest.length := by
  unfold command? at h
  split at h
  · next name hn =>
    split at h
    · cases h
    · have hlt := length_next_lt (r := r) (by simp [hn])
      have hw := r.next.2.length_words_le
      have hs := r.next.2.words.2.length_skipBreaks_le
      injection h with h
      injection h with _ h
      subst h
      omega
  · cases h

/-- The commands from here on. -/
def commands (r : Reader) : List Command × Reader :=
  match _ : r.command? with
  | some (command, last) =>
    let (others, last) := last.commands
    (command :: others, last)
  | none => ([], r)
termination_by r.rest.length
decreasing_by exact length_command?_lt ‹_›

theorem length_commands_le (r : Reader) : r.commands.2.rest.length ≤ r.rest.length := by
  fun_induction commands r with
  | case1 r command last h others last' heq ih =>
    rw [heq] at ih
    exact Nat.le_trans ih (Nat.le_of_lt (length_command?_lt h))
  | case2 r h => exact Nat.le_refl _

/-! ## 2. Blocks of the task table -/

/-- The block that opens with this keyword: its name, a `:` and its commands. -/
def block (isEvent : Bool) (r : Reader) : Except ParseError (Task × Reader) := do
  let (name, r) ← onward r.identifier
  let (_, r) ← onward (r.expect scope)
  let (commands, last) := r.skipBreaks.commands
  return (⟨name.text, commands, isEvent⟩, last)

/-- The block that stands next, if an identifier does. -/
def block? (r : Reader) : Except ParseError (Option (Task × Reader)) :=
  match r.next.1.lexeme with
  | .identifier keyword =>
    match blockKind? keyword with
    | some isEvent => (r.next.2.block isEvent).map some
    | none => .error ⟨.unknownTaskKeyword keyword, r.next.1.offset⟩
  | _ => .ok none

theorem length_block_le {isEvent : Bool} {r last : Reader} {t : Task}
    (h : r.block isEvent = .ok (t, last)) : last.rest.length ≤ r.rest.length := by
  unfold block at h
  cases hname : onward r.identifier with
  | error e => simp [hname, bind, Except.bind] at h
  | ok name =>
    obtain ⟨name, r₁⟩ := name
    have h₁ := length_onward_take_le hname
    cases hscope : onward (r₁.expect scope) with
    | error e => simp [hname, hscope, bind, Except.bind] at h
    | ok u =>
      obtain ⟨u, r₂⟩ := u
      have h₂ := length_onward_take_le hscope
      have h₃ := r₂.length_skipBreaks_le
      have h₄ := r₂.skipBreaks.length_commands_le
      simp [hname, hscope, bind, Except.bind, pure, Except.pure] at h
      rw [← h.2]
      omega

theorem length_block?_lt {r last : Reader} {t : Task} (h : r.block? = .ok (some (t, last))) :
    last.rest.length < r.rest.length := by
  unfold block? at h
  split at h
  · next keyword hk =>
    have hlt := length_next_lt (r := r) (by simp [hk])
    split at h
    · next isEvent _ =>
      cases hb : r.next.2.block isEvent with
      | error e => simp [hb, Except.map] at h
      | ok b =>
        simp [hb, Except.map] at h
        subst h
        have := length_block_le hb
        omega
    · cases h
  · cases h

/-- The blocks from here on. -/
def blocks : Reader → Run Task :=
  list block? length_block?_lt

/-! ## 3. Entries of the resource table -/

/-- The entry of a resource of this kind: a `:`, its number and its content. -/
def resource (kind : ResourceKind) (r : Reader) :
    Except ParseError ((Int64 × Resource) × Reader) := do
  let (_, r) ← onward (r.expect scope)
  let (id, r) ← onward r.number
  let (content, last) := r.textBlock
  return ((id, ⟨kind, content⟩), last.skipBreaks)

/-- The entry that stands next, if the word for a kind of resource does. -/
def resource? (r : Reader) : Except ParseError (Option ((Int64 × Resource) × Reader)) :=
  match r.next.1.lexeme with
  | .identifier keyword =>
    match ResourceKind.ofKeyword? keyword with
    | some kind => (r.next.2.resource kind).map some
    | none => .ok none
  | _ => .ok none

theorem length_resource_le {kind : ResourceKind} {r last : Reader} {e : Int64 × Resource}
    (h : r.resource kind = .ok (e, last)) : last.rest.length ≤ r.rest.length := by
  unfold resource at h
  cases hscope : onward (r.expect scope) with
  | error e => simp [hscope, bind, Except.bind] at h
  | ok u =>
    obtain ⟨u, r₁⟩ := u
    have h₁ := length_onward_take_le hscope
    cases hid : onward r₁.number with
    | error e => simp [hscope, hid, bind, Except.bind] at h
    | ok id =>
      obtain ⟨id, r₂⟩ := id
      have h₂ := length_onward_take_le hid
      have h₃ := r₂.length_textBlock_le
      have h₄ := r₂.textBlock.2.length_skipBreaks_le
      simp [hscope, hid, bind, Except.bind, pure, Except.pure] at h
      rw [← h.2]
      omega

theorem length_resource?_lt {r last : Reader} {e : Int64 × Resource}
    (h : r.resource? = .ok (some (e, last))) : last.rest.length < r.rest.length := by
  unfold resource? at h
  split at h
  · next keyword hk =>
    have hlt := length_next_lt (r := r) (by simp [hk])
    split at h
    · next kind _ =>
      cases hb : r.next.2.resource kind with
      | error e => simp [hb, Except.map] at h
      | ok b =>
        simp [hb, Except.map] at h
        subst h
        have := length_resource_le hb
        omega
    · cases h
  · cases h

/-- The entries from here on. -/
def resources : Reader → Run (Int64 × Resource) :=
  list resource? length_resource?_lt

theorem length_list_le {α : Type} {item : Reader → Except ParseError (Option (α × Reader))}
    {shorter : ∀ {r a last}, item r = .ok (some (a, last)) → last.rest.length < r.rest.length}
    {r last : Reader} (h : (r.list item shorter).ending = .ok last) :
    last.rest.length ≤ r.rest.length := by
  fun_induction list item shorter r with
  | case1 r e he => cases h
  | case2 r he =>
    injection h with h
    subst h
    exact Nat.le_refl _
  | case3 r a next he others ih =>
    exact Nat.le_trans (ih h) (Nat.le_of_lt (shorter he))

/-! ## 4. Directives -/

/-- The directive that this heading and a `:` open. -/
def body (heading : Identifier) (r : Reader) : Run Directive :=
  match fold heading.text with
  | "title" =>
    let (text, last) := r.textLine
    ⟨[.title text], .ok last⟩
  | "briefing" =>
    let (text, last) := r.textBlock
    ⟨[.briefing text], .ok last⟩
  | "qrc" =>
    let run := r.skipBreaks.resources
    ⟨[.resources run.items], run.ending⟩
  | "qst" =>
    let (opening, r) := r.skipBreaks.commands
    let run := r.blocks
    ⟨[.stages opening run.items], run.ending⟩
  | _ => ⟨[], .error ⟨.unknownDirective heading.text, heading.offset⟩⟩

/-- The directive that stands next. A table that breaks off with an error is
kept as far as it got. -/
def directive (r : Reader) : Run Directive :=
  match onward r.identifier with
  | .error e => ⟨[], .error e⟩
  | .ok (word, r) =>
    if word.text.toList.head? = some '+' then ⟨[.flag word.text word.offset], .ok r⟩
    else
      match onward (r.expect scope) with
      | .error e => ⟨[], .error e⟩
      | .ok (_, r) => r.body word

theorem length_body_le {heading : Identifier} {r last : Reader}
    (h : (r.body heading).ending = .ok last) : last.rest.length ≤ r.rest.length := by
  unfold body at h
  split at h
  · injection h with h
    subst h
    exact r.length_textLine_le
  · injection h with h
    subst h
    exact r.length_textBlock_le
  · exact Nat.le_trans (length_list_le h) r.length_skipBreaks_le
  · exact Nat.le_trans (length_list_le h)
      (Nat.le_trans r.skipBreaks.length_commands_le r.length_skipBreaks_le)
  · cases h

theorem length_directive_lt {r last : Reader} (h : r.directive.ending = .ok last) :
    last.rest.length < r.rest.length := by
  unfold directive at h
  cases hword : onward r.identifier with
  | error e => simp [hword] at h
  | ok word =>
    obtain ⟨word, r₁⟩ := word
    have hlt := length_onward_take_lt (fun _ => rfl) hword
    simp only [hword] at h
    split at h
    · injection h with h
      subst h
      exact hlt
    · cases hscope : onward (r₁.expect scope) with
      | error e => simp [hscope] at h
      | ok u =>
        obtain ⟨u, r₂⟩ := u
        simp only [hscope] at h
        have h₁ := length_onward_take_le hscope
        have h₂ := length_body_le h
        omega

/-- The directives from here to the end of the file. -/
def directives (r : Reader) : Run Directive :=
  if r.skipBreaks.atEnd then ⟨[], .ok r.skipBreaks⟩
  else
    match _ : r.skipBreaks.directive.ending with
    | .error e => ⟨r.skipBreaks.directive.items, .error e⟩
    | .ok last =>
      let others := last.directives
      ⟨r.skipBreaks.directive.items ++ others.items, others.ending⟩
termination_by r.rest.length
decreasing_by exact Nat.lt_of_lt_of_le (length_directive_lt ‹_›) r.length_skipBreaks_le

end Reader

end Questbook
