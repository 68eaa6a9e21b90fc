/-
Questbook.Proofs.LetterCase.Quest — quests that differ in letter case only.

`OutcomeRespelled` says of two quests, or of two errors, that they are the same but for
the case of ASCII letters in what the author wrote. What the program keeps of its own
is the very same: flags, numbers, kinds, the names of the commands, what an error had
expected, and where it was found.

Such quests have one small form (`Quest.toSmall`), and from the same small form it
follows that they are such quests (`Quest.respelled_of_toSmall_eq`). So there is no need
to look at two quests at a time: it is enough to know what making small does to one.
-/
import Mathlib.Data.List.Forall2
import Questbook.Proofs.LetterCase.Token
import Questbook.Proofs.Text.Numeral

namespace Questbook

open Text

/-! ## 1. Respelled quests and errors -/

/-- The same command with respelled arguments. -/
structure Command.Respelled (c d : Command) : Prop where
  name : c.name = d.name
  arguments : List.Forall₂ (fun a b => sameFold a b = true) c.arguments d.arguments

structure Task.Respelled (t u : Task) : Prop where
  name : sameFold t.name u.name = true
  commands : List.Forall₂ Command.Respelled t.commands u.commands
  isEvent : t.isEvent = u.isEvent

structure Resource.Respelled (a b : Resource) : Prop where
  kind : a.kind = b.kind
  content : sameFold a.content b.content = true

/-- Quests with the same tasks, commands and resources, respelled. -/
structure Quest.Respelled (p q : Quest) : Prop where
  title : sameFold p.title q.title = true
  briefing : sameFold p.briefing q.briefing = true
  runsInBackground : p.runsInBackground = q.runsInBackground
  resources : List.Forall₂ (fun a b => a.1 = b.1 ∧ a.2.Respelled b.2)
    p.resources.entries q.resources.entries
  tasks : List.Forall₂ Task.Respelled p.tasks q.tasks

/-- The same fault, found in a respelled text. -/
inductive Fault.Respelled : Fault → Fault → Prop where
  | unexpectedToken (expected : String) {found found' : String}
      (h : sameFold found found' = true) :
      Respelled (.unexpectedToken expected found) (.unexpectedToken expected found')
  | unknownDirective {text text' : String} (h : sameFold text text' = true) :
      Respelled (.unknownDirective text) (.unknownDirective text')
  | unknownTaskKeyword {text text' : String} (h : sameFold text text' = true) :
      Respelled (.unknownTaskKeyword text) (.unknownTaskKeyword text')

structure ParseError.Respelled (e f : ParseError) : Prop where
  fault : e.fault.Respelled f.fault
  offset : e.offset = f.offset

/-- Two respelled quests, or two respelled errors. -/
inductive OutcomeRespelled : Except ParseError Quest → Except ParseError Quest → Prop where
  | ok {p q : Quest} (h : p.Respelled q) : OutcomeRespelled (.ok p) (.ok q)
  | error {e f : ParseError} (h : e.Respelled f) : OutcomeRespelled (.error e) (.error f)

/-! ## 2. Small texts -/

namespace Text

theorem fold_append (s t : String) : fold (s ++ t) = fold s ++ fold t := by
  simp [fold]

theorem fold_eq_self {s : String} (h : ∀ c ∈ s.toList, c.isUpper = false) : fold s = s := by
  rw [fold, List.map_congr_left fun c hc => toLower_of_not_isUpper (h c hc), List.map_id',
    String.ofList_toList]

/-- A row of newlines has no letters. -/
theorem fold_newlines (n : Nat) :
    fold (.ofList (List.replicate n '\n')) = .ofList (List.replicate n '\n') := by
  refine fold_eq_self fun c hc => ?_
  rw [String.toList_ofList] at hc
  rw [List.eq_of_mem_replicate hc]
  rfl

theorem isUpper_of_isDigit {c : Char} (h : c.isDigit = true) : c.isUpper = false := by
  rw [Bool.eq_false_iff, ne_eq, isUpper_iff]
  rw [isDigit_iff] at h
  omega

theorem fold_repr (n : Nat) : fold n.repr = n.repr := by
  refine fold_eq_self fun c hc => ?_
  rw [Nat.toList_repr] at hc
  exact isUpper_of_isDigit (Numeral.isDigit_of_mem_toDigits hc)

theorem fold_render (n : Int64) : fold (Numeral.render n) = Numeral.render n := by
  refine fold_eq_self fun c hc => ?_
  rcases Numeral.eq_minus_or_isDigit hc with rfl | hdigit
  · rfl
  · exact isUpper_of_isDigit hdigit

end Text

/-! ## 3. Small quests -/

namespace Table

variable {κ μ ν : Type} [Ord κ]

/-- The table with `f` applied to its values. -/
def mapValues (f : μ → ν) (t : Table κ μ) : Table κ ν :=
  ⟨t.entries.map (Prod.map id f), List.pairwise_map.2 t.sorted⟩

theorem map_insertEntry (f : μ → ν) (k : κ) (v : μ) (es : List (κ × μ)) :
    (insertEntry k v es).map (Prod.map id f) = insertEntry k (f v) (es.map (Prod.map id f)) := by
  induction es with
  | nil => rfl
  | cons e es ih =>
    simp only [insertEntry, List.map_cons, Prod.map_fst, id]
    split
    · rfl
    · rfl
    · rw [List.map_cons, ih]
      rfl

theorem mapValues_insert [Std.TransOrd κ] (f : μ → ν) (t : Table κ μ) (k : κ) (v : μ) :
    (t.insert k v).mapValues f = (t.mapValues f).insert k (f v) :=
  eq_of_entries_eq (map_insertEntry f k v t.entries)

theorem mapValues_ofList [Std.TransOrd κ] (f : μ → ν) (es : List (κ × μ)) :
    (ofList es).mapValues f = ofList (es.map (Prod.map id f)) := by
  have hfold (t : Table κ μ) : (es.foldl (fun t e => t.insert e.1 e.2) t).mapValues f =
      (es.map (Prod.map id f)).foldl (fun t e => t.insert e.1 e.2) (t.mapValues f) := by
    induction es generalizing t with
    | nil => rfl
    | cons e es ih => rw [List.foldl_cons, ih, mapValues_insert]; rfl
  exact hfold ∅

end Table

/-- The command with small arguments. Its name is small as it stands. -/
def Command.toSmall (c : Command) : Command :=
  { c with arguments := c.arguments.map Text.fold }

def Task.toSmall (t : Task) : Task :=
  { t with name := Text.fold t.name, commands := t.commands.map Command.toSmall }

theorem Task.toSmall_entryPoint (commands : List Command) :
    (Task.entryPoint commands).toSmall = .entryPoint (commands.map Command.toSmall) := by
  have hname : Text.fold entryPointName = entryPointName := by decide
  rw [toSmall, entryPoint, hname]
  rfl

def Resource.toSmall (r : Resource) : Resource :=
  { r with content := Text.fold r.content }

/-- The entries of a resource table with small contents. -/
abbrev smallEntries (entries : List (Int64 × Resource)) : List (Int64 × Resource) :=
  entries.map (Prod.map id Resource.toSmall)

/-- The quest with all that its author wrote made small. -/
def Quest.toSmall (q : Quest) : Quest where
  title := Text.fold q.title
  briefing := Text.fold q.briefing
  runsInBackground := q.runsInBackground
  resources := q.resources.mapValues Resource.toSmall
  tasks := q.tasks.map Task.toSmall

def Fault.toSmall : Fault → Fault
  | unexpectedToken expected found => unexpectedToken expected (Text.fold found)
  | unknownDirective text => unknownDirective (Text.fold text)
  | unknownTaskKeyword text => unknownTaskKeyword (Text.fold text)

def ParseError.toSmall (e : ParseError) : ParseError :=
  { e with fault := e.fault.toSmall }

/-- What came of a source, made small. -/
def smallOutcome : Except ParseError Quest → Except ParseError Quest
  | .ok q => .ok q.toSmall
  | .error e => .error e.toSmall

/-! ## 4. What has the same small form is respelled -/

theorem forall₂_of_map_eq {α β : Type} {R : α → α → Prop} {f : α → β}
    (hR : ∀ {a b}, f a = f b → R a b) {xs ys : List α} (h : xs.map f = ys.map f) :
    List.Forall₂ R xs ys := by
  rw [← List.forall₂_eq_eq_eq, List.forall₂_map_left_iff, List.forall₂_map_right_iff] at h
  exact h.imp fun _ _ => hR

theorem Command.respelled_of_toSmall_eq {c d : Command} (h : c.toSmall = d.toSmall) :
    c.Respelled d where
  name := (Command.mk.inj h).1
  arguments := forall₂_of_map_eq sameFold_iff.2 (Command.mk.inj h).2

theorem Task.respelled_of_toSmall_eq {t u : Task} (h : t.toSmall = u.toSmall) : t.Respelled u where
  name := sameFold_iff.2 (Task.mk.inj h).1
  commands := forall₂_of_map_eq Command.respelled_of_toSmall_eq (Task.mk.inj h).2.1
  isEvent := (Task.mk.inj h).2.2

theorem Resource.respelled_of_toSmall_eq {a b : Resource} (h : a.toSmall = b.toSmall) :
    a.Respelled b where
  kind := (Resource.mk.inj h).1
  content := sameFold_iff.2 (Resource.mk.inj h).2

/-- Quests with the same small form are the same but for letter case. -/
theorem Quest.respelled_of_toSmall_eq {p q : Quest} (h : p.toSmall = q.toSmall) :
    p.Respelled q := by
  obtain ⟨htitle, hbriefing, hbackground, hresources, htasks⟩ := Quest.mk.inj h
  refine ⟨sameFold_iff.2 htitle, sameFold_iff.2 hbriefing, hbackground, ?_,
    forall₂_of_map_eq Task.respelled_of_toSmall_eq htasks⟩
  refine forall₂_of_map_eq ?_ (Table.mk.inj hresources)
  intro a b hab
  exact ⟨(Prod.mk.inj hab).1, Resource.respelled_of_toSmall_eq (Prod.mk.inj hab).2⟩

theorem Fault.respelled_of_toSmall_eq {e f : Fault} (h : e.toSmall = f.toSmall) :
    e.Respelled f := by
  cases e with
  | unexpectedToken expected found =>
    cases f with
    | unexpectedToken expected' found' =>
      obtain ⟨rfl, hfound⟩ := Fault.unexpectedToken.inj h
      exact .unexpectedToken _ (sameFold_iff.2 hfound)
    | unknownDirective text => cases h
    | unknownTaskKeyword text => cases h
  | unknownDirective text =>
    cases f with
    | unknownDirective text' =>
      exact .unknownDirective (sameFold_iff.2 (Fault.unknownDirective.inj h))
    | unexpectedToken expected found => cases h
    | unknownTaskKeyword text => cases h
  | unknownTaskKeyword text =>
    cases f with
    | unknownTaskKeyword text' =>
      exact .unknownTaskKeyword (sameFold_iff.2 (Fault.unknownTaskKeyword.inj h))
    | unexpectedToken expected found => cases h
    | unknownDirective text => cases h

theorem ParseError.respelled_of_toSmall_eq {e f : ParseError} (h : e.toSmall = f.toSmall) :
    e.Respelled f where
  fault := Fault.respelled_of_toSmall_eq (ParseError.mk.inj h).1
  offset := (ParseError.mk.inj h).2

theorem respelled_of_smallOutcome_eq {x y : Except ParseError Quest}
    (h : smallOutcome x = smallOutcome y) : OutcomeRespelled x y := by
  cases x with
  | ok p =>
    cases y with
    | ok q => exact .ok (Quest.respelled_of_toSmall_eq (Except.ok.inj h))
    | error f => cases h
  | error e =>
    cases y with
    | ok q => cases h
    | error f => exact .error (ParseError.respelled_of_toSmall_eq (Except.error.inj h))

/-! ## 5. Directives -/

namespace Directive

/-- The directive with all that its author wrote made small. -/
def toSmall : Directive → Directive
  | flag text offset => flag (Text.fold text) offset
  | title text => title (Text.fold text)
  | briefing text => briefing (Text.fold text)
  | resources entries => resources (smallEntries entries)
  | stages opening blocks => stages (opening.map Command.toSmall) (blocks.map Task.toSmall)

/-- A small directive does to a small quest what the directive does to the quest. -/
theorem toSmall_applyTo (d : Directive) (q : Quest) :
    (d.applyTo q).toSmall = d.toSmall.applyTo q.toSmall := by
  cases d with
  | flag text offset =>
    have hflag : sameFold (Text.fold text) backgroundFlag = sameFold text backgroundFlag := by
      rw [sameFold, fold_fold, sameFold]
    simp only [applyTo, toSmall, hflag]
    split <;> rfl
  | title text => rfl
  | briefing text => rfl
  | resources entries => simp only [applyTo, toSmall, Quest.toSmall, Table.mapValues_ofList]
  | stages opening blocks =>
    simp only [applyTo, toSmall, Quest.toSmall, List.map_cons, Task.toSmall_entryPoint]

end Directive

end Questbook
