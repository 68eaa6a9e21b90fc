/-
Questbook.Proofs.Reader.Simulation — readers that find the same tokens make the
same quest.

Two sources can differ in every offset and still say the same. To show that they
do, it is enough to relate the readers of the one to the readers of the other so
that related readers find the same lexeme next and are related again behind it
(`Simulation`). No more than that is asked, because nothing above the scanner
looks at the text itself; the lemmas below go through the grammar from the
single token up to the quest and say so at each step.

An error carries an offset. Where two errors have to stand is the other
parameter of a simulation. It is asked of the tokens that an error can point at,
and no error points at a line break: every reader that can fail skips those.
-/
import Questbook.Proofs.Reader.Steps

namespace Questbook

open Text

/-- Both results are values in relation, or both are errors of the same fault at
offsets in relation. -/
def Alike {α β : Type} (place : Nat → Nat → Prop) (value : α → β → Prop) :
    Except ParseError α → Except ParseError β → Prop
  | .ok a, .ok b => value a b
  | .error e, .error f => e.fault = f.fault ∧ place e.offset f.offset
  | _, _ => False

namespace Alike

variable {α β γ δ : Type} {place : Nat → Nat → Prop} {value : α → β → Prop}
  {value' : γ → δ → Prop} {x : Except ParseError α} {y : Except ParseError β}

theorem bind {f : α → Except ParseError γ} {g : β → Except ParseError δ}
    (h : Alike place value x y) (hfg : ∀ a b, value a b → Alike place value' (f a) (g b)) :
    Alike place value' (x >>= f) (y >>= g) := by
  cases x <;> cases y
  · exact h
  · exact h.elim
  · exact h.elim
  · exact hfg _ _ h

theorem map {f : α → γ} {g : β → δ} (h : Alike place value x y)
    (hfg : ∀ a b, value a b → value' (f a) (g b)) : Alike place value' (x.map f) (y.map g) := by
  cases x <;> cases y
  · exact h
  · exact h.elim
  · exact h.elim
  · exact hfg _ _ h

theorem mono {place' : Nat → Nat → Prop} (h : Alike place value x y)
    (hplace : ∀ m n, place m n → place' m n) : Alike place' value x y := by
  cases x <;> cases y
  · exact ⟨h.1, hplace _ _ h.2⟩
  · exact h.elim
  · exact h.elim
  · exact h

end Alike

namespace Reader

/-- Related readers find the same lexeme next and are related behind it. -/
structure Simulation (related : Reader → Reader → Prop) (place : Nat → Nat → Prop) : Prop where
  lexeme_eq {r s : Reader} : related r s → r.next.1.lexeme = s.next.1.lexeme
  place_next {r s : Reader} : related r s →
    (∀ count, r.next.1.lexeme ≠ .lineBreaks count) → place r.next.1.offset s.next.1.offset
  next {r s : Reader} : related r s → related r.next.2 s.next.2
  wide_eq {r s : Reader} : related r s → r.wide = s.wide
  widen {r s : Reader} (wide : Bool) : related r s → related { r with wide } { s with wide }

namespace Simulation

variable {related : Reader → Reader → Prop} {place : Nat → Nat → Prop}
  (sim : Simulation related place) {r s : Reader}

/-- The same was read, and the readers behind it are related. -/
def Pair (related : Reader → Reader → Prop) {α : Type} (x y : α × Reader) : Prop :=
  x.1 = y.1 ∧ related x.2 y.2

include sim

/-! ## 1. Single tokens -/

theorem skipBreaks (h : related r s) : related r.skipBreaks s.skipBreaks := by
  fun_induction Reader.skipBreaks r generalizing s with
  | case1 r count hcount ih =>
    rw [skipBreaks_of_lineBreaks (r := s) (by rw [← sim.lexeme_eq h, hcount])]
    exact ih (sim.next h)
  | case2 r hno =>
    rw [skipBreaks_of_ne_lineBreaks (r := s) fun count => by rw [← sim.lexeme_eq h]; exact hno count]
    exact h

theorem atEnd_eq (h : related r s) : r.atEnd = s.atEnd := by
  rw [atEnd, peek, sim.lexeme_eq h]
  rfl

/-- Behind line breaks, both fail in the same way. -/
theorem unexpected (h : related r s) (expected : String) :
    (r.skipBreaks.next.1.unexpected expected).fault =
        (s.skipBreaks.next.1.unexpected expected).fault ∧
      place (r.skipBreaks.next.1.unexpected expected).offset
        (s.skipBreaks.next.1.unexpected expected).offset := by
  have hskip := sim.skipBreaks h
  refine ⟨?_, sim.place_next hskip r.lexeme_skipBreaks_ne⟩
  simp only [Token.unexpected, sim.lexeme_eq hskip]

theorem identifier (h : related r s) :
    Alike place (fun x y => (x.1.text = y.1.text ∧ place x.1.offset y.1.offset) ∧ related x.2 y.2)
      (onward r.identifier) (onward s.identifier) := by
  have hskip := sim.skipBreaks h
  have hfail := sim.unexpected h "an identifier"
  rw [onward_identifier, onward_identifier, ← sim.lexeme_eq hskip]
  cases r.skipBreaks.next.1.lexeme with
  | identifier text =>
    exact ⟨⟨rfl, sim.place_next hskip r.lexeme_skipBreaks_ne⟩, sim.next hskip⟩
  | _ => exact hfail

theorem number (h : related r s) :
    Alike place (Pair related) (onward r.number) (onward s.number) := by
  have hskip := sim.skipBreaks h
  have hfail := sim.unexpected h "a number"
  rw [onward_number, onward_number, ← sim.lexeme_eq hskip]
  cases r.skipBreaks.next.1.lexeme with
  | integer value => exact ⟨rfl, sim.next hskip⟩
  | _ => exact hfail

theorem expect_scope (h : related r s) :
    Alike place (Pair related) (onward (r.expect scope)) (onward (s.expect scope)) := by
  have hskip := sim.skipBreaks h
  have hfail := sim.unexpected h "':'"
  rw [onward_expect_scope, onward_expect_scope, ← sim.lexeme_eq hskip]
  split
  · exact ⟨rfl, sim.next hskip⟩
  · exact hfail

/-! ## 2. Words and text -/

theorem words (h : related r s) : Pair related r.words s.words := by
  fun_induction Reader.words r generalizing s with
  | case1 r word hword others last heq ih =>
    have hothers := ih (sim.next h)
    rw [heq] at hothers
    rw [words_of_word? (r := s) (by rw [← sim.lexeme_eq h, hword])]
    exact ⟨congrArg (word :: ·) hothers.1, hothers.2⟩
  | case2 r hno =>
    rw [words_of_word?_eq_none (r := s) (by rw [← sim.lexeme_eq h, hno])]
    exact ⟨rfl, h⟩

theorem blockLines (pending : Nat) (h : related r s) :
    Pair related (r.blockLines pending) (s.blockLines pending) := by
  fun_induction Reader.blockLines pending r generalizing s with
  | case1 pending r word hword others last heq ih =>
    have hothers := ih (sim.next h)
    rw [heq] at hothers
    rw [blockLines_of_word? (r := s) (by rw [← sim.lexeme_eq h, hword])]
    exact ⟨congrArg (String.ofList (List.replicate pending '\n') ++ word ++ ·) hothers.1, hothers.2⟩
  | case2 pending r hno hend =>
    rw [blockLines_of_endOfFile (r := s) (by rw [← sim.lexeme_eq h, hend])]
    exact ⟨rfl, h⟩
  | case3 pending r hno hend hblank =>
    rw [blockLines_of_isBlankLine (r := s) (by rw [← sim.lexeme_eq h, hblank])]
    exact ⟨rfl, sim.next h⟩
  | case4 pending r hno hend hblank ih =>
    obtain ⟨count, hbreak, hcount⟩ :
        ∃ count, r.next.1.lexeme = .lineBreaks count ∧ count < 2 := by
      revert hno hend hblank
      cases r.next.1.lexeme <;> simp [Lexeme.word?, Lexeme.isBlankLine]
    rw [blockLines_of_lineBreak (r := s) (by rw [← sim.lexeme_eq h, hbreak]) hcount]
    exact ih (sim.next h)

/-- Reading widely goes back to the same mode. -/
theorem widely {α : Type} {read : Reader → α × Reader}
    (hread : ∀ {r s}, related r s → Pair related (read r) (read s)) (h : related r s) :
    Pair related (r.widely read) (s.widely read) := by
  obtain ⟨heq, hlast⟩ := hread (sim.widen true h)
  refine ⟨heq, ?_⟩
  simp only [Reader.widely, sim.wide_eq h]
  exact sim.widen s.wide hlast

theorem textLine (h : related r s) : Pair related r.textLine s.textLine := by
  refine sim.widely (fun h => ?_) (sim.skipBreaks h)
  obtain ⟨hwords, hlast⟩ := sim.words h
  exact ⟨congrArg String.join hwords, hlast⟩

theorem textBlock (h : related r s) : Pair related r.textBlock s.textBlock :=
  sim.widely (fun h => sim.blockLines 0 h) (sim.skipBreaks h)

/-! ## 3. Lists -/

omit sim in
/-- Lists of related items. -/
theorem list {α : Type} {item : Reader → Except ParseError (Option (α × Reader))}
    {shorter : ∀ {r a last}, item r = .ok (some (a, last)) → last.rest.length < r.rest.length}
    (hitem : ∀ {r s}, related r s → Alike place (Option.Rel (Pair related)) (item r) (item s))
    (h : related r s) :
    (r.list item shorter).items = (s.list item shorter).items ∧
      Alike place related (r.list item shorter).ending (s.list item shorter).ending := by
  fun_induction Reader.list item shorter r generalizing s with
  | case1 r e he =>
    have hs := hitem h
    rw [he] at hs
    cases hf : item s with
    | ok found => rw [hf] at hs; exact hs.elim
    | error f =>
      rw [hf] at hs
      rw [list_of_error hf]
      exact ⟨rfl, hs⟩
  | case2 r he =>
    have hs := hitem h
    rw [he] at hs
    cases hf : item s with
    | error f => rw [hf] at hs; exact hs.elim
    | ok found =>
      rw [hf] at hs
      cases hs
      rw [list_of_none hf]
      exact ⟨rfl, h⟩
  | case3 r a last he others =>
    rename_i ih
    have hs := hitem h
    rw [he] at hs
    cases hf : item s with
    | error f => rw [hf] at hs; exact hs.elim
    | ok found =>
      rw [hf] at hs
      cases hs with
      | @some _ found hpair =>
        obtain ⟨b, last'⟩ := found
        obtain ⟨hab, hlast⟩ := hpair
        obtain ⟨hitems, hending⟩ := ih hlast
        rw [list_of_some hf]
        exact ⟨by rw [hitems, show a = b from hab], hending⟩

theorem command? (h : related r s) : Option.Rel (Pair related) r.command? s.command? := by
  unfold Reader.command?
  rw [← sim.lexeme_eq h]
  cases r.next.1.lexeme with
  | identifier name =>
    simp only
    split
    · exact .none
    · obtain ⟨hwords, hlast⟩ := sim.words (sim.next h)
      exact .some ⟨by simp only [hwords], sim.skipBreaks hlast⟩
  | _ => exact .none

theorem commands (h : related r s) : Pair related r.commands s.commands := by
  fun_induction Reader.commands r generalizing s with
  | case1 r command last hr others last' heq ih =>
    have hs := sim.command? h
    rw [hr] at hs
    cases hf : s.command? with
    | none => rw [hf] at hs; cases hs
    | some found =>
      obtain ⟨command', behind⟩ := found
      rw [hf] at hs
      cases hs with
      | some hpair =>
        obtain ⟨hcommand, hbehind⟩ := hpair
        have hothers := ih hbehind
        rw [heq] at hothers
        rw [commands_of_some hf]
        exact ⟨List.cons_eq_cons.2 ⟨hcommand, hothers.1⟩, hothers.2⟩
  | case2 r hr =>
    have hs := sim.command? h
    rw [hr] at hs
    cases hf : s.command? with
    | none =>
      rw [commands_of_none hf]
      exact ⟨rfl, h⟩
    | some found => rw [hf] at hs; cases hs

/-! ## 4. Tables -/

theorem block (isEvent : Bool) (h : related r s) :
    Alike place (Pair related) (r.block isEvent) (s.block isEvent) := by
  refine (sim.identifier h).bind ?_
  rintro ⟨name, r₁⟩ ⟨name', s₁⟩ ⟨⟨htext, -⟩, h₁⟩
  refine (sim.expect_scope h₁).bind ?_
  rintro ⟨mark, r₂⟩ ⟨mark', s₂⟩ ⟨-, h₂⟩
  obtain ⟨hcommands, hlast⟩ := sim.commands (sim.skipBreaks h₂)
  exact ⟨by simp only [show name.text = name'.text from htext, hcommands], hlast⟩

theorem block? (h : related r s) :
    Alike place (Option.Rel (Pair related)) r.block? s.block? := by
  unfold Reader.block?
  have hplace := sim.place_next h
  rw [← sim.lexeme_eq h]
  revert hplace
  cases r.next.1.lexeme with
  | identifier keyword =>
    intro hplace
    simp only
    cases blockKind? keyword with
    | none => exact ⟨rfl, hplace (by simp)⟩
    | some isEvent => exact (sim.block isEvent (sim.next h)).map fun _ _ => .some
  | _ => exact fun _ => .none

theorem blocks (h : related r s) :
    r.blocks.items = s.blocks.items ∧ Alike place related r.blocks.ending s.blocks.ending :=
  list sim.block? h

theorem resource (kind : ResourceKind) (h : related r s) :
    Alike place (Pair related) (r.resource kind) (s.resource kind) := by
  refine (sim.expect_scope h).bind ?_
  rintro ⟨mark, r₁⟩ ⟨mark', s₁⟩ ⟨-, h₁⟩
  refine (sim.number h₁).bind ?_
  rintro ⟨id, r₂⟩ ⟨id', s₂⟩ ⟨hid, h₂⟩
  obtain ⟨hcontent, hlast⟩ := sim.textBlock h₂
  exact ⟨Prod.ext hid (congrArg (Resource.mk kind) hcontent), sim.skipBreaks hlast⟩

theorem resource? (h : related r s) :
    Alike place (Option.Rel (Pair related)) r.resource? s.resource? := by
  unfold Reader.resource?
  rw [← sim.lexeme_eq h]
  cases r.next.1.lexeme with
  | identifier keyword =>
    simp only
    cases ResourceKind.ofKeyword? keyword with
    | none => exact .none
    | some kind => exact (sim.resource kind (sim.next h)).map fun _ _ => .some
  | _ => exact .none

theorem resources (h : related r s) :
    r.resources.items = s.resources.items ∧
      Alike place related r.resources.ending s.resources.ending :=
  list sim.resource? h

/-! ## 5. Directives and quests -/

/-- Runs that make the same of every quest. They need not consist of the same
directives, because a flag carries its offset. -/
def Runs (related : Reader → Reader → Prop) (place : Nat → Nat → Prop)
    (run run' : Run Directive) : Prop :=
  (∀ q, run.items.foldl Directive.applyTo q = run'.items.foldl Directive.applyTo q) ∧
    Alike place related run.ending run'.ending

theorem body {heading heading' : Identifier} (htext : heading.text = heading'.text)
    (hoffset : place heading.offset heading'.offset) (h : related r s) :
    Runs related place (r.body heading) (s.body heading') := by
  have hskip := sim.skipBreaks h
  unfold Reader.body
  rw [← htext]
  split
  · obtain ⟨hline, hlast⟩ := sim.textLine h
    exact ⟨fun q => congrArg (fun text => (Directive.title text).applyTo q) hline, hlast⟩
  · obtain ⟨hblock, hlast⟩ := sim.textBlock h
    exact ⟨fun q => congrArg (fun text => (Directive.briefing text).applyTo q) hblock, hlast⟩
  · obtain ⟨hitems, hending⟩ := sim.resources hskip
    exact ⟨fun q => congrArg (fun entries => (Directive.resources entries).applyTo q) hitems,
      hending⟩
  · obtain ⟨hcommands, hlast⟩ := sim.commands hskip
    obtain ⟨hitems, hending⟩ := sim.blocks hlast
    refine ⟨fun q => ?_, hending⟩
    show (Directive.stages r.skipBreaks.commands.1 _).applyTo q =
      (Directive.stages s.skipBreaks.commands.1 _).applyTo q
    exact congrArg (Directive.applyTo q) (Directive.stages.injEq .. ▸ ⟨hcommands, hitems⟩)
  · exact ⟨fun q => rfl, rfl, hoffset⟩

theorem directive (h : related r s) : Runs related place r.directive s.directive := by
  have hword := sim.identifier h
  unfold Reader.directive
  cases hr : onward r.identifier with
  | error e =>
    cases hs : onward s.identifier with
    | ok found => rw [hr, hs] at hword; exact hword.elim
    | error f => rw [hr, hs] at hword; exact ⟨fun q => rfl, hword⟩
  | ok found =>
    obtain ⟨word, r₁⟩ := found
    cases hs : onward s.identifier with
    | error f => rw [hr, hs] at hword; exact hword.elim
    | ok found =>
      obtain ⟨word', s₁⟩ := found
      rw [hr, hs] at hword
      obtain ⟨⟨htext, hoffset⟩, h₁⟩ := hword
      simp only at htext hoffset h₁ ⊢
      rw [← htext]
      split
      · exact ⟨fun q => rfl, h₁⟩
      · have hmark := sim.expect_scope h₁
        cases hr' : onward (r₁.expect scope) <;> cases hs' : onward (s₁.expect scope) <;>
          rw [hr', hs'] at hmark
        · exact ⟨fun q => rfl, hmark⟩
        · exact hmark.elim
        · exact hmark.elim
        · exact sim.body htext hoffset hmark.2

/-- Related readers make the same quest, or fail at related places. -/
theorem quest (h : related r s) (q : Quest) :
    Alike place (· = ·) (r.directives.quest q) (s.directives.quest q) := by
  induction hn : r.rest.length using Nat.strongRecOn generalizing r s q with
  | ind n ih =>
    have hskip := sim.skipBreaks h
    cases hend : r.skipBreaks.atEnd with
    | true =>
      rw [quest_of_atEnd hend, quest_of_atEnd (by rw [← sim.atEnd_eq hskip, hend])]
      rfl
    | false =>
      obtain ⟨hitems, hending⟩ := sim.directive hskip
      rw [quest_of_directive hend, quest_of_directive (by rw [← sim.atEnd_eq hskip, hend])]
      cases hr : r.skipBreaks.directive.ending <;> cases hs : s.skipBreaks.directive.ending <;>
        rw [hr, hs] at hending
      · exact hending
      · exact hending.elim
      · exact hending.elim
      · have hlt := length_directive_lt hr
        have hle := r.length_skipBreaks_le
        simp only [hitems]
        exact ih _ (by omega) hending _ rfl

end Simulation

end Reader

/-- **What a simulation is for.** Sources whose readers are related at the start
make the same quest, or fail with the same fault at related places. -/
theorem Quest.parse_alike {related : Reader → Reader → Prop} {place : Nat → Nat → Prop}
    (sim : Reader.Simulation related place) {source source' : String}
    (h : related (.ofSource source) (.ofSource source')) :
    Alike place (· = ·) (Quest.parse source) (Quest.parse source') :=
  sim.quest h {}

end Questbook
