/-
Questbook.Proofs.Source.Passage — a section before other sections.

A section of a source is one directive that has the text it asks for
(`Passage.IsSection`); line breaks, blanks and comments may stand before it. It is
well formed if a newline ends it and nothing is open there (`Passage.WellFormed`). For
a flag the newline is enough (`Passage.IsSection.of_flag`). A section of any kind that
ends in a blank line is well formed, as long as no comment takes a newline of the
blank line along (`Passage.IsSection.of_blankLine`). How it is laid out otherwise
makes no difference.

Alone, a section replaces its field of the quest and no other
(`Passage.IsSection.quest_alone`). A well-formed section does the same before other
sections, and these are read as sections too, unless it is a task table
(`Passage.WellFormed.run_append`). For the machine gets to the same stage at its end
whatever stands behind it, and at that stage it waits for a directive or for the next
entry of a resource table; the heading of a section is none.
-/
import Questbook.Proofs.Grammar.Automaton
import Questbook.Proofs.Grammar.Seam
import Questbook.Proofs.Reader.Simulation
import Questbook.Proofs.Source.Sections

namespace Questbook

open Text Reader

/-! ## 1. Sections -/

/-- What a directive is about. -/
inductive Directive.Kind where
  | background
  | title
  | briefing
  | resources
  | stages
deriving DecidableEq, Repr

namespace Directive

/-- What the directive is about. -/
def kind : Directive → Kind
  | .flag .. => .background
  | .title _ => .title
  | .briefing _ => .briefing
  | .resources _ => .resources
  | .stages .. => .stages

/-- The word that opens a directive of this kind. -/
def Kind.heading : Kind → String
  | .background => backgroundFlag
  | .title => "title"
  | .briefing => "briefing"
  | .resources => "qrc"
  | .stages => "qst"

end Directive

/-- The quest says something there. A task table may be empty. -/
def Quest.Fills (q : Quest) : Directive.Kind → Prop
  | .background => q.runsInBackground = true
  | .title => q.title ≠ ""
  | .briefing => q.briefing ≠ ""
  | .resources => ∀ entry ∈ q.resources.entries, entry.2.content ≠ ""
  | .stages => True

instance (q : Quest) : (kind : Directive.Kind) → Decidable (q.Fills kind)
  | .background => inferInstanceAs (Decidable (q.runsInBackground = true))
  | .title => inferInstanceAs (Decidable (q.title ≠ ""))
  | .briefing => inferInstanceAs (Decidable (q.briefing ≠ ""))
  | .resources => inferInstanceAs (Decidable (∀ entry ∈ q.resources.entries, entry.2.content ≠ ""))
  | .stages => .isTrue trivial

/-- A section of a source, and the quest that it makes alone. -/
structure Passage where
  kind : Directive.Kind
  source : String
  quest : Quest

/-- Read alone, the source is one directive under the heading of its kind, and that
directive has the text it asks for. -/
structure Passage.IsSection (p : Passage) : Prop where
  heading : ∃ word, (Reader.ofSource p.source).skipBreaks.next.1.lexeme = .identifier word ∧
    fold word = p.kind.heading
  single : ∃ d, (Reader.ofSource p.source).directives.items = [d]
  alone : Quest.parse p.source = .ok p.quest
  filled : p.quest.Fills p.kind

/-- At the end of the source the machine is where line breaks are passed over: no line,
no text and no command is open. -/
def LeavesNothingOpen (source : String) : Prop :=
  ∃ t : State, (State.start source).Reaches t ∧ t.token.lexeme = .endOfFile ∧
    t.stage.passesBreaks = true

/-- A newline ends the section, and nothing is open behind it. -/
structure Passage.WellFormed (p : Passage) : Prop extends p.IsSection where
  ends : ∃ front, p.source.toList = front ++ ['\n']
  closed : LeavesNothingOpen p.source

/-! ## 2. One section alone -/

/-- The quest with the field of the section replaced. -/
def Passage.applyTo (p : Passage) (q : Quest) : Quest :=
  match p.kind with
  | .background => { q with runsInBackground := p.quest.runsInBackground }
  | .title => { q with title := p.quest.title }
  | .briefing => { q with briefing := p.quest.briefing }
  | .resources => { q with resources := p.quest.resources }
  | .stages => { q with tasks := p.quest.tasks }

theorem head?_fold (word : String) :
    (fold word).toList.head? = some '+' ↔ word.toList.head? = some '+' := by
  rw [toList_fold]
  cases word.toList with
  | nil => simp
  | cons c cs =>
    simp only [List.map_cons, List.head?_cons, Option.some.injEq]
    exact ⟨fun h => eq_of_toLower_eq h rfl, fun h => by rw [h]; rfl⟩

/-- A directive is of the kind that its heading names. -/
theorem directive_of_kind {r last : Reader} {word : String} {kind : Directive.Kind}
    (hword : r.next.1.lexeme = .identifier word) (hfold : fold word = kind.heading)
    (hending : r.directive.ending = .ok last) :
    ∃ d, r.directive.items = [d] ∧ d.kind = kind := by
  obtain ⟨hskip, -⟩ := skipBreaks_of_identifier hword
  have hplus : word.toList.head? = some '+' ↔ kind = .background := by
    rw [← head?_fold, hfold]
    cases kind <;> decide
  rw [directive, onward_identifier, hskip, hword] at hending ⊢
  simp only [hplus] at hending ⊢
  split
  · next hkind => exact ⟨_, rfl, hkind.symm⟩
  · next hkind =>
    rw [if_neg hkind] at hending
    cases hscope : onward (r.next.2.expect scope) with
    | error e =>
      rw [hscope] at hending
      cases hending
    | ok mark =>
      simp only [body, hfold]
      cases kind with
      | background => exact absurd rfl hkind
      | _ => exact ⟨_, rfl, rfl⟩

namespace Passage.IsSection

variable {p : Passage} (h : p.IsSection)

include h

theorem exists_directive : ∃ d : Directive, d.kind = p.kind ∧ p.quest = d.applyTo {} ∧
    ∀ q, (Reader.ofSource p.source).directives.quest q = .ok (d.applyTo q) := by
  obtain ⟨word, hword, hfold⟩ := h.heading
  obtain ⟨d, hitems⟩ := h.single
  obtain ⟨-, hend⟩ := skipBreaks_of_identifier hword
  have halone := h.alone
  rw [Quest.parse_eq, Run.quest, hitems] at halone
  cases hending : (Reader.ofSource p.source).directives.ending with
  | error e =>
    rw [hending] at halone
    cases halone
  | ok last =>
    rw [hending] at halone
    refine ⟨d, ?_, (Except.ok.inj halone).symm, fun q => by rw [Run.quest, hitems, hending]; rfl⟩
    cases hfirst : (Reader.ofSource p.source).skipBreaks.directive.ending with
    | error e =>
      rw [directives_of_error hend hfirst] at hending
      cases hending
    | ok behind =>
      obtain ⟨d', hd', hkind⟩ := directive_of_kind hword hfold hfirst
      rw [directives_of_ok hend hfirst, hd'] at hitems
      rw [← (List.cons.inj hitems).1, hkind]

/-- Alone, the section replaces its field and no other. -/
theorem quest_alone (q : Quest) :
    (Reader.ofSource p.source).directives.quest q = .ok (p.applyTo q) := by
  obtain ⟨d, hkind, hquest, hd⟩ := h.exists_directive
  have hfilled := h.filled
  rw [hd, Passage.applyTo]
  rw [hquest, ← hkind] at hfilled ⊢
  cases d with
  | flag text offset =>
    cases hflag : sameFold text Directive.backgroundFlag with
    | true => simp [Directive.kind, Directive.applyTo, hflag]
    | false => simp [Directive.kind, Directive.applyTo, hflag, Quest.Fills] at hfilled
  | _ => rfl

/-- What comes of the end of the section, whatever was read before it. -/
theorem exists_feed_end {t : State} (hreach : (State.start p.source).Reaches t)
    (hend : t.token.lexeme = .endOfFile) :
    ∃ f : Quest → Quest,
      (∀ q, State.Reaches ⟨q, .directive, .ofSource p.source⟩ ⟨f q, t.stage, t.reader⟩) ∧
      ∀ q, t.stage.feed (f q) ⟨.endOfFile, t.token.offset⟩ = .stop (.ok (p.applyTo q)) := by
  obtain ⟨f, -, huniform⟩ := hreach.uniform
  refine ⟨f, huniform, fun q => ?_⟩
  obtain ⟨outcome, hstop⟩ := Stage.feed_endOfFile (f q) t.stage t.token.offset
  have hlast : State.move ⟨f q, t.stage, t.reader⟩ = .stop outcome := by
    rw [← hend] at hstop
    exact hstop
  have hrun : Stage.directive.run q (.ofSource p.source) = _ := (huniform q).run_eq
  rw [State.run_of_stop hlast, Stage.run_directive, h.quest_alone] at hrun
  rw [hstop, hrun]

theorem exists_reaches_end :
    ∃ t : State, (State.start p.source).Reaches t ∧ t.token.lexeme = .endOfFile := by
  obtain ⟨t, hreach, hstop⟩ := State.exists_reaches_stop (.start p.source)
  rw [← Quest.parse_eq_run, h.alone] at hstop
  exact ⟨t, hreach, State.token_of_ok hstop⟩

variable (hends : ∃ front, p.source.toList = front ++ ['\n'])

include hends

/-- A section that ends in a blank line leaves nothing open, if each comment before the
blank line has a newline of its own. -/
theorem of_blankLine {front breaks : List Char} (hsource : p.source.toList = front ++ breaks)
    (hfront : ClosesComments front) (hbreaks : IsBlankLine breaks) : p.WellFormed := by
  obtain ⟨t, hreach, hend⟩ := h.exists_reaches_end
  refine ⟨h, hends, t, hreach, hend, ?_⟩
  rw [State.start, ofSource, hsource] at hreach
  exact hreach.passesBreaks_of_blankLine hend hfront hbreaks

omit hends in
/-- A section without a comment that ends in an empty line. -/
theorem of_plain (front : List Char) (hsource : p.source.toList = front ++ ['\n', '\n'])
    (hplain : '$' ∉ front) : p.WellFormed :=
  h.of_blankLine ⟨front ++ ['\n'], by simp [hsource]⟩ hsource (.of_not_mem hplain)
    ⟨rfl, by simp [isSpacing], by decide⟩

/-- Behind a flag nothing is open at the end of its line. -/
theorem of_flag (hkind : p.kind = .background) : p.WellFormed := by
  obtain ⟨t, hreach, hend⟩ := h.exists_reaches_end
  obtain ⟨f, -, hfeed⟩ := h.exists_feed_end hreach hend
  refine ⟨h, hends, t, hreach, hend, ?_⟩
  -- What is open at the end gets into the quest, and the flag changes no other field.
  simp only [Passage.applyTo, hkind] at hfeed
  revert hfeed
  cases t.stage with
  | titleLine written =>
    intro hfeed
    have hquest := Except.ok.inj (Move.stop.inj (hfeed { title := written ++ "+" }))
    have htitle : written = written ++ "+" := congrArg Quest.title hquest
    simpa using congrArg String.length htitle
  | textLine use written pending =>
    intro hfeed
    cases use with
    | briefing =>
      have hquest := Except.ok.inj (Move.stop.inj (hfeed { briefing := written ++ "+" }))
      have hbriefing : written = written ++ "+" := congrArg Quest.briefing hquest
      simpa using congrArg String.length hbriefing
    | content entries kind id =>
      have hquest := Except.ok.inj (Move.stop.inj (hfeed {}))
      have hresources : Table.ofList (entries ++ [(id, ⟨kind, written⟩)]) = ∅ :=
        congrArg Quest.resources hquest
      have hmem := Table.mem_entries_ofList_append entries id (⟨kind, written⟩ : Resource)
      rw [hresources] at hmem
      cases hmem
  | arguments blocks block last =>
    intro hfeed
    have hquest := Except.ok.inj (Move.stop.inj (hfeed { tasks := [] }))
    have htasks : blocks ++ [_] = [] := congrArg Quest.tasks hquest
    simp at htasks
  | _ => exact fun _ => rfl

end Passage.IsSection

/-! ## 3. One section before others -/

/-- Readers of the same text further on in a source. -/
theorem Reader.simulation_shift (k : Nat) :
    Simulation (fun r s => s = r.shift k) fun m n => n = m + k where
  lexeme_eq := by
    rintro r s rfl
    rw [next_shift]
    rfl
  place_next := by
    rintro r s rfl -
    rw [next_shift]
    rfl
  next := by
    rintro r s rfl
    rw [next_shift]
  wide_eq := by
    rintro r s rfl
    rfl
  widen := by
    rintro wide r s rfl
    rfl

/-- Where a text stands in a source makes no difference to the quest. -/
theorem Stage.run_directive_eq_ok (q q' : Quest) (cs : List Char) (offset : Nat) :
    Stage.directive.run q ⟨cs, offset, false⟩ = .ok q' ↔
      Stage.directive.run q ⟨cs, 0, false⟩ = .ok q' := by
  have hshift := (simulation_shift offset).quest (r := ⟨cs, 0, false⟩) rfl q
  rw [Reader.shift, Nat.zero_add] at hshift
  rw [Stage.run_directive, Stage.run_directive]
  revert hshift
  cases (⟨cs, 0, false⟩ : Reader).directives.quest q with
  | error e =>
    cases (⟨cs, offset, false⟩ : Reader).directives.quest q with
    | error e' => exact fun _ => iff_of_false (by simp) (by simp)
    | ok q₁ => exact fun hshift => hshift.elim
  | ok q₀ =>
    cases (⟨cs, offset, false⟩ : Reader).directives.quest q with
    | error e' => exact fun hshift => hshift.elim
    | ok q₁ => exact fun hshift => by rw [show q₀ = q₁ from hshift]

/-- Here a section begins, or the source ends. -/
def OpensSection (cs : List Char) : Prop :=
  cs = [] ∨ ∃ (word : String) (kind : Directive.Kind), fold word = kind.heading ∧
    ∀ offset, (⟨cs, offset, false⟩ : Reader).skipBreaks.next.1.lexeme = .identifier word

/-- Where a section begins, no entry of a resource table does. -/
theorem OpensSection.run_entry {cs : List Char} (h : OpensSection cs)
    (entries : List (Int64 × Resource)) (q : Quest) (offset : Nat) :
    (Stage.entry entries).run q ⟨cs, offset, false⟩ =
      Stage.directive.run ((Directive.resources entries).applyTo q) ⟨cs, offset, false⟩ := by
  obtain rfl | ⟨word, kind, hfold, hword⟩ := h
  · rw [Stage.run_endOfFile rfl, Stage.run_endOfFile rfl]
  · have hno : ResourceKind.ofKeyword? word = none := by
      rw [ResourceKind.ofKeyword?, hfold]
      cases kind <;> decide
    have hdirective : Stage.directive.passesBreaks = true := rfl
    rw [Stage.run_skipBreaks rfl, Stage.run_skipBreaks hdirective, Stage.run_of_narrow rfl,
      Stage.run_of_narrow rfl, Stage.feed, Stage.feed, Stage.feedEntry, hword]
    simp only [hno]

namespace Passage.WellFormed

variable {p : Passage} (h : p.WellFormed)

include h

theorem run_alone (q : Quest) (offset : Nat) :
    Stage.directive.run q ⟨p.source.toList, offset, false⟩ = .ok (p.applyTo q) := by
  have halone := h.quest_alone q
  rw [← Stage.run_directive] at halone
  exact (Stage.run_directive_eq_ok q _ _ offset).2 halone

/-- The heading is read whatever stands behind the section. -/
theorem heading_append (ds : List Char) : ∃ word, fold word = p.kind.heading ∧
    ∀ offset, (⟨p.source.toList ++ ds, offset, false⟩ : Reader).skipBreaks.next.1.lexeme =
      .identifier word := by
  obtain ⟨word, hword, hfold⟩ := h.heading
  obtain ⟨front, hsource⟩ := h.ends
  refine ⟨word, hfold, fun offset => ?_⟩
  have halone : (⟨front ++ ['\n'], offset, false⟩ : Reader).skipBreaks.next.1.lexeme =
      .identifier word := by
    rw [← hsource, ← shift_ofSource, skipBreaks_shift, next_shift]
    exact hword
  rw [hsource, List.append_assoc]
  exact lexeme_skipBreaks_append halone ds

theorem opensSection_append (ds : List Char) : OpensSection (p.source.toList ++ ds) := by
  obtain ⟨word, hfold, hword⟩ := h.heading_append ds
  exact .inr ⟨word, p.kind, hfold, hword⟩

/-- A quest that has something to say nowhere but in its texts. -/
theorem filled_applyTo (hkind : p.kind ≠ .stages) :
    ∃ q, (p.applyTo q).title ≠ "" ∧ (p.applyTo q).briefing ≠ "" ∧ (p.applyTo q).tasks = [] ∧
      ∀ entry ∈ (p.applyTo q).resources.entries, entry.2.content ≠ "" := by
  refine ⟨{ title := "+", briefing := "+", tasks := [] }, ?_⟩
  have hfilled := h.filled
  have hempty : (∅ : Table Int64 Resource).entries = [] := rfl
  unfold Passage.applyTo
  cases hp : p.kind with
  | stages => exact absurd hp hkind
  | resources =>
    rw [hp] at hfilled
    exact ⟨by simp, by simp, rfl, hfilled⟩
  | _ =>
    rw [hp] at hfilled
    simp_all [Quest.Fills]

/-- Where the machine is at the end of a section, it goes on to the next one. It is
not waiting for a text, because the section has said something, and it is not in a
task table. -/
theorem run_behind (hkind : p.kind ≠ .stages) {stage : Stage} (hpass : stage.passesBreaks = true)
    {f : Quest → Quest} {last : Nat}
    (hend : ∀ q, stage.feed (f q) ⟨.endOfFile, last⟩ = .stop (.ok (p.applyTo q))) (q : Quest)
    {ds : List Char} (hds : OpensSection ds) (offset : Nat) :
    stage.run (f q) ⟨ds, offset, false⟩ =
      Stage.directive.run (p.applyTo q) ⟨ds, offset, false⟩ := by
  obtain ⟨q₀, htitle, hbriefing, htasks, hresources⟩ := h.filled_applyTo hkind
  have hstop {q : Quest} {outcome : Except ParseError Quest}
      (hfeed : stage.feed (f q) ⟨.endOfFile, last⟩ = .stop outcome) :
      outcome = .ok (p.applyTo q) := by
    rw [hend q] at hfeed
    exact (Move.stop.inj hfeed).symm
  cases stage with
  | directive =>
    have hquest := hstop (q := q) rfl
    rw [← Except.ok.inj hquest]
  | entry entries =>
    have hquest := hstop (q := q) rfl
    rw [hds.run_entry, ← Except.ok.inj hquest]
  | title =>
    have hquest := hstop (q := q₀) rfl
    rw [← Except.ok.inj hquest] at htitle
    exact absurd rfl htitle
  | text use =>
    cases use with
    | briefing =>
      have hquest := hstop (q := q₀) rfl
      rw [← Except.ok.inj hquest] at hbriefing
      exact absurd rfl hbriefing
    | content entries kind id =>
      have hquest := hstop (q := q₀) rfl
      rw [← Except.ok.inj hquest] at hresources
      exact absurd rfl (hresources _ (Table.mem_entries_ofList_append entries id ⟨kind, ""⟩))
  | command blocks block =>
    have hquest := hstop (q := q₀) rfl
    rw [← Except.ok.inj hquest] at htasks
    simp [Stage.withTasks] at htasks
  | titleLine => cases hpass
  | textLine => cases hpass
  | arguments => cases hpass
  | _ => cases hstop (q := q) rfl

/-- **A section before others.** It is read to its end, and the next one is read as
a section too. -/
theorem run_append (hkind : p.kind ≠ .stages) (q : Quest) {ds : List Char}
    (hds : OpensSection ds) :
    Stage.directive.run q ⟨p.source.toList ++ ds, 0, false⟩ =
      Stage.directive.run (p.applyTo q) ⟨ds, size p.source.toList, false⟩ := by
  obtain ⟨front, hsource⟩ := h.ends
  obtain ⟨t, hreach, hlast, hpass⟩ := h.closed
  obtain ⟨f, huniform, hend⟩ := h.exists_feed_end hreach hlast
  have hreach' := huniform q
  rw [ofSource, hsource] at hreach'
  have hbehind := hreach'.run_append hlast hpass ds
  rw [Nat.zero_add, ← hsource] at hbehind
  rw [← h.run_behind hkind hpass hend q hds, ← hbehind, hsource, List.append_assoc,
    List.singleton_append]

end Passage.WellFormed

end Questbook
