/-
Questbook.Proofs.Grammar.Seam — the machine at the end of a text, and behind it.

The machine never looks at the quest that it makes (`Stage.feed_uniform`). So a run
over a text does the same whatever was read before (`State.Reaches.uniform`).

It also does the same whatever stands behind the text, if the text ends in a newline
and the machine gets to its end with nothing open, at a stage where line breaks are
passed over. Then the machine goes on from that stage behind the text
(`State.Reaches.run_append`). A newline alone does not always bring that about: a
block of text is still open there. A blank line does, unless a comment takes one of
its newlines along (`State.Reaches.passesBreaks_of_blankLine`).
-/
import Questbook.Proofs.Grammar.Ahead
import Questbook.Proofs.Reader.Seam

namespace Questbook

open Text Extent Reader

namespace Stage

/-! ## 1. The quest so far -/

/-- The same stage follows whatever the quest so far is, or the same error. -/
inductive Uniform (move : Quest → Move) : Prop where
  | on (f : Quest → Quest) (stage : Stage) (h : ∀ q, move q = .on (f q) stage)
  | stop (e : ParseError) (h : ∀ q, move q = .stop (.error e))

theorem Uniform.same (stage : Stage) : Uniform fun q => .on q stage :=
  .on id stage fun _ => rfl

theorem Uniform.fail (e : ParseError) : Uniform fun _ => .stop (.error e) :=
  .stop e fun _ => rfl

section Uniform

variable {t : Token}

theorem feedMark_uniform {here : Stage} {behind : Quest → Move} (hbehind : Uniform behind) :
    Uniform fun q => feedMark q here (behind q) t := by
  unfold feedMark
  split
  · exact hbehind
  · exact .same here
  · exact .fail _

theorem behindHeading_uniform (word : Identifier) : Uniform fun q => behindHeading q word := by
  unfold behindHeading
  split
  · exact .same _
  · exact .same _
  · exact .same _
  · exact .same _
  · exact .fail _

variable (ht : t.lexeme ≠ .endOfFile)

include ht

theorem feedDirective_uniform (f : Quest → Quest) : Uniform fun q => feedDirective (f q) t := by
  unfold feedDirective
  split
  · next word hword =>
    split
    · exact .on (fun q => (Directive.flag word t.offset).applyTo (f q)) _ fun q => rfl
    · exact .on f _ fun q => rfl
  · exact .on f _ fun q => rfl
  · next hend => exact absurd hend ht
  · exact .fail _

theorem feedEntry_uniform (entries : List (Int64 × Resource)) :
    Uniform fun q => feedEntry q entries t := by
  have hbetween := feedDirective_uniform ht (Directive.resources entries).applyTo
  unfold feedEntry
  split
  · exact .same _
  · split
    · exact .same _
    · exact hbetween
  · exact hbetween

theorem feedTitleLine_uniform (written : String) :
    Uniform fun q => feedTitleLine q written t := by
  unfold feedTitleLine
  split
  · exact .same _
  · exact feedDirective_uniform ht (Directive.title written).applyTo

theorem feedTextLine_uniform (use : TextUse) (written : String) (pending : Nat) :
    Uniform fun q => feedTextLine q use written pending t := by
  unfold feedTextLine
  split
  · exact .same _
  · split
    · cases use with
      | briefing => exact feedDirective_uniform ht (Directive.briefing written).applyTo
      | content entries kind id => exact feedEntry_uniform ht _
    · exact .same _

theorem feedCommand_uniform (blocks : List Task) (block : Task) :
    Uniform fun q => feedCommand q blocks block t := by
  unfold feedCommand
  split
  · exact .same _
  · split
    · exact .same _
    · exact .same _
  · exact feedDirective_uniform ht fun q => withTasks q blocks block

/-- **The machine does not look at the quest that it makes.** -/
theorem feed_uniform (stage : Stage) : Uniform fun q => stage.feed q t := by
  cases stage with
  | directive => exact feedDirective_uniform ht id
  | heading word => exact feedMark_uniform (behindHeading_uniform word)
  | title =>
    simp only [feed]
    split
    · exact .same _
    · exact feedTitleLine_uniform ht ""
  | titleLine written => exact feedTitleLine_uniform ht written
  | text use =>
    simp only [feed]
    split
    · exact .same _
    · exact feedTextLine_uniform ht use "" 0
  | textLine use written pending => exact feedTextLine_uniform ht use written pending
  | entry entries => exact feedEntry_uniform ht entries
  | entryMark entries kind => exact feedMark_uniform (.same _)
  | entryNumber entries kind =>
    simp only [feed]
    split
    · exact .same _
    · exact .same _
    · exact .fail _
  | command blocks block => exact feedCommand_uniform ht blocks block
  | arguments blocks block last =>
    simp only [feed, feedArguments]
    split
    · exact .same _
    · exact feedCommand_uniform ht blocks _
  | label blocks isEvent =>
    simp only [feed]
    split
    · exact .same _
    · exact .same _
    · exact .fail _
  | labelMark blocks isEvent name => exact feedMark_uniform (.same _)

end Uniform

theorem run_endOfFile {q : Quest} {stage : Stage} {offset : Nat} {outcome : Except ParseError Quest}
    (h : stage.feed q ⟨.endOfFile, offset⟩ = .stop outcome) :
    stage.run q ⟨[], offset, false⟩ = outcome := by
  have hnext : (⟨[], offset, false⟩ : Reader).next = (⟨.endOfFile, offset⟩, ⟨[], offset, false⟩) :=
    rfl
  rw [run_eq, read_of_word?_eq_none (by rw [hnext]; rfl), hnext, h]
  rfl

/-- A stage reads in its own mode and leaves the mode as it was. -/
theorem read_of_next {stage : Stage} {cs rest : List Char} {offset offset' : Nat} {t : Token}
    (h : (⟨cs, offset, stage.wide⟩ : Reader).next = (t, ⟨rest, offset', stage.wide⟩)) :
    stage.read ⟨cs, offset, false⟩ = (t, ⟨rest, offset', false⟩) := by
  rw [read_eq, tune, Bool.or_false, h]

end Stage

namespace State

variable {s t : State}

/-! ## 2. Runs over a text -/

theorem token_ne_endOfFile {q : Quest} {stage : Stage} (h : s.move = .on q stage) :
    s.token.lexeme ≠ .endOfFile := by
  intro hend
  obtain ⟨outcome, hstop⟩ := Stage.feed_endOfFile s.quest s.stage s.token.offset
  rw [← hend] at hstop
  rw [show s.move = .stop outcome from hstop] at h
  cases h

/-- A quest is made at the end of the file only. -/
theorem token_of_ok {q : Quest} (h : s.move = .stop (.ok q)) : s.token.lexeme = .endOfFile := by
  refine Decidable.byContradiction fun hend => ?_
  cases Stage.feed_uniform hend s.stage with
  | stop e hfeed => cases h.symm.trans (hfeed s.quest)
  | on f stage hfeed => cases h.symm.trans (hfeed s.quest)

/-- A run ends where the text does. -/
theorem Reaches.eq_of_endOfFile (h : s.Reaches t) (hend : s.token.lexeme = .endOfFile) : t = s := by
  cases h with
  | refl => rfl
  | step hmove hlast => exact absurd hend (token_ne_endOfFile hmove)

/-- A run goes on from its first token. -/
theorem Reaches.of_read {q q' : Quest} {stage stage' : Stage} {r r' : Reader} {u : Token}
    (hread : stage.read r = (u, r')) (hfeed : stage.feed q u = .on q' stage')
    (h : Reaches ⟨q', stage', r'⟩ t) : Reaches ⟨q, stage, r⟩ t := by
  have hmove : State.move ⟨q, stage, r⟩ = .on q' stage' := by
    rw [move, token, hread]
    exact hfeed
  refine .step hmove ?_
  rw [behind, hread]
  exact h

/-- A run to the end of the file goes on behind each token that is not the end. -/
theorem Reaches.exists_feed {q : Quest} {stage : Stage} {r r' : Reader} {u : Token}
    (h : Reaches ⟨q, stage, r⟩ t) (hend : t.token.lexeme = .endOfFile)
    (hread : stage.read r = (u, r')) (hu : u.lexeme ≠ .endOfFile) :
    ∃ q' stage', stage.feed q u = .on q' stage' ∧ Reaches ⟨q', stage', r'⟩ t := by
  cases h with
  | refl =>
    rw [token, hread] at hend
    exact absurd hend hu
  | @step _ _ q' stage' hmove hlast =>
    rw [move, token, hread] at hmove
    rw [behind, hread] at hlast
    exact ⟨q', stage', hmove, hlast⟩

/-- A run does the same to every quest. -/
theorem Reaches.uniform (h : s.Reaches t) :
    ∃ f : Quest → Quest, f s.quest = t.quest ∧
      ∀ q, Reaches ⟨q, s.stage, s.reader⟩ ⟨f q, t.stage, t.reader⟩ := by
  induction h with
  | refl s => exact ⟨id, rfl, fun q => .refl _⟩
  | @step s t q stage hmove hlast ih =>
    obtain ⟨g, hquest, hreaches⟩ := ih
    cases Stage.feed_uniform (token_ne_endOfFile hmove) s.stage with
    | stop e hfeed =>
      rw [show s.move = .stop (.error e) from hfeed s.quest] at hmove
      cases hmove
    | on f stage' hfeed =>
      rw [show s.move = .on (f s.quest) stage' from hfeed s.quest] at hmove
      cases hmove
      exact ⟨g ∘ f, hquest, fun q => .step (hfeed q) (hreaches (f q))⟩

/-! ## 3. What stands behind the text -/

theorem token_of_gap {stage : Stage} {q : Quest} {gap : List Char} (hgap : IsGap false gap)
    (offset : Nat) : (⟨q, stage, ⟨gap, offset, false⟩⟩ : State).token.lexeme = .endOfFile := by
  have hread := Stage.read_congr (toToken_gap hgap [] offset false) stage
  rw [List.append_nil] at hread
  rw [token, hread, Stage.read_of_word?_eq_none (by rw [lexeme_next_of_rest_eq_nil rfl]; rfl)]
  exact lexeme_next_of_rest_eq_nil rfl

/-- Line breaks are read up to what is none. -/
theorem read_breaks {gap spacing cs : List Char} (hgap : IsGap false gap)
    (hspacing : ∀ c ∈ spacing, isSpacing c = true) (hcs : EndsBreaks cs) (stage : Stage)
    (offset : Nat) :
    stage.read ⟨gap ++ '\n' :: (spacing ++ cs), offset, false⟩ =
      (⟨.lineBreaks (spacing.count '\n' + 1), offset + size gap⟩,
        ⟨cs, offset + size (gap ++ '\n' :: spacing), false⟩) := by
  refine Stage.read_of_next ?_
  obtain ⟨htake, hdrop⟩ := takeWhile_of_endsBreaks hcs
  rw [next_gap hgap, next_newline, List.takeWhile_append_of_pos hspacing,
    List.dropWhile_append_of_pos hspacing, htake, hdrop]
  simp [Nat.add_assoc]

/-- Line breaks at the end of a text. -/
theorem read_breaks_nil {gap spacing : List Char} (hgap : IsGap false gap)
    (hspacing : ∀ c ∈ spacing, isSpacing c = true) (stage : Stage) (offset : Nat) :
    stage.read ⟨gap ++ '\n' :: spacing, offset, false⟩ =
      (⟨.lineBreaks (spacing.count '\n' + 1), offset + size gap⟩,
        ⟨[], offset + size (gap ++ '\n' :: spacing), false⟩) := by
  have hread := read_breaks hgap hspacing (by simp [EndsBreaks] : EndsBreaks []) stage offset
  rwa [List.append_nil] at hread

/-- **A text that leaves nothing open.** The machine goes on behind it from the stage
that it gets to when the text is read alone. -/
theorem Reaches.run_append {front : List Char} {q : Quest} {stage : Stage} {offset : Nat}
    (h : Reaches ⟨q, stage, ⟨front ++ ['\n'], offset, false⟩⟩ t)
    (hend : t.token.lexeme = .endOfFile) (hpass : t.stage.passesBreaks = true) (ds : List Char) :
    stage.run q ⟨front ++ '\n' :: ds, offset, false⟩ =
      t.stage.run t.quest ⟨ds, offset + size (front ++ ['\n']), false⟩ := by
  induction hn : front.length using Nat.strongRecOn generalizing front q stage offset with
  | ind n ih =>
    cases seam front offset stage.wide with
    | comment hopen hgap =>
      obtain rfl := h.eq_of_endOfFile (token_of_gap hgap offset)
      have hpassed := Stage.run_gap hgap stage q ds offset false
      rwa [List.append_assoc, List.singleton_append] at hpassed
    | @breaks gap spacing hfront hgap hspacing =>
      have hread := read_breaks_nil hgap hspacing stage offset
      rw [← hfront] at hread
      obtain ⟨q', stage', hmove, hlast⟩ := h.exists_feed hend hread (by simp)
      obtain rfl := hlast.eq_of_endOfFile (token_of_gap .nil _)
      have hmore : spacing.count '\n' + 1 ≤
          ((spacing ++ ds).takeWhile isSpacing).count '\n' + 1 := by
        rw [List.takeWhile_append_of_pos hspacing, List.count_append]
        omega
      obtain ⟨-, hfeed⟩ := @Stage.feed_of_lineBreaks_le _ _ _ _ _ ⟨_, offset + size gap⟩ _ _
        hmove (Stage.inText_of_passesBreaks hpass) rfl rfl hmore
      rw [append_of_breaks hfront, Stage.run_gap hgap, Stage.run_lineBreaks hfeed,
        ← Nat.add_assoc, Stage.run_dropWhile hpass, Stage.run_spacing hpass hspacing, hfront]
      simp [Nat.add_assoc]
    | @token u others offset' hne hlt hplace hnext =>
      have hread (ds : List Char) := Stage.read_of_next (hnext ds)
      obtain ⟨q', stage', hmove, hlast⟩ := h.exists_feed hend (hread []) hne
      rw [Stage.run_eq, hread, hmove, ← add_size_append hplace]
      exact ih _ (hn ▸ hlt) hlast rfl

/-- **Behind a blank line nothing is open**, if each comment before it has a newline of
its own. -/
theorem Reaches.passesBreaks_of_blankLine {front breaks : List Char} {q : Quest} {stage : Stage}
    {offset : Nat} (h : Reaches ⟨q, stage, ⟨front ++ breaks, offset, false⟩⟩ t)
    (hend : t.token.lexeme = .endOfFile) (hfront : ClosesComments front)
    (hbreaks : IsBlankLine breaks) : t.stage.passesBreaks = true := by
  obtain ⟨tail, rfl⟩ := hbreaks.exists_eq_cons
  obtain ⟨-, htail⟩ := List.forall_mem_cons.1 hbreaks.spacing
  induction hn : front.length using Nat.strongRecOn generalizing front q stage offset with
  | ind n ih =>
    cases seam front offset stage.wide with
    | comment hopen hgap =>
      obtain ⟨gap, text, -, htext, hsplit⟩ := hopen
      exact absurd rfl (htext '\n' (hfront gap text hsplit))
    | @breaks gap spacing hsplit hgap hspacing =>
      have hall : ∀ c ∈ spacing ++ tail, isSpacing c = true := by
        intro c hc
        exact (List.mem_append.1 hc).elim (hspacing c) (htail c)
      have hread := read_breaks_nil hgap hall stage offset
      rw [← append_of_breaks hsplit] at hread
      obtain ⟨q', stage', hmove, hlast⟩ := h.exists_feed hend hread (by simp)
      obtain rfl := hlast.eq_of_endOfFile (token_of_gap .nil _)
      obtain ⟨f, next, hpass, hfeed⟩ := Stage.exists_feed_lineBreaks stage
      have hcount := hbreaks.count
      rw [List.count_cons_self] at hcount
      rw [hfeed q _ _ rfl fun _ _ _ _ => by rw [List.count_append]; omega] at hmove
      cases hmove
      exact hpass
    | @token u others offset' hne hlt hplace hnext =>
      obtain ⟨q', stage', -, hlast⟩ := h.exists_feed hend (Stage.read_of_next (hnext tail)) hne
      obtain ⟨piece, rfl⟩ := suffix_of_next (hnext [])
      exact ih _ (hn ▸ hlt) hfront.of_append hlast rfl

end State

end Questbook
