/-
Questbook.Proofs.Layout.Comment — where a comment at the end of a line does not
matter.

A comment takes the newline at its end along, and it is a comment only where a
token could start. So it is not true that it can be added to any line: behind a
word of a command it joins the next line to the command, and in a line of text it
is text (`trailing_comment_matters`).

Whether it matters is decided where it is met. `State.Spares` lists the states of
the machine at which a comment makes no difference: an error came before, or the
line ends in a comment already, or no line follows, or line breaks are passed
over anyway, or the command, the title or the block of text would end all the same.
If the source with the comment is read to such a state, the source without it makes
the same quest, or fails with the same fault in the same line
(`Quest.parse_trailing_comment`).

The proof is in three parts. In front of the comment both sources are read alike
(`State.run_facing`). At the comment, one newline is lost (`Stage.run_comment`)
and found not to be needed (`Stage.run_newline` and its companions). Behind it both
have the same text to read, at other offsets but in the same lines (`alike_behind`).
-/
import Mathlib
import Questbook.Proofs.Grammar.Ahead
import Questbook.Proofs.Grammar.Errors
import Questbook.Proofs.Grammar.Simulation
import Questbook.Proofs.Layout.Lines

namespace Questbook

open Text

/-- A blank and a comment. -/
def trailingComment (comment : List Char) : List Char :=
  ' ' :: '$' :: '-' :: comment

/-- A comment before `back` that is met in this state makes no difference. -/
inductive State.Spares (comment back : List Char) (t : State) : Prop where
  /-- The source has an error before the comment. -/
  | failed {e : ParseError} {others : List Char} (hmove : t.move = .stop (.error e))
      (hrest : t.behind.rest = others ++ '$' :: '-' :: (comment ++ back))
  /-- The line ends in a comment already. -/
  | inComment {gap text : List Char} (hgap : IsGap false gap) (htext : ∀ c ∈ text, c ≠ '\n')
      (hrest : t.reader.rest =
        gap ++ '$' :: '-' :: (text ++ '$' :: '-' :: (comment ++ back)))
  /-- The line is the last of the source. -/
  | lastLine {gap : List Char} (hgap : IsGap false gap) (hback : back = [])
      (hrest : t.reader.rest = gap ++ '$' :: '-' :: (comment ++ back))
  /-- Line breaks are passed over. -/
  | between {gap : List Char} (hgap : IsGap false gap) (hstage : t.stage.passesBreaks = true)
      (hrest : t.reader.rest = gap ++ '$' :: '-' :: (comment ++ back))
  /-- The line is a command, and the next line does not start with a word. -/
  | command {gap next : List Char} {blocks : List Task} {block : Task} {last : Command}
      (hgap : IsGap false gap) (hstage : t.stage = .arguments blocks block last)
      (hback : back = '\n' :: next)
      (hnext : (Reader.ofSource (.ofList next)).next.1.lexeme.word? = none)
      (hrest : t.reader.rest = gap ++ '$' :: '-' :: (comment ++ back))
  /-- The line is a title that has begun, and the next line does not start with a word. -/
  | title {gap next : List Char} {written : String} (hgap : IsGap false gap) (hne : gap ≠ [])
      (hstage : t.stage = .titleLine written) (hback : back = '\n' :: next)
      (hnext : (Reader.ofSource (.ofList next)).next.1.lexeme.word? = none)
      (hrest : t.reader.rest = gap ++ '$' :: '-' :: (comment ++ back))
  /-- The line is in a block of text that has begun, and the block ends behind it even if
  its line break is not counted. -/
  | text {gap next : List Char} {use : TextUse} {written : String} {pending : Nat}
      (hgap : IsGap false gap) (hne : gap ≠ []) (hstage : t.stage = .textLine use written pending)
      (hback : back = '\n' :: next)
      (hnext : (Reader.ofSource (.ofList next)).next.1.lexeme.EndsText)
      (hrest : t.reader.rest = gap ++ '$' :: '-' :: (comment ++ back))

/-! ## 1. Behind the comment -/

theorem Stage.alike_refl {place : Nat → Nat → Prop} {stage : Stage}
    (h : ∀ word, stage = .heading word → place word.offset word.offset) :
    stage.Alike place stage := by
  cases stage with
  | heading word => exact .heading rfl (h word rfl)
  | _ => exact .same (by simp)

/-- The same text behind other text in the same line. -/
theorem alike_behind {source source' : String} {read read' rest : List Char}
    (h : source.toList = read ++ rest) (h' : source'.toList = read' ++ rest)
    (hline : (Position.behind ⟨1, 1⟩ read).line = (Position.behind ⟨1, 1⟩ read').line)
    {stage : Stage}
    (hheading : ∀ word, stage = .heading word →
      (Position.ofOffset source word.offset).line = (Position.ofOffset source' word.offset).line)
    (q : Quest) (wide : Bool) :
    Alike (fun m n => (Position.ofOffset source m).line = (Position.ofOffset source' n).line)
      (· = ·) (stage.run q ⟨rest, size read, wide⟩) (stage.run q ⟨rest, size read', wide⟩) := by
  have hbeside : Beside source source' ' ' [] ⟨rest, size read, wide⟩ ⟨rest, size read', wide⟩ :=
    .behind h h' hline (by simp)
  have hstage : stage.Alike (SamePlace source source' []) stage :=
    Stage.alike_refl fun word hword => ⟨hheading word hword, by simp⟩
  exact (Stage.run_alike (Beside.simulation rfl) hstage hbeside q).mono fun _ _ hplace => hplace.1

/-! ## 2. At the comment -/

/-- From before the comment, and from there in the source without it, both runs go
on from the same text. -/
structure State.Rejoins (comment back : List Char) (t : State) (front piece rest : List Char) :
    Prop where
  back_eq : back = piece ++ rest
  rest_eq : t.reader.rest = front ++ '$' :: '-' :: (comment ++ back)
  notInText : front = [] → t.stage.inText = false ∨ back = []
  run_eq : t.run = t.stage.run t.quest
    ⟨rest, t.reader.offset + size (front ++ '$' :: '-' :: (comment ++ piece)), t.reader.wide⟩
  run_facing_eq : (t.facing (front ++ back)).run = t.stage.run t.quest
    ⟨rest, t.reader.offset + size (front ++ piece), t.reader.wide⟩

section Rejoins

variable {comment back : List Char} {t : State} (hcomment : ∀ c ∈ comment, c ≠ '\n')

theorem eq_nil_or_newline {back : List Char} (hback : ∀ c ∈ back.head?, c = '\n') :
    back = [] ∨ ∃ next, back = '\n' :: next := by
  cases back with
  | nil => exact .inl rfl
  | cons c next => exact .inr ⟨next, by rw [hback c rfl]⟩

/-- The first token of the next line, wherever the line stands. -/
theorem lexeme_next_ofSource (next : List Char) (offset : Nat) :
    (⟨next, offset, false⟩ : Reader).next.1.lexeme =
      (Reader.ofSource (.ofList next)).next.1.lexeme := by
  rw [← String.toList_ofList (l := next), ← Reader.shift_ofSource, Reader.next_shift,
    String.ofList_toList]
  rfl

include hcomment

/-- A comment goes on in a comment. -/
theorem State.rejoins_inComment {gap text : List Char} (hgap : IsGap false gap)
    (htext : ∀ c ∈ text, c ≠ '\n')
    (hrest : t.reader.rest = gap ++ '$' :: '-' :: (text ++ '$' :: '-' :: (comment ++ back)))
    (hback : ∀ c ∈ back.head?, c = '\n') :
    ∃ piece rest, t.Rejoins comment back (gap ++ '$' :: '-' :: text) piece rest := by
  have hboth : ∀ c ∈ text ++ '$' :: '-' :: comment, c ≠ '\n' := by
    intro c hc
    rcases List.mem_append.1 hc with hc | hc
    · exact htext c hc
    · rcases List.mem_cons.1 hc with rfl | hc
      · decide
      · rcases List.mem_cons.1 hc with rfl | hc
        · decide
        · exact hcomment c hc
  have hne : gap ++ '$' :: '-' :: text ≠ [] := by simp
  have hrun : t.run = t.stage.run t.quest ⟨t.reader.rest, t.reader.offset, t.reader.wide⟩ := rfl
  have hfacing : (t.facing ((gap ++ '$' :: '-' :: text) ++ back)).run = t.stage.run t.quest
      ⟨(gap ++ '$' :: '-' :: text) ++ back, t.reader.offset, t.reader.wide⟩ := rfl
  obtain rfl | ⟨next, rfl⟩ := eq_nil_or_newline hback
  · refine ⟨[], [], rfl, by simp [hrest], fun h => absurd h hne, ?_, ?_⟩
    · have hopen := Stage.run_openComment hboth t.stage t.quest (t.reader.offset + size gap)
        t.reader.wide
      rw [hrun, hrest, Stage.run_gap hgap]
      simpa [Nat.add_assoc] using hopen
    · have hopen := Stage.run_openComment htext t.stage t.quest (t.reader.offset + size gap)
        t.reader.wide
      rw [hfacing, List.append_assoc, Stage.run_gap hgap]
      simpa [Nat.add_assoc] using hopen
  · refine ⟨['\n'], next, rfl, by simp [hrest], fun h => absurd h hne, ?_, ?_⟩
    · have hclosed := Stage.run_comment hboth t.stage t.quest next (t.reader.offset + size gap)
        t.reader.wide
      rw [hrun, hrest, Stage.run_gap hgap]
      simpa [Nat.add_assoc] using hclosed
    · have hclosed := Stage.run_comment htext t.stage t.quest next (t.reader.offset + size gap)
        t.reader.wide
      rw [hfacing, List.append_assoc, Stage.run_gap hgap]
      simpa [Nat.add_assoc] using hclosed

/-- On the last line, a comment is a gap. -/
theorem State.rejoins_lastLine {gap : List Char} (hgap : IsGap false gap)
    (hrest : t.reader.rest = gap ++ '$' :: '-' :: (comment ++ [])) :
    t.Rejoins comment [] gap [] [] := by
  have hrun : t.run = t.stage.run t.quest ⟨t.reader.rest, t.reader.offset, t.reader.wide⟩ := rfl
  refine ⟨rfl, hrest, fun _ => .inr rfl, ?_, ?_⟩
  · rw [hrun, hrest, Stage.run_gap hgap, List.append_nil, Stage.run_openComment hcomment,
      size_append, Nat.add_assoc]
  · rw [List.append_nil]
    show t.stage.run t.quest ⟨gap, t.reader.offset, t.reader.wide⟩ = _
    rw [← List.append_nil gap, Stage.run_gap hgap, List.append_nil]

/-- The newline that the comment takes along is not needed. -/
theorem State.rejoins_newline {gap next : List Char} (hgap : IsGap false gap)
    (hrest : t.reader.rest = gap ++ '$' :: '-' :: (comment ++ '\n' :: next))
    (htext : gap = [] → t.stage.inText = false)
    (hnewline : t.stage.run t.quest ⟨'\n' :: next, t.reader.offset + size gap, t.reader.wide⟩ =
      t.stage.run t.quest ⟨next, t.reader.offset + size gap + 1, t.reader.wide⟩) :
    t.Rejoins comment ('\n' :: next) gap ['\n'] next := by
  have hrun : t.run = t.stage.run t.quest ⟨t.reader.rest, t.reader.offset, t.reader.wide⟩ := rfl
  refine ⟨rfl, hrest, fun hnil => .inl (htext hnil), ?_, ?_⟩
  · rw [hrun, hrest, Stage.run_gap hgap, Stage.run_comment hcomment, size_append, Nat.add_assoc]
  · show t.stage.run t.quest ⟨gap ++ '\n' :: next, t.reader.offset, t.reader.wide⟩ = _
    rw [Stage.run_gap hgap, hnewline, size_append, Nat.add_assoc]
    rfl

/-- Where a comment is spared, the source has failed or both runs go on from the
same text. -/
theorem State.Spares.rejoins (h : t.Spares comment back) (hback : ∀ c ∈ back.head?, c = '\n')
    (hnarrow : t.reader.wide = false) :
    (∃ e others, t.move = .stop (.error e) ∧
        t.behind.rest = others ++ '$' :: '-' :: (comment ++ back)) ∨
      ∃ front piece rest, t.Rejoins comment back front piece rest := by
  cases h with
  | failed hmove hrest => exact .inl ⟨_, _, hmove, hrest⟩
  | inComment hgap htext hrest =>
    exact .inr ⟨_, State.rejoins_inComment hcomment hgap htext hrest hback⟩
  | lastLine hgap hnil hrest =>
    subst hnil
    exact .inr ⟨_, _, _, State.rejoins_lastLine hcomment hgap hrest⟩
  | between hgap hstage hrest =>
    obtain rfl | ⟨next, rfl⟩ := eq_nil_or_newline hback
    · exact .inr ⟨_, _, _, State.rejoins_lastLine hcomment hgap hrest⟩
    · exact .inr ⟨_, _, _, State.rejoins_newline hcomment hgap hrest
        (fun _ => Stage.inText_of_passesBreaks hstage) (Stage.run_newline hstage _ _ _ _)⟩
  | command hgap hstage hnewline hnext hrest =>
    subst hnewline
    refine .inr ⟨_, _, _, State.rejoins_newline hcomment hgap hrest (fun _ => by rw [hstage]; rfl) ?_⟩
    rw [hstage, hnarrow]
    exact Stage.run_arguments_newline (by rw [lexeme_next_ofSource, hnext]) _ _ _ _
  | title hgap hne hstage hnewline hnext hrest =>
    subst hnewline
    refine .inr ⟨_, _, _, State.rejoins_newline hcomment hgap hrest (fun h => absurd h hne) ?_⟩
    rw [hstage, hnarrow]
    exact Stage.run_titleLine_newline (by rw [lexeme_next_ofSource, hnext]) _ _
  | text hgap hne hstage hnewline hnext hrest =>
    subst hnewline
    refine .inr ⟨_, _, _, State.rejoins_newline hcomment hgap hrest (fun h => absurd h hne) ?_⟩
    rw [hstage, hnarrow]
    exact Stage.run_textLine_newline (by rwa [lexeme_next_ofSource]) _ _ _ _

end Rejoins

/-! ## 3. The whole source -/

theorem Reader.Within.offset_add_size {source front others back : List Char} {r : Reader}
    (h : r.Within source) (hsource : source = front ++ back) (hrest : r.rest = others ++ back) :
    r.offset + size others = size front := by
  obtain ⟨read, hread, hoffset⟩ := h
  rw [hsource, hrest, ← List.append_assoc] at hread
  rw [List.append_cancel_right hread, size_append, hoffset]

/-- What an error points at stands before the text behind its token. -/
theorem State.Placed.offset_error_le {source front others back : List Char} {t : State}
    {e : ParseError} (h : t.Placed source) (hmove : t.move = .stop (.error e))
    (hsource : source = front ++ back) (hrest : t.behind.rest = others ++ back) :
    e.offset ≤ size front := by
  obtain ⟨hnarrow, hcases⟩ := Stage.feed_error hmove
  obtain ⟨hnext, hbehind⟩ := token_of_narrow hnarrow
  have hsize := (within_behind h.within).offset_add_size hsource hrest
  have hle := t.reader.offset_next_le
  rw [← hnext, ← hbehind] at hle
  obtain ⟨expected, -, rfl, -⟩ | ⟨word, hstage, -, rfl, -⟩ := hcases
  · show t.token.offset ≤ size front
    omega
  · have hbefore := (h.heading word hstage).before
    obtain ⟨piece, -, hpiece⟩ := t.reader.exists_append_next
    rw [← hbehind] at hpiece
    show word.offset ≤ size front
    omega

section Source

variable {front comment back : List Char} {t : State}

/-- The source without a comment is read from the same states. -/
theorem State.run_start_eq {source source' : String} {front' : List Char}
    (h : source.toList = front ++ back)
    (h' : source'.toList = front ++ '$' :: '-' :: (comment ++ back))
    (hback : ∀ c ∈ back.head?, c = '\n') (hreach : (start source').Reaches t)
    (ht : t.reader.rest = front' ++ '$' :: '-' :: (comment ++ back))
    (htext : front' = [] → t.stage.inText = false ∨ back = []) :
    (start source).run = (t.facing (front' ++ back)).run := by
  have hparting : Parting ('$' :: '-' :: (comment ++ back)) back := ⟨rfl, hback⟩
  have hfacing := run_facing hparting hreach h' ht htext
  have hstart : (start source').facing (front ++ back) = start source := by
    rw [← h]
    rfl
  rw [← hstart, hfacing]

/-- Both runs go on from the same text in the same line. -/
theorem State.Rejoins.alike {source source' : String} {front' piece rest : List Char}
    (hrejoins : t.Rejoins comment back front' piece rest) (hcomment : ∀ c ∈ comment, c ≠ '\n')
    (h : source.toList = front ++ back)
    (h' : source'.toList = front ++ '$' :: '-' :: (comment ++ back))
    (hplaced : t.Placed source'.toList) :
    Alike (fun m n => (Position.ofOffset source m).line = (Position.ofOffset source' n).line)
      (· = ·) (t.facing (front' ++ back)).run t.run := by
  have hsize := hplaced.within.offset_add_size h' hrejoins.rest_eq
  have hline : (Position.behind ⟨1, 1⟩ (front ++ piece)).line =
      (Position.behind ⟨1, 1⟩ (front ++ '$' :: '-' :: (comment ++ piece))).line := by
    have hcommentLine : ∀ c ∈ '$' :: '-' :: comment, c ≠ '\n' := by
      simpa using hcomment
    have hassoc : front ++ '$' :: '-' :: (comment ++ piece) =
        front ++ ('$' :: '-' :: comment ++ piece) := rfl
    rw [hassoc, Position.behind_append, Position.behind_append, Position.behind_append]
    exact Position.line_behind_congr (Position.line_behind_of_forall_ne hcommentLine _).symm piece
  have hheading (word : Identifier) (hword : t.stage = .heading word) :
      (Position.ofOffset source word.offset).line =
        (Position.ofOffset source' word.offset).line := by
    have hbefore := (hplaced.heading word hword).before
    rw [Position.ofOffset_congr h h' (by omega)]
  have hread : source.toList = (front ++ piece) ++ rest := by
    rw [h, hrejoins.back_eq, List.append_assoc]
  have hread' : source'.toList = (front ++ '$' :: '-' :: (comment ++ piece)) ++ rest := by
    rw [h', hrejoins.back_eq]
    simp
  have halike := alike_behind hread hread' hline hheading t.quest t.reader.wide
  rw [hrejoins.run_eq, hrejoins.run_facing_eq, size_append, ← Nat.add_assoc, size_append,
    ← Nat.add_assoc, hsize, ← size_append, ← size_append]
  exact halike

/-- An error in front of the comment is found in both sources. -/
theorem State.alike_of_failed {source source' : String} {others : List Char} {e : ParseError}
    (h : source.toList = front ++ back)
    (h' : source'.toList = front ++ '$' :: '-' :: (comment ++ back))
    (hback : ∀ c ∈ back.head?, c = '\n') (hreach : (start source').Reaches t)
    (hplaced : t.Placed source'.toList) (hmove : t.move = .stop (.error e))
    (hrest : t.behind.rest = others ++ '$' :: '-' :: (comment ++ back)) :
    Alike (fun m n => (Position.ofOffset source m).line = (Position.ofOffset source' n).line)
      (· = ·) (start source).run t.run := by
  obtain ⟨piece, hpiece⟩ := t.exists_append_behind
  rw [hrest, ← List.append_assoc] at hpiece
  obtain ⟨hnarrow, hcases⟩ := Stage.feed_error hmove
  have hbreaks (count : Nat) : t.token.lexeme ≠ .lineBreaks count := by
    obtain ⟨expected, -, -, hbreaks⟩ | ⟨word, -, hscope, -⟩ := hcases
    · exact hbreaks count
    · simp [show t.token.lexeme = .identifier ":" from hscope]
  have hparting : Parting ('$' :: '-' :: (comment ++ back)) back := ⟨rfl, hback⟩
  have hfacing := move_facing hparting hpiece hrest fun _ => .inl hbreaks
  have htext : t.stage.inText = false := by
    revert hnarrow
    cases t.stage <;> first | exact fun _ => rfl | exact fun h => nomatch h
  rw [run_start_eq h h' hback hreach hpiece fun _ => .inl htext,
    run_of_stop (hfacing.trans hmove), run_of_stop hmove]
  have hle := hplaced.offset_error_le hmove h' hrest
  exact ⟨rfl, congrArg Position.line (Position.ofOffset_congr h h' hle)⟩

/-- **A comment at the end of a line, where it does not matter.** If the source with
the comment is read to a state that spares it, the source without it makes the same
quest, or fails with the same fault in the same line. -/
theorem Quest.parse_trailing_comment (hcomment : ∀ c ∈ comment, c ≠ '\n')
    (hback : ∀ c ∈ back.head?, c = '\n')
    (hreach : (State.start (.ofList (front ++ (trailingComment comment ++ back)))).Reaches t)
    (ht : t.Spares comment back) :
    SameOutcome Position.line (.ofList (front ++ back))
      (.ofList (front ++ (trailingComment comment ++ back))) := by
  -- The blank in front of the comment is set first: it makes no difference anywhere.
  have hblank : SameOutcome Position.line (.ofList (front ++ back))
      (.ofList (front ++ ([' '] ++ back))) :=
    .insert_end hback (by simp [isBlank]) front
  refine hblank.trans ?_
  generalize hsource : String.ofList (front ++ ([' '] ++ back)) = source
  generalize hsource' : String.ofList (front ++ (trailingComment comment ++ back)) = source'
    at hreach ⊢
  have h : source.toList = (front ++ [' ']) ++ back := by
    rw [← hsource, String.toList_ofList, List.append_assoc]
  have h' : source'.toList = (front ++ [' ']) ++ '$' :: '-' :: (comment ++ back) := by
    rw [← hsource', String.toList_ofList, List.append_assoc]
    rfl
  have hplaced : t.Placed source'.toList :=
    hreach.invariant State.Placed.step (State.placed_start source')
  unfold SameOutcome
  rw [Quest.parse_eq_run, Quest.parse_eq_run, hreach.run_eq]
  obtain ⟨e, others, hmove, hrest⟩ | ⟨front', piece, rest, hrejoins⟩ :=
    ht.rejoins hcomment hback hplaced.narrow
  · exact State.alike_of_failed h h' hback hreach hplaced hmove hrest
  · rw [State.run_start_eq h h' hback hreach hrejoins.rest_eq hrejoins.notInText]
    exact hrejoins.alike hcomment h h' hplaced

end Source

/-- Behind a command, before an empty line. -/
theorem parse_trailing_comment_blank_line :
    ∃ t, (State.start "qst :\na 1 $- first\n\nb 2\n").Reaches t ∧
      t.Spares " first".toList "\n\nb 2\n".toList ∧
      SameOutcome Position.line "qst :\na 1\n\nb 2\n" "qst :\na 1 $- first\n\nb 2\n" := by
  have hreach : (State.start "qst :\na 1 $- first\n\nb 2\n").Reaches
      ⟨{}, .arguments [] (.entryPoint []) ⟨"a", ["1"]⟩, ⟨" $- first\n\nb 2\n".toList, 9, false⟩⟩ :=
    .step rfl (.step rfl (.step rfl (.step rfl (.step rfl (.refl _)))))
  have hspares : State.Spares " first".toList "\n\nb 2\n".toList
      ⟨{}, .arguments [] (.entryPoint []) ⟨"a", ["1"]⟩, ⟨" $- first\n\nb 2\n".toList, 9, false⟩⟩ :=
    .command (.blank (show isBlank ' ' = true from rfl) .nil) rfl rfl (by decide) rfl
  have hsource : String.ofList ("qst :\na 1".toList ++ "\n\nb 2\n".toList) =
      "qst :\na 1\n\nb 2\n" := by decide
  have hsource' : String.ofList ("qst :\na 1".toList ++
      (trailingComment " first".toList ++ "\n\nb 2\n".toList)) =
      "qst :\na 1 $- first\n\nb 2\n" := by decide
  refine ⟨_, hreach, hspares, ?_⟩
  rw [← hsource'] at hreach
  rw [← hsource, ← hsource']
  exact Quest.parse_trailing_comment (by simp) (by simp) hreach hspares

/-- A comment cannot be added to every line. Behind a command it joins the next
line to it. -/
theorem trailing_comment_matters :
    ¬ ∀ front comment back : List Char, (∀ c ∈ comment, c ≠ '\n') →
      (∀ c ∈ back.head?, c = '\n') →
      SameOutcome Position.line (.ofList (front ++ back))
        (.ofList (front ++ (trailingComment comment ++ back))) := by
  intro h
  have hjoined := h "qst :\nmessage 5".toList " c".toList "\nsound 2\n".toList (by simp)
    (by simp)
  have hapart : Quest.parse "qst :\nmessage 5\nsound 2\n" =
      .ok { tasks := [.entryPoint [⟨"message", ["5"]⟩, ⟨"sound", ["2"]⟩]] } :=
    Quest.parse_of_runFor (n := 20) (by cbv)
  have htogether : Quest.parse "qst :\nmessage 5 $- c\nsound 2\n" =
      .ok { tasks := [.entryPoint [⟨"message", ["5", "sound", "2"]⟩]] } :=
    Quest.parse_of_runFor (n := 20) (by cbv)
  have hsource : String.ofList ("qst :\nmessage 5".toList ++ "\nsound 2\n".toList) =
      "qst :\nmessage 5\nsound 2\n" := by decide
  have hsource' : String.ofList ("qst :\nmessage 5".toList ++
      (trailingComment " c".toList ++ "\nsound 2\n".toList)) =
      "qst :\nmessage 5 $- c\nsound 2\n" := by decide
  rw [hsource, hsource', SameOutcome, hapart, htogether] at hjoined
  have hcount := congrArg (fun q => q.tasks.map (·.commands.length)) hjoined
  simp [Task.entryPoint] at hcount

end Questbook
