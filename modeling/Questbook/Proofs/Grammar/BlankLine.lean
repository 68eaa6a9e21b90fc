/-
Questbook.Proofs.Grammar.BlankLine — blank lines end the texts of a quest.

The briefing of a quest and the contents of its resources are blocks of text that are read
somewhere in the source (`Quest.texts_of_parse`): every loop of the grammar goes on at a
place further down in the same source. So what is known of the blocks of a source is known
of these texts.

A block ends at its first blank line. The exception is a blank line right behind a comment,
one newline of which the comment takes along. `textBlock_ends_at_blankLine` says that this
is the only one, and `blankLine_not_kept` has a source where it shows.
-/
import Questbook.Proofs.Grammar.Shape
import Questbook.Proofs.Reader.BlankLine

namespace Questbook

open Text Extent

/-- The text is that of a block somewhere in the source. -/
def IsBlockText (source : List Char) (text : String) : Prop :=
  ∃ r : Reader, r.rest <:+ source ∧ r.textBlock.1 = text

/-- The texts of the directive are those of blocks of the source. -/
def Directive.Quotes (source : List Char) : Directive → Prop
  | .briefing text => IsBlockText source text
  | .resources entries => ∀ e ∈ entries, IsBlockText source e.2.content
  | _ => True

/-- The texts of the quest are those of blocks of the source. -/
structure Quest.Quotes (source : List Char) (q : Quest) : Prop where
  briefing : IsBlockText source q.briefing
  resources : ∀ e ∈ q.resources.entries, IsBlockText source e.2.content

/-! ## 1. Further down in the source -/

namespace Reader

variable {source : List Char} {r last : Reader}

theorem suffix_next (h : r.rest <:+ source) : r.next.2.rest <:+ source :=
  r.rest_next_suffix.trans h

theorem suffix_skipBreaks (h : r.rest <:+ source) : r.skipBreaks.rest <:+ source := by
  fun_induction skipBreaks r with
  | case1 r count hcount ih => exact ih (suffix_next h)
  | case2 r hno => exact h

theorem suffix_words (h : r.rest <:+ source) : r.words.2.rest <:+ source := by
  fun_induction words r with
  | case1 r word hword others last heq ih =>
    rw [heq] at ih
    exact ih (suffix_next h)
  | case2 r hword => exact h

theorem suffix_blockLines (h : r.rest <:+ source) (pending : Nat) :
    (r.blockLines pending).2.rest <:+ source := by
  fun_induction blockLines pending r with
  | case1 pending r word hword others last heq ih =>
    rw [heq] at ih
    exact ih (suffix_next h)
  | case2 pending r hword hend => exact h
  | case3 pending r hword hend hblank => exact suffix_next h
  | case4 pending r hword hend hblank ih => exact ih (suffix_next h)

theorem suffix_textLine (h : r.rest <:+ source) : r.textLine.2.rest <:+ source :=
  suffix_words (r := { r.skipBreaks with wide := true }) (suffix_skipBreaks h)

theorem suffix_textBlock (h : r.rest <:+ source) : r.textBlock.2.rest <:+ source :=
  suffix_blockLines (r := { r.skipBreaks with wide := true }) (suffix_skipBreaks h) 0

theorem suffix_onward_take {α : Type} {expected : String} {accept : Token → Option α} {a : α}
    (h : r.rest <:+ source) (htake : onward (r.take expected accept) = .ok (a, last)) :
    last.rest <:+ source := by
  rw [onward_take] at htake
  split at htake
  · cases htake
    exact suffix_next (suffix_skipBreaks h)
  · cases htake

theorem suffix_commands (h : r.rest <:+ source) : r.commands.2.rest <:+ source := by
  fun_induction commands r with
  | case1 r command last hcommand others last' heq ih =>
    rw [heq] at ih
    refine ih ?_
    unfold command? at hcommand
    split at hcommand
    · split at hcommand
      · cases hcommand
      · cases hcommand
        exact suffix_skipBreaks (suffix_words (suffix_next h))
    · cases hcommand
  | case2 r hno => exact h

theorem suffix_block {isEvent : Bool} {task : Task} (h : r.rest <:+ source)
    (hblock : r.block isEvent = .ok (task, last)) : last.rest <:+ source := by
  unfold block at hblock
  cases hname : onward r.identifier with
  | error e => simp [hname, bind, Except.bind] at hblock
  | ok name =>
    cases hmark : onward (name.2.expect scope) with
    | error e => simp [hname, hmark, bind, Except.bind] at hblock
    | ok mark =>
      simp only [hname, hmark, bind, Except.bind, pure, Except.pure, Except.ok.injEq,
        Prod.mk.injEq] at hblock
      rw [← hblock.2]
      exact suffix_commands (suffix_skipBreaks (suffix_onward_take (suffix_onward_take h hname) hmark))

theorem suffix_block? {task : Task} (h : r.rest <:+ source)
    (hblock : r.block? = .ok (some (task, last))) : last.rest <:+ source := by
  unfold block? at hblock
  split at hblock
  · split at hblock
    · next isEvent _ =>
      cases hfound : r.next.2.block isEvent with
      | error e => simp [hfound, Except.map] at hblock
      | ok found =>
        simp only [hfound, Except.map, Except.ok.injEq, Option.some.injEq] at hblock
        exact suffix_block (suffix_next h) (hblock ▸ hfound)
    · cases hblock
  · cases hblock

/-! ## 2. Texts -/

theorem resource_quotes {kind : ResourceKind} {e : Int64 × Resource} (h : r.rest <:+ source)
    (hentry : r.resource kind = .ok (e, last)) :
    IsBlockText source e.2.content ∧ last.rest <:+ source := by
  unfold resource at hentry
  cases hmark : onward (r.expect scope) with
  | error e => simp [hmark, bind, Except.bind] at hentry
  | ok mark =>
    cases hid : onward mark.2.number with
    | error e => simp [hmark, hid, bind, Except.bind] at hentry
    | ok id =>
      simp only [hmark, hid, bind, Except.bind, pure, Except.pure, Except.ok.injEq,
        Prod.mk.injEq] at hentry
      obtain ⟨rfl, rfl⟩ := hentry
      have hid' := suffix_onward_take (suffix_onward_take h hmark) hid
      exact ⟨⟨id.2, hid', rfl⟩, suffix_skipBreaks (suffix_textBlock hid')⟩

theorem resource?_quotes {e : Int64 × Resource} (h : r.rest <:+ source)
    (hentry : r.resource? = .ok (some (e, last))) :
    IsBlockText source e.2.content ∧ last.rest <:+ source := by
  unfold resource? at hentry
  split at hentry
  · split at hentry
    · next kind _ =>
      cases hfound : r.next.2.resource kind with
      | error e => simp [hfound, Except.map] at hentry
      | ok found =>
        simp only [hfound, Except.map, Except.ok.injEq, Option.some.injEq] at hentry
        exact resource_quotes (suffix_next h) (hentry ▸ hfound)
    · cases hentry
  · cases hentry

/-- What each item of a loop keeps, the whole loop keeps. -/
theorem list_invariant {α : Type} {item : Reader → Except ParseError (Option (α × Reader))}
    {shorter : ∀ {r a last}, item r = .ok (some (a, last)) → last.rest.length < r.rest.length}
    {P : Reader → Prop} {Q : α → Prop}
    (hitem : ∀ {r last : Reader} {a : α}, P r → item r = .ok (some (a, last)) → Q a ∧ P last)
    (h : P r) :
    (∀ a ∈ (r.list item shorter).items, Q a) ∧
      ∀ last, (r.list item shorter).ending = .ok last → P last := by
  fun_induction list item shorter r with
  | case1 r e he => exact ⟨by simp, by simp⟩
  | case2 r hnone => exact ⟨by simp, by rintro last ⟨⟩; exact h⟩
  | case3 r a last hsome others ih =>
    obtain ⟨ha, hlast⟩ := hitem h hsome
    obtain ⟨hothers, hending⟩ := ih hlast
    exact ⟨List.forall_mem_cons.2 ⟨ha, hothers⟩, hending⟩

theorem body_quotes (h : r.rest <:+ source) (heading : Identifier) :
    (∀ d ∈ (r.body heading).items, d.Quotes source) ∧
      ∀ last, (r.body heading).ending = .ok last → last.rest <:+ source := by
  unfold body
  split
  · exact ⟨by simp [Directive.Quotes], by rintro last ⟨⟩; exact suffix_textLine h⟩
  · refine ⟨?_, by rintro last ⟨⟩; exact suffix_textBlock h⟩
    exact List.forall_mem_singleton.2 ⟨r, h, rfl⟩
  · have hentries : (∀ e ∈ r.skipBreaks.resources.items, IsBlockText source e.2.content) ∧
        ∀ last, r.skipBreaks.resources.ending = .ok last → last.rest <:+ source :=
      list_invariant resource?_quotes (suffix_skipBreaks h)
    exact ⟨List.forall_mem_singleton.2 hentries.1, hentries.2⟩
  · have hblocks : (∀ task ∈ r.skipBreaks.commands.2.blocks.items, True) ∧
        ∀ last, r.skipBreaks.commands.2.blocks.ending = .ok last → last.rest <:+ source :=
      list_invariant (fun h hblock => ⟨trivial, suffix_block? h hblock⟩)
        (suffix_commands (suffix_skipBreaks h))
    exact ⟨by simp [Directive.Quotes], hblocks.2⟩
  · exact ⟨by simp, by simp⟩

theorem directive_quotes (h : r.rest <:+ source) :
    (∀ d ∈ r.directive.items, d.Quotes source) ∧
      ∀ last, r.directive.ending = .ok last → last.rest <:+ source := by
  unfold directive
  split
  · exact ⟨by simp, by simp⟩
  · next word behind hword =>
    have hbehind := suffix_onward_take h hword
    split
    · exact ⟨by simp [Directive.Quotes], by rintro last ⟨⟩; exact hbehind⟩
    · split
      · exact ⟨by simp, by simp⟩
      · next hmark => exact body_quotes (suffix_onward_take hbehind hmark) word

theorem directives_quotes (h : r.rest <:+ source) : ∀ d ∈ r.directives.items, d.Quotes source := by
  fun_induction directives r with
  | case1 r hend => simp
  | case2 r hend e hending => exact (directive_quotes (suffix_skipBreaks h)).1
  | case3 r hend last hending others ih =>
    obtain ⟨hitems, hlast⟩ := directive_quotes (suffix_skipBreaks h)
    exact List.forall_mem_append.2 ⟨hitems, ih (hlast last hending)⟩

end Reader

theorem Quest.Quotes.applyTo {source : List Char} {q : Quest} {d : Directive}
    (h : q.Quotes source) (hd : d.Quotes source) : (d.applyTo q).Quotes source := by
  cases d with
  | flag text offset =>
    simp only [Directive.applyTo]
    split
    · exact ⟨h.briefing, h.resources⟩
    · exact h
  | title text => exact ⟨h.briefing, h.resources⟩
  | briefing text => exact ⟨hd, h.resources⟩
  | resources entries => exact ⟨h.briefing, fun e he => hd e (Table.mem_of_mem_ofList he)⟩
  | stages opening blocks => exact ⟨h.briefing, h.resources⟩

/-- **The texts of a quest are blocks of its source.** -/
theorem Quest.texts_of_parse {source : String} {q : Quest} (h : Quest.parse source = .ok q) :
    q.Quotes source.toList := by
  have hfoldl (ds : List Directive) {q : Quest} (hq : q.Quotes source.toList)
      (hds : ∀ d ∈ ds, d.Quotes source.toList) :
      (ds.foldl Directive.applyTo q).Quotes source.toList := by
    induction ds generalizing q with
    | nil => exact hq
    | cons d ds ih =>
      obtain ⟨hd, hds⟩ := List.forall_mem_cons.1 hds
      exact ih (hq.applyTo hd) hds
  have hempty : Quest.Quotes source.toList {} :=
    ⟨⟨⟨[], 0, false⟩, List.nil_suffix, by cbv⟩, by rintro e ⟨⟩⟩
  rw [Quest.parse_eq, Run.quest] at h
  cases hending : (Reader.ofSource source).directives.ending with
  | error e =>
    rw [hending] at h
    cases h
  | ok last =>
    rw [hending] at h
    cases h
    exact hfoldl _ hempty (Reader.directives_quotes List.suffix_rfl)

/-! ## 3. Blank lines -/

theorem IsBlockText.noEmptyLine {source : List Char} {text : String} (h : IsBlockText source text)
    (hsource : hasMarkedBlankLine source = false) : NoEmptyLine text.toList := by
  obtain ⟨r, hr, rfl⟩ := h
  have hstart := hasMarkedBlankLine_suffix hsource (Reader.suffix_skipBreaks hr)
  exact Reader.noEmptyLine_textBlock hstart

/-- **A blank line ends a block of text**, but for one right behind a comment.

Where a block starts, its text up to the first blank line has no empty line in it, and it
is the text of the block, with the reader behind the blank line, if and only if it does not
end in a comment with no more than one blank line behind it. (If there is nothing to read
behind the blank line, it makes no difference.) No block has an empty line in it as long as
no blank line stands right behind the line of a comment. The texts of a quest are blocks of
its source, so the same holds of them. -/
theorem textBlock_ends_at_blankLine (r : Reader) (source : String) :
    (hasBlankLine r.skipBreaks.toToken.rest = true →
      ∃ front breaks back, FirstBlankLine r.skipBreaks.toToken.rest front breaks back) ∧
    (∀ front breaks back, FirstBlankLine r.skipBreaks.toToken.rest front breaks back →
      NoEmptyLine (r.skipBreaks.toToken.withRest front).textBlock.1.toList ∧
      ((r.textBlock.1 = (r.skipBreaks.toToken.withRest front).textBlock.1 ∧
          r.textBlock.2.rest = back) ↔
        ¬(EndsInComment (r.skipBreaks.toToken.withRest front).textBlock.2.rest ∧
            breaks.count '\n' = 2) ∨ (splitGap false back).2 = [])) ∧
    (hasMarkedBlankLine r.skipBreaks.rest = false → NoEmptyLine r.textBlock.1.toList) ∧
    ∀ q, Quest.parse source = .ok q → q.Quotes source.toList ∧
      (hasMarkedBlankLine source.toList = false →
        NoEmptyLine q.briefing.toList ∧
          ∀ e ∈ q.resources.entries, NoEmptyLine e.2.content.toList) := by
  refine ⟨exists_firstBlankLine, fun front breaks back h => ⟨?_, ?_⟩, ?_, ?_⟩
  · have hblock : IsBlockText front (r.skipBreaks.toToken.withRest front).textBlock.1 :=
      ⟨r.skipBreaks.toToken.withRest front, List.suffix_rfl, rfl⟩
    exact hblock.noEmptyLine (hasMarkedBlankLine_of_hasBlankLine h.hasBlankLine_front)
  · exact Reader.textBlock_of_firstBlankLine h
  · exact fun h => Reader.noEmptyLine_textBlock h
  · intro q hparse
    have htexts := Quest.texts_of_parse hparse
    exact ⟨htexts, fun hsource => ⟨htexts.briefing.noEmptyLine hsource,
      fun e he => (htexts.resources e he).noEmptyLine hsource⟩⟩

/-- Two blank lines stand behind the comment, so that the second of them ends the text. The
briefing of the quest has a comment too, but no blank line behind it. -/
theorem textBlock_ends_at_blankLine_shore :
    (⟨"\nThe shore\nat (dusk\n$- low tide\n\n\nqst : \n".toList, 10, false⟩ :
        Reader).textBlock.2.rest = "qst : \n".toList ∧
      ∃ q, Quest.parse "briefing :\nThe shore\n$- low tide\nat dusk\n\nqst :\n" = .ok q ∧
        q.briefing = "The shore\nat dusk" ∧ NoEmptyLine q.briefing.toList := by
  obtain ⟨r, hr⟩ : ∃ r : Reader, r = ⟨"\nThe shore\nat (dusk\n$- low tide\n\n\nqst : \n".toList, 10,
      false⟩ := ⟨_, rfl⟩
  have hskip : r.skipBreaks.toToken.rest =
      "The shore\nat (dusk\n$- low tide\n\n\nqst : \n".toList := by
    rw [hr, (@Reader.skipBreaks_of_lineBreaks _ 1 rfl).trans
      (Reader.skipBreaks_of_opensWord rfl 11 false)]
    rfl
  have hfirst : FirstBlankLine r.skipBreaks.toToken.rest
      "The shore\nat (dusk\n$- low tide".toList "\n\n\n".toList "qst : \n".toList :=
    ⟨by rw [hskip]; rfl, by decide, ⟨rfl, by simp [isSpacing], by decide⟩, by decide⟩
  have hthree : "\n\n\n".toList.count '\n' ≠ 2 := by decide
  have hparse : Quest.parse "briefing :\nThe shore\n$- low tide\nat dusk\n\nqst :\n" =
      .ok { briefing := "The shore\nat dusk" } :=
    Quest.parse_of_runFor (n := 14) rfl
  obtain ⟨-, hblock, -, hquest⟩ := textBlock_ends_at_blankLine r
    "briefing :\nThe shore\n$- low tide\nat dusk\n\nqst :\n"
  rw [← hr]
  exact ⟨((hblock _ _ _ hfirst).2.2 (.inl fun hcomment => hthree hcomment.2)).2,
    _, hparse, rfl, ((hquest _ hparse).2 (by decide +kernel)).1⟩

/-- The newline that the comment takes along is missing to the blank line. -/
theorem blankLine_not_kept :
    ¬∀ source q, Quest.parse source = .ok q → NoEmptyLine q.briefing.toList := by
  intro h
  have hparse : Quest.parse "briefing :\na\n$- c\n\ntitle : T\n" =
      .ok { briefing := "a\n\ntitle:T" } :=
    Quest.parse_of_runFor (n := 12) rfl
  exact absurd (h _ _ hparse) (by decide)

end Questbook
