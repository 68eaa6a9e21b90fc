/-
Questbook.Proofs.Grammar.Ahead — two runs side by side, up to where their texts
part.

Two sources that begin alike are read alike, as long as no token reaches to where
they part (`State.run_facing`). There is one token that may: a run of line breaks
that ends right before a comment in the first source goes on in the second, where
the line ends instead. Then more line breaks come in one token, and the machine
gets to the same stage all the same, unless it is in a text, where it counts them
(`Stage.feed_of_lineBreaks_le`).
-/
import Questbook.Proofs.Grammar.Passed
import Questbook.Proofs.Reader.Ahead

namespace Questbook

open Text Extent

namespace Stage

/-! ## 1. More line breaks -/

/-- In a text that has begun, the number of line breaks counts. -/
def inText : Stage → Bool
  | titleLine _ | textLine .. => true
  | _ => false

theorem inText_of_passesBreaks {stage : Stage} (h : stage.passesBreaks = true) :
    stage.inText = false := by
  cases stage <;> first | rfl | cases h

/-- Where line breaks lead out of a text, more of them lead there too. -/
theorem feed_of_lineBreaks_le {stage stage' : Stage} {q q' : Quest} {t t' : Token}
    {count count' : Nat} (h : stage.feed q t = .on q' stage') (htext : stage'.inText = false)
    (ht : t.lexeme = .lineBreaks count) (ht' : t'.lexeme = .lineBreaks count')
    (hle : count ≤ count') : stage'.passesBreaks = true ∧ stage.feed q t' = .on q' stage' := by
  have hblank (use : TextUse) (written : String) (pending : Nat)
      (hstage : stage = textLine use written pending) : 2 ≤ count := by
    rcases Nat.lt_or_ge count 2 with hcount | hcount
    · rw [hstage, feed_textLine_of_lt ht hcount] at h
      cases h
      cases htext
    · exact hcount
  obtain ⟨f, next, hpass, hfeed⟩ := exists_feed_lineBreaks stage
  rw [hfeed q t count ht hblank] at h
  cases h
  refine ⟨hpass, hfeed q t' count' ht' ?_⟩
  intro use written pending hstage
  exact Nat.le_trans (hblank use written pending hstage) hle

end Stage

namespace State

variable {s t : State} {front front' others back back' : List Char}

/-! ## 2. The machine before another text -/

/-- The same state with another text to read. -/
def facing (s : State) (rest : List Char) : State :=
  { s with reader := { s.reader with rest } }

theorem token_facing (h : Parting back back') (hfront : s.reader.rest = front ++ back)
    (hrest : s.behind.rest = others ++ back)
    (hbreaks : others = [] → (∀ count, s.token.lexeme ≠ .lineBreaks count) ∨ back' = []) :
    (s.facing (front ++ back')).token = s.token ∧
      (s.facing (front ++ back')).behind = { s.behind with rest := others ++ back' } := by
  rw [behind, Stage.read_eq] at hrest
  rw [token, Stage.read_eq] at hbreaks
  have hnext : (s.stage.tune { s.reader with rest := front ++ back' }).next = _ :=
    Reader.next_ahead h (r := s.stage.tune s.reader) hfront hrest hbreaks
  simp only [token, behind, facing, Stage.read_eq, hnext, and_self]

theorem move_facing (h : Parting back back') (hfront : s.reader.rest = front ++ back)
    (hrest : s.behind.rest = others ++ back)
    (hbreaks : others = [] → (∀ count, s.token.lexeme ≠ .lineBreaks count) ∨ back' = []) :
    (s.facing (front ++ back')).move = s.move := by
  show s.stage.feed s.quest (s.facing (front ++ back')).token = _
  rw [(token_facing h hfront hrest hbreaks).1]
  rfl

/-- A run of line breaks that ends where the texts part may go on in the other
text. What is more of it there is passed over. -/
theorem run_facing_lineBreaks (h : Parting back back') (hfront : s.reader.rest = front ++ back)
    {q : Quest} {stage : Stage} (hmove : s.move = .on q stage) (htext : stage.inText = false)
    (hrest : s.behind.rest = back) {count : Nat} (hcount : s.token.lexeme = .lineBreaks count) :
    (s.facing (front ++ back')).run = run ⟨q, stage, { s.behind with rest := back' }⟩ := by
  have hword : (s.stage.read s.reader).1.lexeme.word? = none := by
    show s.token.lexeme.word? = none
    rw [hcount]
    rfl
  have hread := Stage.read_eq_next hword
  have htoken : s.token = s.reader.next.1 := congrArg Prod.fst hread
  have hbehind : s.behind = s.reader.next.2 := congrArg Prod.snd hread
  obtain ⟨rest, hnewline⟩ : ∃ rest, (splitGap false s.reader.rest).2 = '\n' :: rest := by
    rw [htoken] at hcount
    exact Reader.cutToken_eq_lineBreaks hcount
  have hstart : s.reader.toToken = ⟨'\n' :: rest, s.reader.toToken.offset, s.reader.wide⟩ := by
    simp [Reader.toToken, Reader.pass, hnewline]
  rw [← Reader.next_toToken, hstart, Reader.next_newline] at htoken hbehind
  generalize hbreaks : rest.takeWhile isSpacing = breaks at htoken hbehind
  have hspacing : ∀ c ∈ breaks, isSpacing c = true := by
    rw [← hbreaks]
    exact fun c hc => List.all_eq_true.1 List.all_takeWhile c hc
  rw [hbehind] at hrest
  have hsplit : (splitGap false (front ++ back)).2 = '\n' :: breaks ++ back := by
    rw [← hfront, hnewline, ← hbreaks, ← hrest, List.cons_append, List.takeWhile_append_dropWhile]
  have hgap := h.splitGap_ahead (List.cons_ne_nil _ _) hsplit
  have hstart' : ({ s.reader with rest := front ++ back' } : Reader).toToken =
      (⟨'\n' :: (breaks ++ back'), s.reader.toToken.offset, s.reader.wide⟩ : Reader).toToken := by
    rw [← Reader.toToken_toToken]
    simp [Reader.toToken, Reader.pass, hgap, hfront]
  have hmore : breaks.count '\n' + 1 ≤ ((breaks ++ back').takeWhile isSpacing).count '\n' + 1 := by
    rw [List.takeWhile_append_of_pos hspacing, List.count_append]
    omega
  rw [move, htoken] at hmove
  obtain ⟨hpass, hfeed⟩ := @Stage.feed_of_lineBreaks_le _ _ _ _ _ ⟨_, s.reader.toToken.offset⟩ _ _
    hmove htext rfl rfl hmore
  show s.stage.run s.quest { s.reader with rest := front ++ back' } =
    stage.run q { s.behind with rest := back' }
  rw [Stage.run_congr hstart', Stage.run_lineBreaks hfeed, hbehind, ← Nat.add_assoc,
    Stage.run_dropWhile hpass, Stage.run_spacing hpass hspacing, Nat.add_assoc]

theorem exists_append_behind (s : State) : ∃ piece, s.reader.rest = piece ++ s.behind.rest := by
  rw [behind, Stage.read_eq]
  obtain ⟨piece, hpiece, -⟩ := (s.stage.tune s.reader).exists_append_next
  exact ⟨piece, hpiece⟩

/-- As long as the whole of `back` is unread, it stands behind what is unread of
the front. -/
theorem exists_behind_eq_append (hfront : s.reader.rest = front ++ back)
    (hle : back.length ≤ s.behind.rest.length) : ∃ others, s.behind.rest = others ++ back := by
  obtain ⟨piece, hpiece⟩ := s.exists_append_behind
  rw [hfront] at hpiece
  obtain ⟨others, -, hothers⟩ | ⟨others, -, hothers⟩ := List.append_eq_append_iff.1 hpiece.symm
  · exact ⟨others, hothers⟩
  · have hlength := congrArg List.length hothers
    rw [List.length_append] at hlength
    have hnil : others = [] := List.length_eq_zero_iff.1 (by omega)
    exact ⟨[], by rw [hothers, hnil]; rfl⟩

/-- **Two runs side by side.** A run that leaves the whole of `back` unread gets to
the same state before the other text. -/
theorem run_facing (h : Parting back back') (hreach : s.Reaches t)
    (hs : s.reader.rest = front ++ back) (ht : t.reader.rest = front' ++ back)
    (htext : front' = [] → t.stage.inText = false ∨ back' = []) :
    (s.facing (front ++ back')).run = (t.facing (front' ++ back')).run := by
  induction hreach generalizing front with
  | refl s =>
    rw [hs] at ht
    rw [List.append_cancel_right ht]
  | @step s t q stage hmove hlast ih =>
    have hle := hlast.length_le
    rw [ht, List.length_append] at hle
    obtain ⟨others, hothers⟩ := exists_behind_eq_append hs (by simp only at hle; omega)
    by_cases hbreaks : others = [] → (∀ count, s.token.lexeme ≠ .lineBreaks count) ∨ back' = []
    · have hmove' := move_facing h hs hothers hbreaks
      rw [hmove] at hmove'
      rw [run_of_on hmove', (token_facing h hs hothers hbreaks).2]
      exact ih hothers ht htext
    · -- The run of line breaks ends right before `back`, and so does this run.
      simp only [Classical.not_imp, not_or, Classical.not_forall, Classical.not_not] at hbreaks
      obtain ⟨rfl, ⟨count, hcount⟩, hback⟩ := hbreaks
      cases hlast with
      | refl =>
        rw [hothers] at ht
        obtain rfl : front' = [] := (List.append_cancel_right ht).symm
        exact run_facing_lineBreaks h hs hmove ((htext rfl).resolve_right hback) hothers hcount
      | step hmove' hlast' =>
        have hlt := length_behind_lt hmove'
        have hle' := hlast'.length_le
        rw [ht, List.length_append] at hle'
        simp only [hothers, List.nil_append] at hlt hle'
        omega

end State

end Questbook
