/-
Questbook.Proofs.Reader.Seam — a text that ends in a newline, and what stands behind
it.

What stands behind a text can change how its end is read: a word may go on there, and
so may a comment or a run of line breaks. If the text ends in a newline, no word goes
on behind it. So a token that is taken before the last newline is the same whatever
follows (`Reader.next_extend`), and only the newline itself can be read in three ways
(`Reader.Seam`): a comment takes it along, or it belongs to the line breaks that come
next, which may go on behind the text, or another token comes first.

Therefore the tokens of such a text and of what stands behind it are those of the
first and then those of the second, but for line breaks at the seam
(`Reader.exists_tokens_append`).
-/
import Questbook.Proofs.Reader.Coverage
import Questbook.Proofs.Reader.Pieces

namespace Questbook

open Text Extent

/-! ## 1. Blank lines and comments -/

/-- Every mark of a comment has a newline behind it. -/
def ClosesComments (cs : List Char) : Prop :=
  ∀ front back, cs = front ++ '$' :: '-' :: back → '\n' ∈ back

/-- So it is if there is no mark of a comment. -/
theorem ClosesComments.of_not_mem {cs : List Char} (h : '$' ∉ cs) : ClosesComments cs := by
  rintro front back rfl
  exact absurd (by simp) h

/-- A gap and behind it a comment that no newline ends. -/
def EndsInComment (cs : List Char) : Prop :=
  ∃ gap text, IsGap false gap ∧ (∀ c ∈ text, c ≠ '\n') ∧ cs = gap ++ '$' :: '-' :: text

/-- Two newlines or more, and blanks between and behind them. -/
structure IsBlankLine (breaks : List Char) : Prop where
  head : breaks.head? = some '\n'
  spacing : ∀ c ∈ breaks, isSpacing c = true
  count : 2 ≤ breaks.count '\n'

theorem ClosesComments.of_append {front cs : List Char} (h : ClosesComments (front ++ cs)) :
    ClosesComments cs := by
  intro front' back hback
  exact h (front ++ front') back (by rw [hback, List.append_assoc])

theorem IsBlankLine.exists_eq_cons {breaks : List Char} (h : IsBlankLine breaks) :
    ∃ rest, breaks = '\n' :: rest := by
  have hhead := h.head
  cases breaks with
  | nil => cases hhead
  | cons c rest => exact ⟨rest, by rw [Option.some.inj hhead]⟩

theorem IsGap.append {last : Bool} {gap cs : List Char} (h : IsGap false gap) (h' : IsGap last cs) :
    IsGap last (gap ++ cs) := by
  induction h with
  | nil => exact h'
  | blank hc h ih => exact .blank hc ih
  | @comment text gap htext h ih =>
    have hassoc : '$' :: '-' :: (text ++ '\n' :: gap) ++ cs =
        '$' :: '-' :: (text ++ '\n' :: (gap ++ cs)) := by simp
    rw [hassoc]
    exact .comment htext ih
  | openComment hlast htext => cases hlast

/-- What is passed over at the end of a source is closed, or it ends in a comment. -/
theorem IsGap.closed_or_endsInComment {gap : List Char} (h : IsGap true gap) :
    IsGap false gap ∨ EndsInComment gap := by
  induction h with
  | nil => exact .inl .nil
  | @blank c cs hc h ih =>
    refine ih.imp (.blank hc) ?_
    rintro ⟨gap, text, hgap, htext, rfl⟩
    exact ⟨c :: gap, text, .blank hc hgap, htext, rfl⟩
  | @comment text cs htext h ih =>
    refine ih.imp (.comment htext) ?_
    rintro ⟨gap, text', hgap, htext', rfl⟩
    exact ⟨_, text', .comment htext hgap, htext', by simp⟩
  | @openComment text hlast htext => exact .inr ⟨[], text, .nil, htext, rfl⟩

/-- The newline closes the comment. -/
theorem EndsInComment.isGap_newline {cs : List Char} (h : EndsInComment cs) :
    IsGap false (cs ++ ['\n']) := by
  obtain ⟨gap, text, hgap, htext, rfl⟩ := h
  have hclosed : IsGap false (gap ++ '$' :: '-' :: (text ++ ['\n'])) :=
    hgap.append (.comment htext .nil)
  simpa using hclosed

/-! ## 2. Pieces of text before a newline -/

theorem splitSpan_newline (depth : Nat) (front cs : List Char) :
    splitSpan depth (front ++ '\n' :: cs) =
      ((splitSpan depth front).1, (splitSpan depth front).2 ++ '\n' :: cs) := by
  induction front generalizing depth with
  | nil => simp [splitSpan, endsWord]
  | cons c front ih =>
    simp only [List.cons_append, splitSpan, ih]
    split
    · rfl
    · split
      · rfl
      · split
        · split <;> rfl
        · rfl

/-- A piece that goes on as long as its characters pass a test ends before a
newline that does not pass. -/
theorem takeWhile_newline {p : Char → Bool} (hp : p '\n' = false) (front cs : List Char) :
    (front ++ '\n' :: cs).takeWhile p = front.takeWhile p ∧
      (front ++ '\n' :: cs).dropWhile p = front.dropWhile p ++ '\n' :: cs := by
  induction front with
  | nil => simp [hp]
  | cons c front ih => cases hc : p c <;> simp [hc, ih]

theorem splitWord_newline (wide : Bool) (c : Char) (front cs : List Char) :
    splitWord wide (c :: (front ++ '\n' :: cs)) =
      ((splitWord wide (c :: front)).1, (splitWord wide (c :: front)).2 ++ '\n' :: cs) := by
  by_cases hspan : c = '('
  · subst hspan
    exact splitSpan_newline 0 ('(' :: front) cs
  · have hnewline : inWord wide '\n' = false := by cases wide <;> rfl
    obtain ⟨htake, hdrop⟩ := takeWhile_newline hnewline (c :: front) cs
    rw [splitWord_of_ne_open hspan, splitWord_of_ne_open hspan, ← List.cons_append, htake, hdrop]

/-- A gap that does not reach to the end of the text ends at the same place when the
text goes on with a newline. -/
theorem splitGap_extend {comment : Bool} {front : List Char}
    (h : (splitGap comment front).2 ≠ []) (more : List Char) :
    splitGap comment (front ++ '\n' :: more) =
      ((splitGap comment front).1, (splitGap comment front).2 ++ '\n' :: more) := by
  induction front generalizing comment with
  | nil => exact absurd rfl h
  | cons c front ih =>
    have hdash : ((front ++ '\n' :: more).head? == some '-') = (front.head? == some '-') := by
      cases front <;> rfl
    simp only [List.cons_append, splitGap, hdash] at h ⊢
    revert h
    split
    · intro h
      rw [ih h]
    · split
      · intro h
        rw [ih h]
      · split
        · intro h
          rw [ih h]
        · intro _
          rfl

/-- So does a run of line breaks. -/
theorem splitBreaks_extend {front : List Char} (h : (splitBreaks front).2 ≠ [])
    (more : List Char) :
    splitBreaks (front ++ more) = ((splitBreaks front).1, (splitBreaks front).2 ++ more) := by
  have hlength : (front.takeWhile isSpacing).length ≠ front.length := by
    have hsplit := congrArg List.length (append_splitBreaks front)
    have hpos := List.length_pos_iff.2 h
    simp only [splitBreaks, List.length_append] at hsplit hpos
    omega
  have hdrop : front.dropWhile isSpacing ≠ [] := h
  simp [splitBreaks, List.takeWhile_append, List.dropWhile_append, hlength, hdrop]

/-! ## 3. Tokens before a newline -/

namespace Reader

/-- The same place, before a text that goes on with a newline. -/
def extend (r : Reader) (more : List Char) : Reader :=
  { r with rest := r.rest ++ '\n' :: more }

theorem cutToken_extend {wide : Bool} {front : List Char} (hne : front ≠ [])
    (hmore : (∀ count, (cutToken wide front).1 ≠ .lineBreaks count) ∨
      (cutToken wide front).2.2 ≠ []) (more : List Char) :
    cutToken wide (front ++ '\n' :: more) =
      ((cutToken wide front).1, (cutToken wide front).2.1,
        (cutToken wide front).2.2 ++ '\n' :: more) := by
  cases front with
  | nil => exact absurd rfl hne
  | cons c front =>
    by_cases hscope : c = ':'
    · subst hscope
      rfl
    · by_cases hnewline : c = '\n'
      · subst hnewline
        have hbreak (cs : List Char) : cutToken wide ('\n' :: cs) =
            (.lineBreaks ((splitBreaks ('\n' :: cs)).1.count '\n'), splitBreaks ('\n' :: cs)) := rfl
        have hrest : (splitBreaks ('\n' :: front)).2 ≠ [] :=
          hmore.resolve_left fun hno => hno _ rfl
        have hextend := splitBreaks_extend hrest ('\n' :: more)
        rw [List.cons_append] at hextend ⊢
        rw [hbreak, hbreak, hextend]
      · have hextend := splitWord_newline wide c front more
        rw [List.cons_append, cutToken_of_ne hscope hnewline, cutToken_of_ne hscope hnewline,
          hextend]

/-- **A token before the end is the same when the text goes on.** So is the place
behind it. -/
theorem next_extend {r : Reader} (hend : r.next.1.lexeme ≠ .endOfFile)
    (hmore : (∀ count, r.next.1.lexeme ≠ .lineBreaks count) ∨ r.next.2.rest ≠ [])
    (more : List Char) : (r.extend more).next = (r.next.1, r.next.2.extend more) := by
  have hrest : (splitGap false r.rest).2 ≠ [] := by
    intro hnil
    refine hend ?_
    simp [next, toToken, pass, hnil, cutToken]
  have hcut : cutToken r.wide _ = _ := cutToken_extend hrest hmore more
  simp [next, toToken, pass, extend, splitGap_extend hrest, hcut]

/-! ## 4. The newline at the end -/

/-- How the newline at the end of a text is read, whatever stands behind it. -/
inductive Seam (front : List Char) (offset : Nat) (wide : Bool) : Prop where
  /-- A comment takes it along, and no token stands before it. -/
  | comment (hopen : EndsInComment front) (hgap : IsGap false (front ++ ['\n']))
  /-- It is one of the line breaks that stand next. -/
  | breaks {gap spacing : List Char} (hfront : front ++ ['\n'] = gap ++ '\n' :: spacing)
      (hgap : IsGap false gap) (hspacing : ∀ c ∈ spacing, isSpacing c = true)
  /-- Another token stands before it. -/
  | token {t : Token} {others : List Char} {offset' : Nat} (hne : t.lexeme ≠ .endOfFile)
      (hlt : others.length < front.length)
      (hplace : offset' + size others = offset + size front)
      (hnext : ∀ ds, (⟨front ++ '\n' :: ds, offset, wide⟩ : Reader).next =
        (t, ⟨others ++ '\n' :: ds, offset', wide⟩))

/-- The line breaks that the newline belongs to go on behind the text. -/
theorem append_of_breaks {front gap spacing : List Char}
    (h : front ++ ['\n'] = gap ++ '\n' :: spacing) (ds : List Char) :
    front ++ '\n' :: ds = gap ++ '\n' :: (spacing ++ ds) := by
  rw [← List.cons_append, ← List.append_assoc, ← h]
  simp

/-- What is left behind the token is the end of the text. -/
theorem suffix_of_next {front others : List Char} {offset offset' : Nat} {wide : Bool} {t : Token}
    (h : (⟨front ++ ['\n'], offset, wide⟩ : Reader).next =
      (t, ⟨others ++ ['\n'], offset', wide⟩)) : others <:+ front := by
  obtain ⟨piece, hpiece, -⟩ := (⟨front ++ ['\n'], offset, wide⟩ : Reader).exists_append_next
  rw [h, ← List.append_assoc] at hpiece
  exact ⟨piece, (List.append_cancel_right hpiece).symm⟩

theorem add_size_append {front others : List Char} {offset offset' : Nat}
    (h : offset' + size others = offset + size front) (cs : List Char) :
    offset' + size (others ++ cs) = offset + size (front ++ cs) := by
  rw [size_append, size_append, ← Nat.add_assoc, ← Nat.add_assoc, h]

theorem seam (front : List Char) (offset : Nat) (wide : Bool) : Seam front offset wide := by
  let r : Reader := ⟨front, offset, wide⟩
  by_cases hend : r.next.1.lexeme = .endOfFile
  · obtain hclosed | hopen := (isGap_of_endOfFile hend).closed_or_endsInComment
    · exact .breaks rfl hclosed (by simp)
    · exact .comment hopen hopen.isGap_newline
  by_cases hmore : (∀ count, r.next.1.lexeme ≠ .lineBreaks count) ∨ r.next.2.rest ≠ []
  · exact .token hend (length_next_lt hend) r.stop_next (next_extend hend hmore)
  · simp only [not_or, Classical.not_forall, Classical.not_not] at hmore
    obtain ⟨⟨count, hcount⟩, hrest⟩ := hmore
    obtain ⟨gap, text, blanks, hfront, hgap, hspelled, hblanks, -⟩ := next_pieces hend
    rw [hcount] at hspelled
    obtain ⟨hhead, hspacing, -⟩ := hspelled
    obtain ⟨others, rfl⟩ := List.head?_eq_some_iff.1 hhead
    rw [hrest, List.append_nil] at hfront
    have hbreaks : front ++ ['\n'] = gap ++ '\n' :: (others ++ (blanks ++ ['\n'])) := by
      rw [show front = _ from hfront]
      simp
    refine .breaks hbreaks hgap fun c hc => ?_
    rcases List.mem_append.1 hc with hc | hc
    · exact hspacing c (List.mem_cons_of_mem _ hc)
    · rcases List.mem_append.1 hc with hc | hc
      · rw [isSpacing, hblanks c hc, Bool.true_or]
      · rw [List.mem_singleton.1 hc]
        rfl

/-- **The tokens of the text come first, then those of what stands behind it.** Only
line breaks may be more there than in the two apart. -/
theorem exists_tokens_append (front : List Char) (offset : Nat) (wide : Bool) :
    ∃ ts, ∀ ds, ∃ us, (⟨front ++ '\n' :: ds, offset, wide⟩ : Reader).tokens = ts ++ us ∧
      us.dropWhile Token.isBreaks =
        (⟨ds, offset + size (front ++ ['\n']), wide⟩ : Reader).tokens.dropWhile Token.isBreaks := by
  induction hn : front.length using Nat.strongRecOn generalizing front offset with
  | ind n ih =>
    cases seam front offset wide with
    | comment hopen hgap =>
      refine ⟨[], fun ds => ⟨_, (List.nil_append _).symm, ?_⟩⟩
      have hpassed := tokens_eq_of_toToken_eq (toToken_gap hgap ds offset wide)
      rw [List.append_assoc, List.singleton_append] at hpassed
      rw [hpassed]
    | @breaks gap spacing hfront hgap hspacing =>
      refine ⟨[], fun ds => ⟨_, (List.nil_append _).symm, ?_⟩⟩
      have hrow : ∀ c ∈ '\n' :: spacing, isSpacing c = true :=
        List.forall_mem_cons.2 ⟨rfl, hspacing⟩
      rw [append_of_breaks hfront, ← List.cons_append,
        tokens_eq_of_toToken_eq (toToken_gap hgap _ offset wide), hfront, ← tokens_behind_spacing, ← tokens_behind_spacing ds, List.dropWhile_append_of_pos hrow,
        List.takeWhile_append_of_pos hrow]
      simp [Nat.add_assoc]
    | @token t others offset' hne hlt hplace hnext =>
      obtain ⟨ts, hts⟩ := ih _ (hn ▸ hlt) others offset' rfl
      refine ⟨t :: ts, fun ds => ?_⟩
      obtain ⟨us, htokens, hus⟩ := hts ds
      refine ⟨us, ?_, by rw [hus, add_size_append hplace]⟩
      have hfirst : (⟨front ++ '\n' :: ds, offset, wide⟩ : Reader).next.1.lexeme ≠ .endOfFile := by
        rwa [hnext ds]
      rw [tokens_of_ne_endOfFile hfirst, hnext ds, htokens, List.cons_append]

/-- The word that the text begins with, behind line breaks. -/
theorem lexeme_skipBreaks_append {front : List Char} {offset : Nat} {wide : Bool} {word : String}
    (h : (⟨front ++ ['\n'], offset, wide⟩ : Reader).skipBreaks.next.1.lexeme = .identifier word)
    (ds : List Char) :
    (⟨front ++ '\n' :: ds, offset, wide⟩ : Reader).skipBreaks.next.1.lexeme = .identifier word := by
  obtain ⟨ts, hts⟩ := exists_tokens_append front offset wide
  obtain ⟨us, htokens, hus⟩ := hts []
  obtain ⟨vs, htokens', -⟩ := hts ds
  have hnone : (⟨[], offset + size (front ++ ['\n']), wide⟩ : Reader).tokens = [] :=
    tokens_of_endOfFile (lexeme_next_of_rest_eq_nil rfl)
  rw [hnone] at hus
  rw [next_fst, tokens_skipBreaks, htokens, List.dropWhile_append] at h
  rw [next_fst, tokens_skipBreaks, htokens', List.dropWhile_append]
  cases hfirst : ts.dropWhile Token.isBreaks with
  | nil =>
    rw [hfirst, List.isEmpty_nil, if_pos rfl, hus] at h
    cases h
  | cons t others =>
    rw [hfirst] at h
    exact h

end Reader

end Questbook
