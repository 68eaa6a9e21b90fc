/-
Questbook.Proofs.Reader.Narrow — what narrow reading finds, and in which order.

A word that is read narrowly is one of those that can stand for an argument
(`IsArgument`), or it is a span that is never closed (`IsOpenSpan`). A span of the second
sort runs up to the next newline or `:`, over all blanks on its way. So no word can stand
behind it in a line but `:`, and the tokens of a source have more of an order than one
would think (`Reader.spaced_tokens`).

In the other direction, the words come back from where they are written as long as that
order is kept: a word for an argument in front of anything that ends a word, an open
span in front of nothing but blanks up to where it has to end (`Stands.tokens`).
-/
import Mathlib.Data.List.Chain
import Questbook.Proofs.Reader.Wide
import Questbook.Proofs.Reader.WordExtent

namespace Questbook

open Text Extent Reader

/-! ## 1. Open spans -/

/-- A span that nothing closes, as it is stored: without blanks at its end. -/
structure IsOpenSpan (text : List Char) : Prop where
  head : text.head? = some '('
  plain : ∀ c ∈ text, endsWord c = false
  never : ∀ front, front <+: text → front ≠ [] → front.count '(' ≠ front.count ')'
  last : ∀ c ∈ text.getLast?, isBlank c = false

/-- No character, or one that ends every word. -/
def EndsReach (cs : List Char) : Prop :=
  ∀ c ∈ cs.head?, endsWord c = true

theorem endsReach_dropWhile (cs : List Char) : EndsReach (cs.dropWhile (!endsWord ·)) := by
  intro c hc
  have h := List.head?_dropWhile_not (!endsWord ·) cs
  rw [hc] at h
  simpa using h

/-- No blank stands where every word has to end. -/
theorem EndsReach.dropWhile_isBlank {cs : List Char} (h : EndsReach cs) :
    cs.dropWhile isBlank = cs := by
  cases cs with
  | nil => rfl
  | cons c cs =>
    refine List.dropWhile_cons_of_neg fun hblank => ?_
    have hends := h c rfl
    rw [endsWord_of_isBlank hblank] at hends
    cases hends

theorem reach_append_endsReach {text cs : List Char} (htext : ∀ c ∈ text, endsWord c = false)
    (hcs : EndsReach cs) : reach (text ++ cs) = text := by
  have hnil : cs.takeWhile (!endsWord ·) = [] := by
    cases cs with
    | nil => rfl
    | cons c cs => exact List.takeWhile_cons_of_neg (by simp [hcs c rfl])
  rw [reach, List.takeWhile_append_of_pos (by simpa using htext), hnil, List.append_nil]

namespace IsOpenSpan

variable {text : List Char}

theorem ne_nil (h : IsOpenSpan text) : text ≠ [] := by
  rintro rfl
  cases h.head

/-- Blanks behind it do not close it. -/
theorem never_append (h : IsOpenSpan text) {blanks : List Char}
    (hblanks : ∀ c ∈ blanks, isBlank c = true) {front : List Char}
    (hfront : front <+: text ++ blanks) (hne : front ≠ []) :
    front.count '(' ≠ front.count ')' := by
  rcases List.prefix_or_prefix_of_prefix hfront (List.prefix_append text blanks) with hfront' | htext
  · exact h.never front hfront' hne
  · obtain ⟨others, rfl⟩ := htext
    have hothers : ∀ c ∈ others, isBlank c = true := fun c hc =>
      hblanks c (((List.prefix_append_right_inj text).1 hfront).subset hc)
    have hopen : others.count '(' = 0 := List.count_eq_zero.2 fun hc => by cases hothers _ hc
    have hclose : others.count ')' = 0 := List.count_eq_zero.2 fun hc => by cases hothers _ hc
    rw [List.count_append, List.count_append, hopen, hclose]
    exact h.never text (List.prefix_refl _) h.ne_nil

/-- An open span takes the blanks behind it too, up to where it has to end. -/
theorem readsAs (h : IsOpenSpan text) {blanks cs : List Char}
    (hblanks : ∀ c ∈ blanks, isBlank c = true) (hcs : EndsReach cs) (wide : Bool) :
    ReadsAs wide (text ++ blanks) (.ofWord text) cs := by
  have hplain : ∀ c ∈ text ++ blanks, endsWord c = false :=
    List.forall_mem_append.2 ⟨h.plain, fun c hc => endsWord_of_isBlank (hblanks c hc)⟩
  have hreach := reach_append_endsReach hplain hcs
  have hopen : opensWord (text ++ blanks ++ cs) = true := by
    obtain ⟨others, rfl⟩ := List.head?_eq_some_iff.1 h.head
    rfl
  have hextent : WordExtent wide (reach (text ++ blanks ++ cs)) text (text ++ blanks) := by
    rw [hreach]
    refine .openSpan ?_ (fun _ => h.never_append hblanks) ⟨⟨blanks, hblanks, rfl⟩, h.last⟩
    rw [List.head?_append, h.head, Option.some_or]
  intro offset
  rw [next_of_wordExtent hopen hextent, List.drop_left]

/-- No text for an argument is an open span. -/
theorem not_isArgument (h : IsOpenSpan text) : ¬ IsArgument text := by
  intro harg
  cases harg with
  | word hword => exact hword.not_span h.head
  | numeral n hn =>
    have hmem := List.mem_of_mem_head? h.head
    rw [hn] at hmem
    rcases Numeral.eq_minus_or_isDigit hmem with hdash | hdigit
    · cases hdash
    · cases hdigit
  | scope hscope =>
    have hhead := h.head
    rw [hscope] at hhead
    cases hhead
  | span hspan => exact h.never text (List.prefix_refl _) h.ne_nil hspan.balanced

end IsOpenSpan

/-! ## 2. One token -/

/-- A word that narrow reading can find. -/
def IsNarrowWord (text : List Char) : Prop :=
  IsArgument text ∨ IsOpenSpan text

theorem IsOpenSpan.ofWord {text : List Char} (h : IsOpenSpan text) :
    Lexeme.ofWord text = .identifier (String.ofList text) := by
  obtain ⟨others, rfl⟩ := List.head?_eq_some_iff.1 h.head
  rw [Lexeme.ofWord, read?_cons_open]

theorem IsNarrowWord.word?_ofWord {text : List Char} (h : IsNarrowWord text) :
    (Lexeme.ofWord text).word? = some (String.ofList text) := by
  rcases h with h | h
  · exact h.word?_ofWord
  · rw [h.ofWord]
    rfl

/-- A span that no beginning closes, without the blanks at its end. -/
theorem isOpenSpan_of_never {cs text : List Char} (hhead : (reach cs).head? = some '(')
    (hnever : ∀ front, front <+: reach cs → front ≠ [] → front.count '(' ≠ front.count ')')
    (htext : IsStripped (reach cs) text) : IsOpenSpan text := by
  obtain ⟨⟨blanks, hblanks, hreach⟩, hlast⟩ := htext
  have hwithin : text <+: reach cs := ⟨blanks, hreach.symm⟩
  refine ⟨?_, fun c hc => endsWord_of_mem_reach (hwithin.subset hc),
    fun front hfront => hnever front (hfront.trans hwithin), hlast⟩
  rw [hreach] at hhead
  cases text with
  | nil => cases hblanks '(' (List.mem_of_mem_head? hhead)
  | cons c text => exact hhead

/-- What has no blank in it and goes as far as it can is a word for an argument, but for
the spelling of a numeral. -/
theorem exists_isArgument_of_plain {cs text : List Char} (hopen : opensWord cs = true)
    (hhead : (reach cs).head? ≠ some '(') (hwithin : text <+: reach cs)
    (hplain : ∀ c ∈ text, isBlank c = false)
    (hlongest : ∀ front, front <+: reach cs → (∀ c ∈ front, isBlank c = false) →
      front <+: text) :
    ∃ argument, IsArgument argument ∧ Lexeme.ofWord text = .ofWord argument := by
  cases hread : Numeral.read? text with
  | some n =>
    refine ⟨(Numeral.render n).toList, .numeral n rfl, ?_⟩
    rw [Lexeme.ofWord, hread, Lexeme.ofWord, Numeral.read?_render]
  | none =>
    have hne : text ≠ [] := by
      cases cs with
      | nil => cases hopen
      | cons c cs =>
        obtain ⟨hblank, hends⟩ := ne_of_opensWord hopen
        have hfirst : [c] <+: text := by
          refine hlongest [c] ?_ (List.forall_mem_singleton.2 hblank)
          rw [reach_cons hends]
          exact List.cons_prefix_cons.2 ⟨rfl, List.nil_prefix⟩
        exact fun hnil => List.cons_ne_nil c [] (List.prefix_nil.1 (hnil ▸ hfirst))
    have hcs : text <+: cs := hwithin.trans (List.takeWhile_prefix _)
    refine ⟨text, .word ⟨hne, fun c hc => ?_, fun hspan => hhead ?_, ?_, hread⟩, rfl⟩
    · have hends := endsWord_of_mem_reach (hwithin.subset hc)
      simp only [endsWord, Bool.or_eq_false_iff, beq_eq_false_iff_ne] at hends
      exact ⟨hends.1, hends.2, hplain c hc⟩
    · obtain ⟨others, hothers⟩ := hwithin
      rw [← hothers, List.head?_append, hspan, Option.some_or]
    · intro hcomment
      obtain ⟨others, rfl⟩ := hcomment.trans hcs
      cases hopen

/-- **One token, read narrowly.** A word is one for an argument, or an open span behind
which nothing is left of the reach. -/
theorem Reader.isNarrowWord_next {r : Reader} {word : String} (hnarrow : r.wide = false)
    (hword : r.next.1.lexeme.word? = some word) :
    r.next.1.lexeme = .ofWord word.toList ∧
      (IsArgument word.toList ∨ IsOpenSpan word.toList ∧ EndsReach r.next.2.rest) := by
  have hargument {text : List Char} (h : IsArgument text)
      (hlexeme : r.next.1.lexeme = .ofWord text) :
      r.next.1.lexeme = .ofWord word.toList ∧
        (IsArgument word.toList ∨ IsOpenSpan word.toList ∧ EndsReach r.next.2.rest) := by
    rw [hlexeme, h.word?_ofWord] at hword
    cases hword
    rw [String.toList_ofList]
    exact ⟨hlexeme, .inl h⟩
  obtain ⟨text, hcuts⟩ := exists_cuts (r := r) (by simp [hword])
  have hlexeme := hcuts.lexeme_eq
  cases hcuts with
  | scope hrest => exact hargument (.scope rfl) hlexeme
  | word hrest hscope hnewline hextent =>
    have hopen := opensWord_toToken hrest hscope hnewline
    have hnext := next_of_toToken hrest hscope hnewline hextent
    cases hextent with
    | span hspan => exact hargument (.span hspan) hlexeme
    | openSpan hhead hnever htext =>
      have hspan := isOpenSpan_of_never hhead hnever htext
      rw [hlexeme, hspan.ofWord] at hword
      cases hword
      rw [String.toList_ofList, hnext, reach, drop_length_takeWhile]
      exact ⟨rfl, .inr ⟨hspan, endsReach_dropWhile _⟩⟩
    | wide _ hwide =>
      rw [hnarrow] at hwide
      cases hwide
    | narrow hhead _ hwithin hplain hlongest =>
      obtain ⟨argument, harg, heq⟩ := exists_isArgument_of_plain hopen hhead hwithin hplain hlongest
      exact hargument harg (hlexeme.trans heq)

/-- Where every word has to end, the only word that can stand is `:`. -/
theorem Reader.word_eq_of_endsReach {r : Reader} {word : String} (h : EndsReach r.rest)
    (hword : r.next.1.lexeme.word? = some word) : word = ":" := by
  obtain ⟨rest, offset, wide⟩ := r
  cases rest with
  | nil => cases hword
  | cons c cs =>
    have hends := h c rfl
    simp only [endsWord, Bool.or_eq_true, beq_iff_eq] at hends
    rcases hends with rfl | rfl
    · rw [next_newline] at hword
      cases hword
    · exact (Option.some.inj hword).symm

/-! ## 3. The tokens of a source -/

/-- Tokens as narrow reading finds them. -/
structure Spaced (ts : List Token) : Prop where
  words : ∀ t ∈ ts, ∀ word, t.lexeme.word? = some word →
    t.lexeme = .ofWord word.toList ∧ IsNarrowWord word.toList
  breaks : ∀ t ∈ ts, ∀ count, t.lexeme = .lineBreaks count → 0 < count
  /-- Behind an open span stands no word but `:`. -/
  chain : ts.IsChain fun s t => ∀ span word, s.lexeme.word? = some span →
    IsOpenSpan span.toList → t.lexeme.word? = some word → word = ":"

namespace Spaced

variable {t : Token} {ts us : List Token}

theorem of_isInfix (h : Spaced ts) (hus : us <:+: ts) : Spaced us :=
  ⟨fun t ht => h.words t (hus.subset ht), fun t ht => h.breaks t (hus.subset ht),
    h.chain.infix hus⟩

theorem tail (h : Spaced (t :: ts)) : Spaced ts :=
  h.of_isInfix (List.suffix_cons t ts).isInfix

end Spaced

theorem Reader.lineBreaks_pos {r : Reader} {count : Nat}
    (h : r.next.1.lexeme = .lineBreaks count) : 0 < count := by
  have hcut : (cutToken r.wide r.toToken.rest).1 = .lineBreaks count := h
  obtain ⟨rest, hrest⟩ := cutToken_eq_lineBreaks hcut
  rw [hrest] at hcut
  cases hcut
  exact List.count_pos_iff.2 (by simp [splitBreaks, isSpacing])

/-- **The tokens that narrow reading finds.** -/
theorem Reader.spaced_tokens {r : Reader} (hnarrow : r.wide = false) : Spaced r.tokens := by
  fun_induction tokens r with
  | case1 r hend => exact ⟨by simp, by simp, .nil⟩
  | case2 r hend ih =>
    obtain ⟨hwords, hbreaks, hchain⟩ := ih hnarrow
    have hnext (word : String) (hword : r.next.1.lexeme.word? = some word) :=
      isNarrowWord_next hnarrow hword
    refine ⟨List.forall_mem_cons.2 ⟨fun word hword => ?_, hwords⟩,
      List.forall_mem_cons.2 ⟨fun count => lineBreaks_pos, hbreaks⟩,
      hchain.cons fun t ht span word hspan hopen hword => ?_⟩
    · obtain ⟨hlexeme, hword⟩ := hnext word hword
      exact ⟨hlexeme, hword.imp id And.left⟩
    · have hends := ((hnext span hspan).2.resolve_left hopen.not_isArgument).2
      have hfirst : r.next.2.next.1 = t := by
        obtain ⟨ts, hts⟩ := List.head?_eq_some_iff.1 ht
        exact (next_of_tokens_eq_cons hts).1
      rw [← hfirst] at hword
      exact word_eq_of_endsReach hends hword

/-! ## 4. Words written down -/

/-- In front of this text, the word is what is read. -/
inductive Stands (text cs : List Char) : Prop where
  | argument (h : IsArgument text) (hcs : EndsWords false cs)
  | openSpan (h : IsOpenSpan text) (hcs : EndsReach (cs.dropWhile isBlank))

theorem Reader.tokens_dropWhile_isBlank (cs : List Char) (offset : Nat) (wide : Bool) :
    (⟨cs.dropWhile isBlank, offset + size (cs.takeWhile isBlank), wide⟩ : Reader).tokens =
      (⟨cs, offset, wide⟩ : Reader).tokens := by
  induction cs generalizing offset with
  | nil => rfl
  | cons c cs ih =>
    cases hblank : isBlank c with
    | true =>
      rw [tokens_eq_of_toToken_eq (toToken_blank hblank cs offset wide), ← ih]
      simp [hblank, Nat.add_assoc]
    | false => simp [hblank]

/-- **A word that stands comes back**, and the tokens behind it are those of the text
behind it. -/
theorem Stands.tokens {text cs : List Char} (h : Stands text cs) (offset : Nat) :
    (⟨text ++ cs, offset, false⟩ : Reader).tokens =
      ⟨.ofWord text, offset⟩ :: (⟨cs, offset + size text, false⟩ : Reader).tokens := by
  cases h with
  | argument h hcs => exact tokens_of_readsAs (h.readsAs hcs) (ofWord_ne_endOfFile text) offset
  | openSpan h hcs =>
    have hblanks : ∀ c ∈ cs.takeWhile isBlank, isBlank c = true := fun c hc =>
      List.mem_takeWhile_imp hc
    have hread :=
      tokens_of_readsAs (h.readsAs hblanks hcs false) (ofWord_ne_endOfFile text) offset
    rw [List.append_assoc, List.takeWhile_append_dropWhile, size_append, ← Nat.add_assoc,
      tokens_dropWhile_isBlank] at hread
    exact hread

end Questbook
