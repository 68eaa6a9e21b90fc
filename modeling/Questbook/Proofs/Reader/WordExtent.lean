/-
Questbook.Proofs.Reader.WordExtent — how far a word reaches, said without a loop.

One loop cuts off every word. What it finds depends on the first character, on the
mode, on the parentheses passed and on what ends a line, and then the blanks at the end
are taken off. Here the same is said by looking at the text only (`WordExtent`). Let
`reach` be the text up to the first newline or `:`. A word that opens with `(` is the
shortest beginning of `reach` in which the parentheses balance, and if there is none,
all of `reach`. Any other word is all of `reach` in wide reading, and in narrow reading
the longest beginning of it without a blank. The rules for a word that opens with `(`
do not name the mode, so it makes no difference there.

The rules leave nothing out (`exists_wordExtent`), and what any of them says is what is
read (`Reader.next_word_extent`), so no two of them say different things. Wherever a
reader stands, its next token is a word if and only if it is cut from some text
(`Reader.Cuts`).
-/
import Mathlib.Data.List.TakeWhile
import Mathlib.Data.Nat.Find
import Questbook.Proofs.Reader.Alone

namespace Questbook

open Text Extent

/-! ## 1. The rules -/

/-- The text up to the first newline or `:`. -/
def reach (cs : List Char) : List Char :=
  cs.takeWhile (!endsWord ·)

/-- The second text is the first without the blanks at its end. -/
structure IsStripped (cs text : List Char) : Prop where
  blanks : ∃ blanks, (∀ c ∈ blanks, isBlank c = true) ∧ cs = text ++ blanks
  last : ∀ c ∈ text.getLast?, isBlank c = false

/-- The text of the word that `reach` starts with, and what is taken off the source
with it. -/
inductive WordExtent (wide : Bool) (reach : List Char) : List Char → List Char → Prop where
  /-- The shortest beginning that balances. -/
  | span {text : List Char} (hspan : IsSpan text) (hwithin : text <+: reach) :
      WordExtent wide reach text text
  /-- No beginning balances. -/
  | openSpan {text : List Char} (hopen : reach.head? = some '(')
      (hnever : ∀ front, front <+: reach → front ≠ [] → front.count '(' ≠ front.count ')')
      (htext : IsStripped reach text) : WordExtent wide reach text reach
  /-- Blanks are part of the word. -/
  | wide {text : List Char} (hopen : reach.head? ≠ some '(') (hwide : wide = true)
      (htext : IsStripped reach text) : WordExtent wide reach text reach
  /-- The longest beginning without a blank. -/
  | narrow {text : List Char} (hopen : reach.head? ≠ some '(') (hnarrow : wide = false)
      (hwithin : text <+: reach) (hplain : ∀ c ∈ text, isBlank c = false)
      (hlongest : ∀ front, front <+: reach → (∀ c ∈ front, isBlank c = false) →
        front <+: text) : WordExtent wide reach text text

/-! ## 2. Beginnings of a text -/

theorem isPrefix_takeWhile {p : Char → Bool} {front cs : List Char} (h : front <+: cs)
    (hfront : ∀ c ∈ front, p c = true) : front <+: cs.takeWhile p := by
  obtain ⟨others, rfl⟩ := h
  rw [List.takeWhile_append_of_pos hfront]
  exact List.prefix_append _ _

theorem endsWord_of_mem_reach {cs : List Char} {c : Char} (h : c ∈ reach cs) :
    endsWord c = false := by
  have hc := List.mem_takeWhile_imp h
  simpa using hc

theorem reach_cons {c : Char} (hc : endsWord c = false) (cs : List Char) :
    reach (c :: cs) = c :: reach cs :=
  List.takeWhile_cons_of_pos (by simp [hc])

/-- A word in wide reading goes on to the end of the reach. -/
theorem takeWhile_inWord_true (cs : List Char) : cs.takeWhile (inWord true) = reach cs := by
  have hin : inWord true = (!endsWord ·) := by
    funext c
    simp [inWord]
  rw [hin, reach]

/-- A word in narrow reading goes on to the first blank in the reach. -/
theorem takeWhile_inWord_false (cs : List Char) :
    cs.takeWhile (inWord false) = (reach cs).takeWhile (!isBlank ·) := by
  rw [reach, List.takeWhile_takeWhile]
  congr 1
  funext c
  simp [inWord, and_comm]

theorem isStripped_trimRight (cs : List Char) : IsStripped cs (trimRight cs) :=
  ⟨exists_append_trimRight cs, fun _ hc => isBlank_getLast_trimRight hc⟩

/-- There is one way to take off the blanks at the end. -/
theorem IsStripped.eq_trimRight {cs text : List Char} (h : IsStripped cs text) :
    trimRight cs = text := by
  obtain ⟨blanks, hblanks, rfl⟩ := h.blanks
  have hall : ∀ c ∈ blanks.reverse, isBlank c = true := by simpa using hblanks
  have htext := trimRight_eq_self h.last
  rw [trimRight] at htext ⊢
  rw [List.reverse_append, List.dropWhile_append_of_pos hall, htext]

/-! ## 3. Spans -/

/-- Where no beginning closes the open parentheses, the span goes on to the end of the
reach. -/
theorem splitSpan_of_never {depth : Nat} (hdepth : 0 < depth) {cs : List Char}
    (hnever : ∀ front, front <+: reach cs → depth + front.count '(' ≠ front.count ')') :
    splitSpan depth cs = (reach cs, cs.dropWhile (!endsWord ·)) := by
  induction cs generalizing depth with
  | nil => rfl
  | cons c cs ih =>
    cases hc : endsWord c with
    | true => simp [splitSpan, reach, hc]
    | false =>
      rw [reach_cons hc] at hnever
      have hfront (front : List Char) (h : front <+: reach cs) :=
        hnever (c :: front) (List.cons_prefix_cons.2 ⟨rfl, h⟩)
      by_cases hopen : c = '('
      · subst hopen
        have hrest := @ih (depth + 1) (by omega) fun front h => by
          have := hfront front h
          simp at this
          omega
        simp [splitSpan, hc, hrest, reach_cons hc]
      · by_cases hclose : c = ')'
        · subst hclose
          have hdeep : ¬depth ≤ 1 := by
            have := hfront [] List.nil_prefix
            simp at this
            omega
          have hrest := @ih (depth - 1) (by omega) fun front h => by
            have := hfront front h
            simp at this
            omega
          simp [splitSpan, hc, hdeep, hrest, reach_cons hc]
        · have hrest := @ih depth hdepth fun front h => by
            have := hfront front h
            simpa [hopen, hclose] using this
          simp [splitSpan, hc, hopen, hclose, hrest, reach_cons hc]

/-- If the parentheses of some beginning balance, the shortest such beginning is a span. -/
theorem exists_isSpan {cs front : List Char} (hopen : (reach cs).head? = some '(')
    (hfront : front <+: reach cs) (hne : front ≠ [])
    (hbalanced : front.count '(' = front.count ')') :
    ∃ text, IsSpan text ∧ text <+: reach cs := by
  have hsome : ∃ n, 0 < n ∧
      ((reach cs).take n).count '(' = ((reach cs).take n).count ')' := by
    refine ⟨front.length, List.length_pos_iff.2 hne, ?_⟩
    rwa [← List.prefix_iff_eq_take.1 hfront]
  obtain ⟨hpos, hfirst⟩ := Nat.find_spec hsome
  refine ⟨(reach cs).take (Nat.find hsome), ⟨?_, ?_, hfirst, ?_⟩, List.take_prefix _ _⟩
  · rw [List.head?_take, if_neg (by omega), hopen]
  · exact fun c hc => endsWord_of_mem_reach (List.mem_of_mem_take hc)
  · intro shorter hshorter hne' hall
    have hle := hshorter.length_le
    rw [List.length_take] at hle
    have hlt : shorter.length < Nat.find hsome := by
      refine Nat.lt_of_le_of_ne (by omega) fun heq => hall ?_
      refine hshorter.eq_of_length ?_
      rw [List.length_take]
      omega
    have hno := Nat.find_min hsome hlt
    have hcut := List.prefix_iff_eq_take.1 (hshorter.trans (List.take_prefix _ _))
    rw [← hcut] at hno
    exact fun h => hno ⟨List.length_pos_iff.2 hne', h⟩

/-! ## 4. The rules and the reader -/

/-- The longest beginning without a blank is a word in narrow reading. -/
theorem wordExtent_narrow {reach : List Char} (hopen : reach.head? ≠ some '(') :
    WordExtent false reach (reach.takeWhile (!isBlank ·)) (reach.takeWhile (!isBlank ·)) := by
  refine .narrow hopen rfl (List.takeWhile_prefix (!isBlank ·)) ?_ ?_
  · intro c hc
    have := List.mem_takeWhile_imp hc
    simpa using this
  · exact fun front hfront hplain => isPrefix_takeWhile hfront (by simpa using hplain)

/-- Some rule applies to every text. -/
theorem exists_wordExtent (wide : Bool) (cs : List Char) :
    ∃ text taken, WordExtent wide (reach cs) text taken := by
  by_cases hopen : (reach cs).head? = some '('
  · by_cases hnever : ∀ front, front <+: reach cs → front ≠ [] → front.count '(' ≠ front.count ')'
    · exact ⟨_, _, .openSpan hopen hnever (isStripped_trimRight _)⟩
    · push Not at hnever
      obtain ⟨front, hfront, hne, hbalanced⟩ := hnever
      obtain ⟨text, hspan, hwithin⟩ := exists_isSpan hopen hfront hne hbalanced
      exact ⟨text, text, .span hspan hwithin⟩
  · cases wide with
    | true => exact ⟨_, _, .wide hopen rfl (isStripped_trimRight _)⟩
    | false => exact ⟨_, _, wordExtent_narrow hopen⟩

/-- What is taken is a beginning of the reach. -/
theorem WordExtent.isPrefix {wide : Bool} {reach text taken : List Char}
    (h : WordExtent wide reach text taken) : taken <+: reach := by
  cases h with
  | span hspan hwithin => exact hwithin
  | openSpan => exact List.prefix_refl _
  | wide => exact List.prefix_refl _
  | narrow hopen hnarrow hwithin => exact hwithin

theorem drop_length_takeWhile (p : Char → Bool) (cs : List Char) :
    cs.drop (cs.takeWhile p).length = cs.dropWhile p := by
  have happend := @List.takeWhile_append_dropWhile _ p cs
  have hdrop := @List.drop_left _ (cs.takeWhile p) (cs.dropWhile p)
  rwa [happend] at hdrop

/-- A word that is no span is cut off where its rule says. -/
theorem splitWord_of_takeWhile {wide : Bool} {cs : List Char} (hopen : cs.head? ≠ some '(') :
    splitWord wide cs =
      (cs.takeWhile (inWord wide), cs.drop (cs.takeWhile (inWord wide)).length) := by
  rw [drop_length_takeWhile]
  cases cs with
  | nil => rfl
  | cons c cs => exact splitWord_of_ne_open (by simpa using hopen) wide cs

theorem head?_reach {cs : List Char} (hopen : Reader.opensWord cs = true) :
    (reach cs).head? = cs.head? := by
  cases cs with
  | nil => rfl
  | cons c cs => rw [reach_cons (Reader.ne_of_opensWord hopen).2, List.head?_cons, List.head?_cons]

namespace Reader

/-- What a rule says is what is read. -/
theorem next_of_wordExtent {wide : Bool} {cs text taken : List Char} (hopen : opensWord cs = true)
    (h : WordExtent wide (reach cs) text taken) (offset : Nat) :
    (⟨cs, offset, wide⟩ : Reader).next =
      (⟨.ofWord text, offset⟩, ⟨cs.drop taken.length, offset + size taken, wide⟩) := by
  cases h with
  | span hspan hwithin =>
    obtain ⟨rest, rfl⟩ := hwithin.trans (List.takeWhile_prefix _)
    have hword : Lexeme.ofWord text = .identifier (String.ofList text) := by
      obtain ⟨others, rfl⟩ := List.head?_eq_some_iff.1 hspan.head
      rw [Lexeme.ofWord, read?_cons_open]
    rw [hspan.readsAs wide rest offset, hword, List.drop_left]
  | openSpan hspan hnever htext =>
    rw [head?_reach hopen] at hspan
    obtain ⟨others, rfl⟩ := List.head?_eq_some_iff.1 hspan
    have hreach : reach ('(' :: others) = '(' :: reach others := reach_cons rfl others
    have hsplit := @splitSpan_of_never 1 Nat.one_pos others fun front hfront => by
      have := hnever ('(' :: front) (hreach ▸ List.cons_prefix_cons.2 ⟨rfl, hfront⟩) (by simp)
      simp at this
      omega
    have hword : splitWord wide ('(' :: others) =
        (reach ('(' :: others), ('(' :: others).drop (reach ('(' :: others)).length) := by
      rw [hreach, List.length_cons, List.drop_succ_cons, reach, drop_length_takeWhile]
      simp [splitWord, splitSpan, endsWord, hsplit, reach]
    rw [next_of_opensWord hopen, hword, htext.eq_trimRight]
  | wide hspan hwide htext =>
    subst hwide
    rw [head?_reach hopen] at hspan
    rw [next_of_opensWord hopen, splitWord_of_takeWhile hspan, takeWhile_inWord_true,
      htext.eq_trimRight]
  | narrow hspan hnarrow hwithin hplain hlongest =>
    subst hnarrow
    rw [head?_reach hopen] at hspan
    have htake : cs.takeWhile (inWord false) = text := by
      rw [takeWhile_inWord_false]
      refine List.IsPrefix.eq_of_length_le ?_ ?_
      · refine hlongest _ (List.takeWhile_prefix _) fun c hc => ?_
        have := List.mem_takeWhile_imp hc
        simpa using this
      · exact (isPrefix_takeWhile hwithin (by simpa using hplain)).length_le
    have htrim : trimRight text = text :=
      trimRight_eq_self fun c hc => hplain c (List.mem_of_mem_getLast? hc)
    rw [next_of_opensWord hopen, splitWord_of_takeWhile hspan, htake, htrim]

/-- The next token is a word, and this is the text of the source it is cut from. -/
inductive Cuts (r : Reader) : List Char → Prop where
  | scope {cs : List Char} : r.toToken.rest = ':' :: cs → r.Cuts [':']
  | word {c : Char} {cs text taken : List Char} : r.toToken.rest = c :: cs → c ≠ ':' → c ≠ '\n' →
      WordExtent r.wide (reach (c :: cs)) text taken → r.Cuts text

/-- What a rule says where the next token starts is what is read. -/
theorem next_of_toToken {r : Reader} {c : Char} {cs text taken : List Char}
    (hrest : r.toToken.rest = c :: cs) (hscope : c ≠ ':') (hnewline : c ≠ '\n')
    (h : WordExtent r.wide (reach (c :: cs)) text taken) :
    r.next = (⟨.ofWord text, r.toToken.offset⟩,
      ⟨(c :: cs).drop taken.length, r.toToken.offset + size taken, r.wide⟩) := by
  have hopen := opensWord_toToken hrest hscope hnewline
  have hplace : r.toToken = ⟨c :: cs, r.toToken.offset, r.wide⟩ := by
    rw [← hrest]
    rfl
  have hnext := next_of_wordExtent hopen h r.toToken.offset
  rwa [← hplace, next_toToken] at hnext

theorem next_of_scope {r : Reader} {cs : List Char} (hrest : r.toToken.rest = ':' :: cs) :
    r.next = (⟨.identifier ":", r.toToken.offset⟩, ⟨cs, r.toToken.offset + 1, r.wide⟩) := by
  rw [next, hrest]
  rfl

theorem Cuts.lexeme_eq {r : Reader} {text : List Char} (h : r.Cuts text) :
    r.next.1.lexeme = .ofWord text := by
  cases h with
  | scope hrest =>
    rw [next_of_scope hrest]
    rfl
  | word hrest hscope hnewline hextent => rw [next_of_toToken hrest hscope hnewline hextent]

/-- Every word is cut from some text. -/
theorem exists_cuts {r : Reader} (h : r.next.1.lexeme.word? ≠ none) : ∃ text, r.Cuts text := by
  have hlexeme : r.next.1.lexeme = (cutToken r.wide r.toToken.rest).1 := rfl
  rw [hlexeme] at h
  cases hrest : r.toToken.rest with
  | nil =>
    rw [hrest] at h
    exact absurd rfl h
  | cons c cs =>
    by_cases hscope : c = ':'
    · exact ⟨_, .scope (hscope ▸ hrest)⟩
    by_cases hnewline : c = '\n'
    · rw [hrest, hnewline] at h
      exact absurd rfl h
    obtain ⟨text, taken, hextent⟩ := exists_wordExtent r.wide (c :: cs)
    exact ⟨text, .word hrest hscope hnewline hextent⟩

/-- **How far a word reaches.** Wherever in a source a text starts with neither a
newline, a `:`, a blank nor a comment, one of the rules applies, in either mode. And
whichever does, the token there is the word whose text the rule names, an identifier
having that text unchanged, and the reader stands behind what the rule says is taken.
Where the text opens with `(`, the same rule applies in the other mode. -/
theorem next_word_extent {source : String} {front cs : List Char} {c : Char}
    (h : source.toList = front ++ c :: cs) (hnewline : c ≠ '\n') (hscope : c ≠ ':')
    (hblank : isBlank c = false) (hcomment : ¬OpensComment (c :: cs)) (wide : Bool) :
    (∃ text taken, WordExtent wide (reach (c :: cs)) text taken) ∧
      ∀ text taken, WordExtent wide (reach (c :: cs)) text taken →
        ∃ rest, source.toList = (front ++ taken) ++ rest ∧
          (⟨c :: cs, size front, wide⟩ : Reader).next =
            (⟨.ofWord text, size front⟩, ⟨rest, size (front ++ taken), wide⟩) ∧
          (∀ word, Lexeme.ofWord text = .identifier word → word.toList = text) ∧
          (c = '(' → ∀ wide', WordExtent wide' (reach (c :: cs)) text taken) := by
  have hends : endsWord c = false := by simp [endsWord, hnewline, hscope]
  have hopen : opensWord (c :: cs) = true := by
    have happend := @opensWord_append (c :: cs) [] (by simp)
      (by rintro _ ⟨⟩; exact ⟨hblank, hends⟩) hcomment (by simp)
    rwa [List.append_nil] at happend
  refine ⟨exists_wordExtent wide (c :: cs), fun text taken hextent => ?_⟩
  obtain ⟨rest, hrest⟩ := hextent.isPrefix.trans (List.takeWhile_prefix _)
  have hnext := next_of_wordExtent hopen hextent (size front)
  rw [← hrest, List.drop_left, hrest, ← size_append] at hnext
  refine ⟨rest, by rw [h, ← hrest, List.append_assoc], hnext, ?_, ?_⟩
  · intro word hword
    rw [Lexeme.ofWord] at hword
    split at hword
    · cases hword
    · cases hword
      exact String.toList_ofList
  · rintro rfl wide'
    have hhead : (reach ('(' :: cs)).head? = some '(' := head?_reach hopen
    cases hextent with
    | span hspan hwithin => exact .span hspan hwithin
    | openSpan hspan hnever htext => exact .openSpan hspan hnever htext
    | wide hspan => exact absurd hhead hspan
    | narrow hspan => exact absurd hhead hspan

/-- Nested spans beside each other, with a blank inside and an accent in front. -/
theorem next_word_extent_nested :
    WordExtent false (reach "(a (b) c)(d) e: f".toList) "(a (b) c)".toList "(a (b) c)".toList ∧
      (⟨"(a (b) c)(d) e: f".toList, 3, false⟩ : Reader).next =
        (⟨.ofWord "(a (b) c)".toList, 3⟩, ⟨"(d) e: f".toList, 12, false⟩) := by
  have hextent : WordExtent false (reach "(a (b) c)(d) e: f".toList) "(a (b) c)".toList
      "(a (b) c)".toList := .span (by decide) (by decide)
  refine ⟨hextent, ?_⟩
  obtain ⟨rest, hrest, hnext, -⟩ := (@next_word_extent "é (a (b) c)(d) e: f" "é ".toList
    "a (b) c)(d) e: f".toList '(' (by decide) (by decide) (by decide) rfl (by decide) false).2 _ _
      hextent
  have hsource : "é (a (b) c)(d) e: f".toList =
      ("é ".toList ++ "(a (b) c)".toList) ++ "(d) e: f".toList := by decide
  rw [List.append_cancel_left (hrest.symm.trans hsource)] at hnext
  exact hnext

end Reader

end Questbook
