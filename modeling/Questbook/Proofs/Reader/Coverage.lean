/-
Questbook.Proofs.Reader.Coverage — the tokens and the gaps between them are the
source.

Reading loses nothing and makes nothing up. A source is a gap, a token, a gap, a
token and so on up to a last gap (`Covers`): each token starts where its offset
says, its text there is a spelling of it (`Lexeme.Spelled`), and what stands
between two tokens is blanks and comments. The mode may change before every
token, so the tokens are read with a mode for each (`readAt`).

The blanks at the end of a word read widely are cut off with the word, but they
are no part of its text. They count to the gap behind it (`Covers.blanks`). No
such rule is needed for a comment, because no comment stands behind a token
before the next one is read.
-/
import Questbook.Proofs.Reader.Tokens
import Questbook.Proofs.Text.Numeral

namespace Questbook

open Text Extent

/-! ## 1. Gaps and spellings -/

/-- Blanks and comments. A comment reaches through the end of its line; the last
gap of a source may end in one that no newline ends. -/
inductive IsGap (last : Bool) : List Char → Prop where
  | nil : IsGap last []
  | blank {c : Char} {cs : List Char} (hc : isBlank c = true) (h : IsGap last cs) :
      IsGap last (c :: cs)
  | comment {text cs : List Char} (htext : ∀ c ∈ text, c ≠ '\n') (h : IsGap last cs) :
      IsGap last ('$' :: '-' :: (text ++ '\n' :: cs))
  | openComment {text : List Char} (hlast : last = true) (htext : ∀ c ∈ text, c ≠ '\n') :
      IsGap last ('$' :: '-' :: text)

/-- The texts that a lexeme can have in a source. -/
def Lexeme.Spelled : Lexeme → List Char → Prop
  | .identifier word, text =>
    text = word.toList ∧ text ≠ [] ∧ (∀ c ∈ text, c ≠ '\n') ∧ (':' ∈ text → text = [':'])
  | .integer value, text => Numeral.Signed text value.toInt
  | .lineBreaks count, text =>
    text.head? = some '\n' ∧ (∀ c ∈ text, isSpacing c = true) ∧ text.count '\n' = count
  | .endOfFile, _ => False

/-- The text that starts at `offset` is these tokens with gaps before, between
and behind them. -/
inductive Covers : Nat → List Token → List Char → Prop where
  | done {offset : Nat} {cs : List Char} (h : IsGap true cs) : Covers offset [] cs
  | token {offset : Nat} {t : Token} {ts : List Token} {gap text rest : List Char}
      (hgap : IsGap false gap) (hplace : t.offset = offset + size gap)
      (htext : t.lexeme.Spelled text) (h : Covers (t.offset + size text) ts rest) :
      Covers offset (t :: ts) (gap ++ (text ++ rest))

theorem Lexeme.Spelled.ne_nil {lexeme : Lexeme} {text : List Char} (h : lexeme.Spelled text) :
    text ≠ [] := by
  cases lexeme with
  | identifier word => exact h.2.1
  | integer value => exact Numeral.Signed.ne_nil h
  | lineBreaks count =>
    rintro rfl
    cases h.1
  | endOfFile => exact h.elim

theorem IsGap.blanks {last : Bool} {blanks cs : List Char}
    (hblanks : ∀ c ∈ blanks, isBlank c = true) (h : IsGap last cs) : IsGap last (blanks ++ cs) := by
  induction blanks with
  | nil => exact h
  | cons c blanks ih =>
    obtain ⟨hc, hblanks⟩ := List.forall_mem_cons.1 hblanks
    exact .blank hc (ih hblanks)

namespace Covers

variable {offset : Nat} {ts : List Token} {cs : List Char}

/-- Blanks count to the gap behind them. -/
theorem blanks {blanks : List Char} (hblanks : ∀ c ∈ blanks, isBlank c = true)
    (h : Covers (offset + size blanks) ts cs) : Covers offset ts (blanks ++ cs) := by
  cases h with
  | done h => exact .done (h.blanks hblanks)
  | @token _ t ts gap text rest hgap hplace htext h =>
    rw [← List.append_assoc]
    refine .token (hgap.blanks hblanks) ?_ htext h
    rw [hplace, size_append, Nat.add_assoc]

theorem offset_le (h : Covers offset ts cs) : ∀ t ∈ ts, offset ≤ t.offset := by
  induction h with
  | done h => simp
  | @token offset t ts gap text rest hgap hplace htext h ih =>
    intro u hu
    rcases List.mem_cons.1 hu with rfl | hu
    · omega
    · have := ih u hu
      omega

/-- No two tokens share a character: each takes at least one. -/
theorem pairwise (h : Covers offset ts cs) : ts.Pairwise fun t u => t.offset < u.offset := by
  induction h with
  | done h => exact .nil
  | @token offset t ts gap text rest hgap hplace htext h ih =>
    refine .cons (fun u hu => ?_) ih
    have hle := h.offset_le u hu
    have hpos := size_pos htext.ne_nil
    omega

end Covers

/-! ## 2. The gap before a token -/

theorem exists_eq_dash_cons {opener cs : List Char} (hdash : (opener ++ cs).head? = some '-')
    (hcs : cs.head? ≠ some '-') : ∃ text, opener = '-' :: text := by
  cases opener with
  | nil => exact absurd hdash hcs
  | cons c opener => exact ⟨opener, by rw [Option.some.inj hdash]⟩

/-- What is passed over before a token. An open comment is given by its text so
far, which starts with the second of the two characters that open it. -/
theorem isGap_splitGap {last : Bool} (cs : List Char) :
    (((splitGap false cs).2 = [] → last = true) → IsGap last (splitGap false cs).1) ∧
      ∀ opener, (∀ c ∈ opener, c ≠ '\n') → (opener ++ cs).head? = some '-' →
        ((splitGap true cs).2 = [] → last = true) →
          IsGap last ('$' :: (opener ++ (splitGap true cs).1)) := by
  induction cs with
  | nil =>
    refine ⟨fun _ => .nil, fun opener hopener hdash hlast => ?_⟩
    obtain ⟨text, rfl⟩ := exists_eq_dash_cons hdash (by simp)
    rw [splitGap, List.append_nil]
    exact .openComment (hlast rfl) (List.forall_mem_cons.1 hopener).2
  | cons c cs ih =>
    refine ⟨fun hlast => ?_, fun opener hopener hdash hlast => ?_⟩
    · simp only [splitGap, Bool.false_eq_true, if_false] at hlast ⊢
      split at hlast
      · next hblank =>
        rw [if_pos hblank]
        exact .blank hblank (ih.1 hlast)
      · next hblank =>
        rw [if_neg hblank]
        split at hlast
        · next hdollar =>
          rw [if_pos hdollar]
          simp only [Bool.and_eq_true, beq_iff_eq] at hdollar
          rw [hdollar.1]
          exact ih.2 [] (by simp) hdollar.2 hlast
        · next hdollar =>
          rw [if_neg hdollar]
          exact .nil
    · by_cases hc : c = '\n'
      · subst hc
        obtain ⟨text, rfl⟩ := exists_eq_dash_cons hdash (by simp)
        exact .comment (List.forall_mem_cons.1 hopener).2 (ih.1 hlast)
      · have hopener' : ∀ d ∈ opener ++ [c], d ≠ '\n' := by
          intro d hd
          rcases List.mem_append.1 hd with hd | hd
          · exact hopener d hd
          · rwa [List.mem_singleton.1 hd]
        have hstep : splitGap true (c :: cs) = (c :: (splitGap true cs).1, (splitGap true cs).2) := by
          simp [splitGap, bne_iff_ne.2 hc]
        rw [hstep] at hlast ⊢
        have hgap := ih.2 (opener ++ [c]) hopener' (by simpa using hdash) hlast
        simpa using hgap

/-! ## 3. The text of a token -/

theorem trimRight_cons_ne_nil {c : Char} (hc : isBlank c = false) (cs : List Char) :
    trimRight (c :: cs) ≠ [] := by
  obtain ⟨blanks, hblanks, htrim⟩ := exists_append_trimRight (c :: cs)
  intro hnil
  rw [hnil, List.nil_append] at htrim
  have := hblanks c (by rw [← htrim]; exact List.mem_cons_self)
  rw [hc] at this
  cases this

/-- A word begins with the character it starts at. -/
theorem exists_splitWord_eq_cons {wide : Bool} {c : Char} (cs : List Char)
    (hin : inWord wide c = true) : ∃ word, (splitWord wide (c :: cs)).1 = c :: word := by
  have hlt := length_splitWord_lt wide cs hin
  have happend := append_splitWord wide (c :: cs)
  cases hfst : (splitWord wide (c :: cs)).1 with
  | nil =>
    rw [hfst, List.nil_append] at happend
    rw [happend] at hlt
    exact absurd hlt (Nat.lt_irrefl _)
  | cons d word =>
    rw [hfst] at happend
    exact ⟨word, by rw [(List.cons.inj happend).1]⟩

/-- A word that no newline and no `:` is part of spells its lexeme. -/
theorem spelled_ofWord {text : List Char} (hne : text ≠ [])
    (htext : ∀ c ∈ text, endsWord c = false) : (Lexeme.ofWord text).Spelled text := by
  have hends {c : Char} (hc : c ∈ text) : c ≠ '\n' ∧ c ≠ ':' := by
    have := htext c hc
    simpa [endsWord] using this
  unfold Lexeme.ofWord
  split
  · next value hvalue => exact Numeral.signed_of_read? hvalue
  · refine ⟨String.toList_ofList.symm, hne, fun c hc => (hends hc).1, fun hc => ?_⟩
    exact absurd rfl (hends hc).2

/-- What is cut off as a token is the text of it, with blanks behind it. -/
theorem spelled_cutToken (wide : Bool) {c : Char} {cs : List Char} (hc : isBlank c = false) :
    ∃ text blanks, (Reader.cutToken wide (c :: cs)).2.1 = text ++ blanks ∧
      (Reader.cutToken wide (c :: cs)).1.Spelled text ∧ ∀ b ∈ blanks, isBlank b = true := by
  by_cases hscope : c = ':'
  · subst hscope
    exact ⟨[':'], [], rfl, ⟨rfl, by simp, by simp, fun _ => rfl⟩, by simp⟩
  · by_cases hnewline : c = '\n'
    · subst hnewline
      refine ⟨(splitBreaks ('\n' :: cs)).1, [], (List.append_nil _).symm, ⟨rfl, ?_, rfl⟩, by simp⟩
      exact fun d hd => List.all_eq_true.1 List.all_takeWhile d hd
    · have hin : inWord wide c = true := by simp [inWord, endsWord, hc, hscope, hnewline]
      obtain ⟨word, hword⟩ := exists_splitWord_eq_cons cs hin
      obtain ⟨blanks, hblanks, htrim⟩ := exists_append_trimRight (splitWord wide (c :: cs)).1
      rw [Reader.cutToken_of_ne hscope hnewline]
      refine ⟨_, blanks, htrim, spelled_ofWord ?_ fun d hd => ?_, hblanks⟩
      · rw [hword]
        exact trimRight_cons_ne_nil hc word
      · have hmem : d ∈ (splitWord wide (c :: cs)).1 := by
          rw [htrim]
          exact List.mem_append_left _ hd
        exact endsWord_of_mem_splitWord hmem

/-! ## 4. Gaps passed over -/

namespace Reader

/-- An open comment ends with its line. -/
theorem splitGap_comment {text : List Char} (htext : ∀ c ∈ text, c ≠ '\n') (cs : List Char) :
    splitGap true (text ++ '\n' :: cs) =
      (text ++ '\n' :: (splitGap false cs).1, (splitGap false cs).2) := by
  induction text with
  | nil => rfl
  | cons c text ih =>
    obtain ⟨hc, htext⟩ := List.forall_mem_cons.1 htext
    simp [splitGap, bne_iff_ne.2 hc, ih htext]

theorem splitGap_openComment {text : List Char} (htext : ∀ c ∈ text, c ≠ '\n') :
    splitGap true text = (text, []) := by
  induction text with
  | nil => rfl
  | cons c text ih =>
    obtain ⟨hc, htext⟩ := List.forall_mem_cons.1 htext
    simp [splitGap, bne_iff_ne.2 hc, ih htext]

theorem toToken_comment {text : List Char} (htext : ∀ c ∈ text, c ≠ '\n') (cs : List Char)
    (offset : Nat) (wide : Bool) :
    (⟨'$' :: '-' :: (text ++ '\n' :: cs), offset, wide⟩ : Reader).toToken =
      (⟨cs, offset + size ('$' :: '-' :: (text ++ ['\n'])), wide⟩ : Reader).toToken := by
  simp [toToken, pass, splitGap, isBlank, splitGap_comment htext, Nat.add_assoc]

theorem toToken_openComment {text : List Char} (htext : ∀ c ∈ text, c ≠ '\n') (offset : Nat)
    (wide : Bool) :
    (⟨'$' :: '-' :: text, offset, wide⟩ : Reader).toToken =
      ⟨[], offset + size ('$' :: '-' :: text), wide⟩ := by
  simp [toToken, pass, splitGap, isBlank, splitGap_openComment htext]

theorem toToken_gap {gap : List Char} (hgap : IsGap false gap) (cs : List Char) (offset : Nat)
    (wide : Bool) :
    (⟨gap ++ cs, offset, wide⟩ : Reader).toToken =
      (⟨cs, offset + size gap, wide⟩ : Reader).toToken := by
  induction hgap generalizing offset with
  | nil => rfl
  | @blank c gap hc h ih =>
    rw [List.cons_append, toToken_blank hc, ih, size_cons, Nat.add_assoc]
  | @comment text gap htext h ih =>
    have hassoc : '$' :: '-' :: (text ++ '\n' :: gap) ++ cs =
        '$' :: '-' :: (text ++ '\n' :: (gap ++ cs)) := by simp
    rw [hassoc, toToken_comment htext, ih]
    simp [Nat.add_assoc]
  | openComment hlast htext => cases hlast

theorem next_gap {gap : List Char} (hgap : IsGap false gap) (cs : List Char) (offset : Nat)
    (wide : Bool) :
    (⟨gap ++ cs, offset, wide⟩ : Reader).next = (⟨cs, offset + size gap, wide⟩ : Reader).next := by
  rw [← next_toToken, toToken_gap hgap, next_toToken]

/-! ## 5. Runs -/

/-- At the end of the file, what is unread is the last gap. -/
theorem isGap_of_endOfFile {r : Reader} (h : r.next.1.lexeme = .endOfFile) : IsGap true r.rest := by
  have hrest : (splitGap false r.rest).2 = [] := rest_toToken_eq_nil h
  have happend := append_splitGap false r.rest
  rw [hrest, List.append_nil] at happend
  rw [← happend]
  exact (isGap_splitGap r.rest).1 fun _ => rfl

/-- Another token is a gap, the text of the token, and blanks that belong to the
next gap. -/
theorem next_pieces {r : Reader} (h : r.next.1.lexeme ≠ .endOfFile) :
    ∃ gap text blanks, r.rest = gap ++ (text ++ (blanks ++ r.next.2.rest)) ∧
      IsGap false gap ∧ r.next.1.lexeme.Spelled text ∧ (∀ b ∈ blanks, isBlank b = true) ∧
      r.next.1.offset = r.offset + size gap ∧
      r.next.2.offset = r.next.1.offset + size text + size blanks := by
  cases hrest : (splitGap false r.rest).2 with
  | nil =>
    refine absurd ?_ h
    simp [next, toToken, pass, hrest, cutToken]
  | cons c cs =>
    obtain ⟨text, blanks, hcut, hspelled, hblanks⟩ :=
      @spelled_cutToken r.wide c cs (isBlank_head_splitGap false hrest)
    have hnext : r.next =
        (⟨(cutToken r.wide (c :: cs)).1, r.offset + size (splitGap false r.rest).1⟩,
          ⟨(cutToken r.wide (c :: cs)).2.2, r.offset + size (splitGap false r.rest).1 +
            size (text ++ blanks), r.wide⟩) := by
      simp [next, toToken, pass, hrest, hcut]
    rw [hnext]
    refine ⟨(splitGap false r.rest).1, text, blanks, ?_, ?_, hspelled, hblanks, rfl, ?_⟩
    · rw [← List.append_assoc text, ← hcut, append_cutToken, ← hrest, append_splitGap]
    · refine (isGap_splitGap r.rest).1 fun hnil => ?_
      rw [hrest] at hnil
      cases hnil
    · rw [size_append, ← Nat.add_assoc]

/-- The next token covers the text up to where the rest is covered. -/
theorem covers_next {r : Reader} {ts : List Token} (h : r.next.1.lexeme ≠ .endOfFile)
    (hts : Covers r.next.2.offset ts r.next.2.rest) : Covers r.offset (r.next.1 :: ts) r.rest := by
  obtain ⟨gap, text, blanks, hrest, hgap, hspelled, hblanks, hplace, hbehind⟩ := next_pieces h
  rw [hbehind] at hts
  rw [hrest]
  exact .token hgap hplace hspelled (hts.blanks hblanks)

/-- The token number `n` from here on, when the token number `i` is read in the
mode `modes i`. -/
def readAt (modes : Nat → Bool) (r : Reader) : Nat → Token
  | 0 => { r with wide := modes 0 }.next.1
  | n + 1 => { r with wide := modes 0 }.next.2.readAt (fun i => modes (i + 1)) n

/-- From the end of the file on, it is all that is found. -/
theorem readAt_of_endOfFile {r : Reader} {modes : Nat → Bool}
    (h : { r with wide := modes 0 }.next.1.lexeme = .endOfFile) (n : Nat) :
    r.readAt modes n = ⟨.endOfFile, r.stop⟩ := by
  induction n generalizing r modes with
  | zero => exact next_of_endOfFile h
  | succ n ih =>
    have hnil : { r with wide := modes 0 }.next.2.rest = [] := rest_next_of_endOfFile h
    rw [readAt, ih (lexeme_next_of_rest_eq_nil hnil), stop_next]
    rfl

theorem readAt_cover (r : Reader) (modes : Nat → Bool) :
    ∃ ts, Covers r.offset ts r.rest ∧
      ∀ n, r.readAt modes n = ts[n]?.getD ⟨.endOfFile, r.stop⟩ := by
  induction hn : r.rest.length using Nat.strongRecOn generalizing r modes with
  | ind n ih =>
    obtain ⟨s, hs⟩ : ∃ s : Reader, s = { r with wide := modes 0 } := ⟨_, rfl⟩
    have hrest : s.rest = r.rest := by rw [hs]
    have hoffset : s.offset = r.offset := by rw [hs]
    have hstop : s.stop = r.stop := by rw [hs]; rfl
    by_cases h : s.next.1.lexeme = .endOfFile
    · rw [← hrest]
      exact ⟨[], .done (isGap_of_endOfFile h), readAt_of_endOfFile (hs ▸ h)⟩
    · have hlt := length_next_lt h
      obtain ⟨ts, hts, hread⟩ :=
        ih _ (by rw [← hn, ← hrest]; exact hlt) s.next.2 (fun i => modes (i + 1)) rfl
      rw [← hrest, ← hoffset]
      refine ⟨s.next.1 :: ts, covers_next h hts, fun n => ?_⟩
      cases n with
      | zero => rw [readAt, ← hs]; rfl
      | succ n =>
        rw [readAt, ← hs, hread, stop_next, hstop]
        rfl

end Reader

/-- **Reading loses nothing and makes nothing up.** Whatever mode each token of a
source is read in, the tokens found before the end of the file and the gaps
between them are the source. Their offsets increase, and behind them there is
nothing but the end of the file, at the size of the source. -/
theorem reads_cover (source : String) (modes : Nat → Bool) :
    ∃ ts : List Token, Covers 0 ts source.toList ∧
      ts.Pairwise (fun t u => t.offset < u.offset) ∧
      ∀ n, (Reader.ofSource source).readAt modes n =
        ts[n]?.getD ⟨.endOfFile, size source.toList⟩ := by
  obtain ⟨ts, hts, hread⟩ := (Reader.ofSource source).readAt_cover modes
  have hstop : (Reader.ofSource source).stop = size source.toList := Nat.zero_add _
  rw [hstop] at hread
  exact ⟨ts, hts, hts.pairwise, hread⟩

end Questbook
