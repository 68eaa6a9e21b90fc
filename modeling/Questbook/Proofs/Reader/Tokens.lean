/-
Questbook.Proofs.Reader.Tokens — a reader seen as the list of its tokens.

A reader goes through a source by looking ahead, keeping earlier readers and
taking them up again. None of that can be seen in its tokens: as long as the
mode stays as it is, every step leaves the tail of the token list
(`tokens_next`), and what the step finds is the head (`next_fst`). The end of
the file is no element of the list; the token that stands for it has its place
at `stop`, which no step moves.

The lemmas below say the same of the loops over tokens, so that a statement
about a loop becomes one about `List.takeWhile` and `List.dropWhile`.
-/
import Questbook.Proofs.Reader.Steps

namespace Questbook

open Text Extent

namespace Token

/-- A run of newlines. -/
def isBreaks (t : Token) : Bool :=
  match t.lexeme with
  | .lineBreaks _ => true
  | _ => false

/-- An identifier or an integer. -/
def isWord (t : Token) : Bool :=
  t.lexeme.word?.isSome

/-- The token of the same text further on in a source. -/
def shift (t : Token) (k : Nat) : Token :=
  { t with offset := t.offset + k }

end Token

namespace Reader

/-! ## 1. The end of the file -/

/-- The offset of the end of the file. -/
def stop (r : Reader) : Nat :=
  r.offset + size r.rest

theorem stop_pass (r : Reader) {cut : List Char × List Char} (h : cut.1 ++ cut.2 = r.rest) :
    (r.pass cut).stop = r.stop := by
  simp [stop, pass, ← h, Nat.add_assoc]

@[simp] theorem stop_toToken (r : Reader) : r.toToken.stop = r.stop :=
  r.stop_pass (append_splitGap false r.rest)

@[simp] theorem stop_next (r : Reader) : r.next.2.stop = r.stop := by
  have h : r.next.2.stop = r.toToken.stop :=
    r.toToken.stop_pass (append_cutToken r.toToken.wide r.toToken.rest)
  rw [h, stop_toToken]

/-- What is taken with a token stood at the front of the unread text. -/
theorem exists_append_next (r : Reader) :
    ∃ piece, r.rest = piece ++ r.next.2.rest ∧ r.next.2.offset = r.offset + size piece := by
  refine ⟨(splitGap false r.rest).1 ++ (cutToken r.wide (splitGap false r.rest).2).2.1, ?_, ?_⟩
  · have hgap := append_splitGap false r.rest
    have hcut := append_cutToken r.wide (splitGap false r.rest).2
    rw [List.append_assoc]
    show _ = _ ++ (_ ++ (cutToken r.wide (splitGap false r.rest).2).2.2)
    rw [hcut, hgap]
  · rw [size_append, ← Nat.add_assoc]
    rfl

theorem offset_next_le (r : Reader) : r.next.1.offset ≤ r.next.2.offset :=
  Nat.le_add_right r.toToken.offset (size (cutToken r.wide (splitGap false r.rest).2).2.1)

/-! ## 2. One token -/

/-- Behind a gap there is no gap. -/
theorem splitGap_splitGap (comment : Bool) (cs : List Char) :
    splitGap false (splitGap comment cs).2 = ([], (splitGap comment cs).2) := by
  induction cs generalizing comment with
  | nil => rfl
  | cons c cs ih => grind [splitGap]

@[simp] theorem toToken_toToken (r : Reader) : r.toToken.toToken = r.toToken := by
  simp [toToken, pass, splitGap_splitGap]

/-- The gap before a token makes no difference to it. -/
@[simp] theorem next_toToken (r : Reader) : r.toToken.next = r.next := by
  rw [next, toToken_toToken]
  rfl

theorem cutToken_eq_endOfFile {wide : Bool} {cs : List Char}
    (h : (cutToken wide cs).1 = .endOfFile) : cs = [] := by
  unfold cutToken at h
  split at h
  · rfl
  · cases h
  · cases h
  · exact absurd h (ofWord_ne_endOfFile _)

/-- At the end of the file there is nothing but a gap. -/
theorem rest_toToken_eq_nil {r : Reader} (h : r.next.1.lexeme = .endOfFile) :
    r.toToken.rest = [] :=
  cutToken_eq_endOfFile h

theorem next_of_endOfFile {r : Reader} (h : r.next.1.lexeme = .endOfFile) :
    r.next.1 = ⟨.endOfFile, r.stop⟩ := by
  have hrest := rest_toToken_eq_nil h
  have hstop : r.toToken.offset = r.stop := by
    rw [← stop_toToken, stop, hrest, size_nil, Nat.add_zero]
  simp [next, hrest, cutToken, hstop]

theorem tokens_of_endOfFile {r : Reader} (h : r.next.1.lexeme = .endOfFile) : r.tokens = [] := by
  rw [tokens, dif_pos h]

theorem tokens_of_ne_endOfFile {r : Reader} (h : r.next.1.lexeme ≠ .endOfFile) :
    r.tokens = r.next.1 :: r.next.2.tokens := by
  rw [tokens, dif_neg h]

/-- The next token is the head of the list, or the end of the file. -/
theorem next_fst (r : Reader) : r.next.1 = r.tokens.headD ⟨.endOfFile, r.stop⟩ := by
  by_cases h : r.next.1.lexeme = .endOfFile
  · rw [tokens_of_endOfFile h, next_of_endOfFile h]
    rfl
  · rw [tokens_of_ne_endOfFile h]
    rfl

theorem lexeme_next_of_rest_eq_nil {r : Reader} (h : r.rest = []) :
    r.next.1.lexeme = .endOfFile := by
  simp [next, toToken, pass, h, splitGap, cutToken]

theorem rest_next_of_endOfFile {r : Reader} (h : r.next.1.lexeme = .endOfFile) :
    r.next.2.rest = [] := by
  simp [next, pass, rest_toToken_eq_nil h, cutToken]

/-- Behind the next token is the tail of the list. -/
theorem tokens_next (r : Reader) : r.next.2.tokens = r.tokens.tail := by
  by_cases h : r.next.1.lexeme = .endOfFile
  · have hnext := lexeme_next_of_rest_eq_nil (rest_next_of_endOfFile h)
    rw [tokens_of_endOfFile h, tokens_of_endOfFile hnext]
    rfl
  · rw [tokens_of_ne_endOfFile h]
    rfl

theorem next_of_tokens_eq_cons {r : Reader} {t : Token} {ts : List Token}
    (h : r.tokens = t :: ts) : r.next.1 = t ∧ r.next.2.tokens = ts := by
  simp [next_fst, tokens_next, h]

/-- No token of the list is the end of the file. -/
theorem lexeme_ne_endOfFile {r : Reader} {t : Token} (h : t ∈ r.tokens) :
    t.lexeme ≠ .endOfFile := by
  fun_induction tokens r with
  | case1 r he => cases h
  | case2 r he ih =>
    rcases List.mem_cons.1 h with rfl | h
    · exact he
    · exact ih h

/-! ## 3. Other places with the same tokens -/

/-- The reader of the same text further on in a source. -/
def shift (r : Reader) (k : Nat) : Reader :=
  { r with offset := r.offset + k }

theorem shift_ofSource (source : String) (k : Nat) :
    (ofSource source).shift k = ⟨source.toList, k, false⟩ := by
  simp [ofSource, shift]

theorem next_shift (r : Reader) (k : Nat) :
    (r.shift k).next = (r.next.1.shift k, r.next.2.shift k) := by
  simp [next, toToken, pass, shift, Token.shift, Nat.add_right_comm]

theorem skipBreaks_shift (r : Reader) (k : Nat) : (r.shift k).skipBreaks = r.skipBreaks.shift k := by
  fun_induction skipBreaks r with
  | case1 r count h ih =>
    have hcount : (r.shift k).next.1.lexeme = .lineBreaks count := by rw [next_shift]; exact h
    rw [skipBreaks_of_lineBreaks hcount, next_shift]
    exact ih
  | case2 r h =>
    exact skipBreaks_of_ne_lineBreaks fun count => by rw [next_shift]; exact h count

theorem tokens_shift (r : Reader) (k : Nat) :
    (r.shift k).tokens = r.tokens.map (·.shift k) := by
  fun_induction tokens r with
  | case1 r h => exact tokens_of_endOfFile (by rw [next_shift]; exact h)
  | case2 r h ih =>
    rw [tokens_of_ne_endOfFile (by rw [next_shift]; exact h), next_shift]
    simp [ih]

/-- Readers that come to the same token have the same tokens. -/
theorem tokens_eq_of_toToken_eq {r s : Reader} (h : r.toToken = s.toToken) :
    r.tokens = s.tokens := by
  have hnext : r.next = s.next := by simp [next, h]
  by_cases he : s.next.1.lexeme = .endOfFile
  · rw [tokens_of_endOfFile he, tokens_of_endOfFile (by rw [hnext]; exact he)]
  · rw [tokens_of_ne_endOfFile he, tokens_of_ne_endOfFile (by rw [hnext]; exact he), hnext]

theorem toToken_blank {c : Char} (hc : isBlank c = true) (cs : List Char) (offset : Nat)
    (wide : Bool) :
    (⟨c :: cs, offset, wide⟩ : Reader).toToken =
      (⟨cs, offset + c.utf8Size, wide⟩ : Reader).toToken := by
  simp [toToken, pass, splitGap, hc, Nat.add_assoc]

theorem next_newline (cs : List Char) (offset : Nat) (wide : Bool) :
    (⟨'\n' :: cs, offset, wide⟩ : Reader).next =
      (⟨.lineBreaks ((cs.takeWhile isSpacing).count '\n' + 1), offset⟩,
        ⟨cs.dropWhile isSpacing, offset + (1 + size (cs.takeWhile isSpacing)), wide⟩) := by
  simp [next, toToken, pass, splitGap, isBlank, cutToken, splitBreaks, isSpacing]

/-- Behind line breaks, newlines and blanks passed over make no difference. -/
theorem tokens_behind_spacing (cs : List Char) (offset : Nat) (wide : Bool) :
    (⟨cs.dropWhile isSpacing, offset + size (cs.takeWhile isSpacing), wide⟩ :
        Reader).tokens.dropWhile Token.isBreaks =
      (⟨cs, offset, wide⟩ : Reader).tokens.dropWhile Token.isBreaks := by
  induction cs generalizing offset with
  | nil => rfl
  | cons c cs ih =>
    cases hblank : isBlank c with
    | true =>
      have hspacing : isSpacing c = true := by simp [isSpacing, hblank]
      rw [tokens_eq_of_toToken_eq (toToken_blank hblank cs offset wide), ← ih]
      simp [hspacing, Nat.add_assoc]
    | false =>
      by_cases hnewline : c = '\n'
      · subst hnewline
        have hne : (⟨'\n' :: cs, offset, wide⟩ : Reader).next.1.lexeme ≠ .endOfFile := by
          simp [next_newline]
        rw [tokens_of_ne_endOfFile hne, next_newline]
        simp [isSpacing]
        rfl
      · have hspacing : isSpacing c = false := by simp [isSpacing, hblank, hnewline]
        simp [hspacing]

/-- A newline in front adds to the line breaks there, or is one itself. -/
theorem tokens_newline (cs : List Char) (offset : Nat) (wide : Bool) :
    (⟨'\n' :: cs, offset, wide⟩ : Reader).tokens.dropWhile Token.isBreaks =
      (⟨cs, offset + 1, wide⟩ : Reader).tokens.dropWhile Token.isBreaks := by
  rw [← tokens_behind_spacing, ← tokens_behind_spacing cs]
  simp [isSpacing, Nat.add_assoc]

/-! ## 4. Loops over tokens -/

@[simp] theorem stop_skipBreaks (r : Reader) : r.skipBreaks.stop = r.stop := by
  fun_induction skipBreaks r with
  | case1 r count h ih => rw [ih, stop_next]
  | case2 r h => rfl

@[simp] theorem tokens_skipBreaks (r : Reader) :
    r.skipBreaks.tokens = r.tokens.dropWhile Token.isBreaks := by
  fun_induction skipBreaks r with
  | case1 r count h ih =>
    rw [ih, tokens_of_ne_endOfFile (r := r) (by simp [h])]
    simp [Token.isBreaks, h]
  | case2 r h =>
    cases hts : r.tokens with
    | nil => rfl
    | cons t ts =>
      obtain ⟨rfl, -⟩ := next_of_tokens_eq_cons hts
      have hb : r.next.1.isBreaks = false := by
        unfold Token.isBreaks
        split
        · next count hc => exact absurd hc (h count)
        · rfl
      simp [hb]

/-- Taking a token leaves the end of the file where it is. -/
theorem stop_of_onward_take {α : Type} {expected : String} {accept : Token → Option α}
    {r last : Reader} {a : α} (h : onward (r.take expected accept) = .ok (a, last)) :
    last.stop = r.stop := by
  rw [onward_take] at h
  split at h
  · cases h
    rw [stop_next, stop_skipBreaks]
  · cases h

@[simp] theorem stop_words (r : Reader) : r.words.2.stop = r.stop := by
  fun_induction words r with
  | case1 r word h others last heq ih => rw [heq] at ih; rw [ih, stop_next]
  | case2 r h => rfl

/-- The words up to the next line break are those at the front of the list. -/
theorem words_eq (r : Reader) :
    r.words.1 = (r.tokens.takeWhile Token.isWord).filterMap (·.lexeme.word?) ∧
      r.words.2.tokens = r.tokens.dropWhile Token.isWord := by
  fun_induction words r with
  | case1 r word h others last heq ih =>
    rw [heq] at ih
    have hne : r.next.1.lexeme ≠ .endOfFile := by
      intro he
      simp [he, Lexeme.word?] at h
    have hw : r.next.1.isWord = true := by simp [Token.isWord, h]
    rw [tokens_of_ne_endOfFile hne]
    refine ⟨?_, by simpa [hw] using ih.2⟩
    simpa [hw, h] using ih.1
  | case2 r h =>
    cases hts : r.tokens with
    | nil => simp
    | cons t ts =>
      obtain ⟨rfl, -⟩ := next_of_tokens_eq_cons hts
      have hw : r.next.1.isWord = false := by simp [Token.isWord, h]
      simp [hw]

end Reader

end Questbook
