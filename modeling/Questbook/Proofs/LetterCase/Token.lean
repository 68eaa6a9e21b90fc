/-
Questbook.Proofs.LetterCase.Token — the tokens of a text whose capitals were made
small.

The characters that the scanner knows are blanks, newlines, signs and digits. No
letter is among them, so a text is cut into the same pieces whether its letters
are large or small, and the pieces have the same sizes. What comes of a token is
its text made small, if it is an identifier, and the token itself otherwise: a
numeral has no letters. `Reader.next_toSmall` says this of one token, and
`tokenize_fold` of all tokens of a source.
-/
import Questbook.Proofs.Reader.Tokens

namespace Questbook

open Text Extent

/-! ## 1. Characters -/

namespace Text

/-- A character that is no letter comes of itself only. -/
theorem toLower_eq_iff {c d : Char} (hd : d.isAlpha = false) : c.toLower = d ↔ c = d := by
  obtain ⟨hupper, hlower⟩ : d.isUpper = false ∧ d.isLower = false := Bool.or_eq_false_iff.1 hd
  refine ⟨fun h => eq_of_toLower_eq h hlower, ?_⟩
  rintro rfl
  exact toLower_of_not_isUpper hupper

theorem toLower_beq {c d : Char} (hd : d.isAlpha = false) : (c.toLower == d) = (c == d) := by
  rw [Bool.eq_iff_iff, beq_iff_eq, beq_iff_eq]
  exact toLower_eq_iff hd

theorem count_map_toLower {d : Char} (hd : d.isAlpha = false) (cs : List Char) :
    (cs.map Char.toLower).count d = cs.count d := by
  rw [List.count_eq_countP, List.count_eq_countP, List.countP_map]
  exact List.countP_congr fun c _ => by rw [Function.comp, toLower_beq hd]

@[simp] theorem isBlank_toLower (c : Char) : isBlank c.toLower = isBlank c := by
  simp (disch := decide) only [isBlank, toLower_beq]

@[simp] theorem isSpacing_toLower (c : Char) : isSpacing c.toLower = isSpacing c := by
  simp (disch := decide) only [isSpacing, isBlank_toLower, toLower_beq]

theorem isDigit_iff {c : Char} : c.isDigit = true ↔ 48 ≤ c.toNat ∧ c.toNat ≤ 57 := by
  show (decide ('0'.val ≤ c.val) && decide (c.val ≤ '9'.val)) = true ↔ _
  rw [Bool.and_eq_true, decide_eq_true_iff, decide_eq_true_iff]
  exact Iff.rfl

@[simp] theorem isDigit_toLower (c : Char) : c.toLower.isDigit = c.isDigit := by
  cases h : c.isUpper with
  | false => rw [toLower_of_not_isUpper h]
  | true =>
    have hc := isUpper_iff.1 h
    have hn := toNat_toLower_of_isUpper h
    rw [Bool.eq_iff_iff, isDigit_iff, isDigit_iff]
    omega

theorem toLower_of_isDigit {c : Char} (h : c.isDigit = true) : c.toLower = c := by
  refine toLower_of_not_isUpper ?_
  rw [Bool.eq_false_iff, ne_eq, isUpper_iff]
  rw [isDigit_iff] at h
  omega

/-- A letter that has a small form takes one byte, and so does the small form. -/
@[simp] theorem utf8Size_toLower (c : Char) : c.toLower.utf8Size = c.utf8Size := by
  cases h : c.isUpper with
  | false => rw [toLower_of_not_isUpper h]
  | true =>
    have hc := isUpper_iff.1 h
    have hn := toNat_toLower_of_isUpper h
    rw [Char.utf8Size_eq_one_iff.2 (show c.toNat ≤ 127 by omega),
      Char.utf8Size_eq_one_iff.2 (show c.toLower.toNat ≤ 127 by omega)]

@[simp] theorem size_map_toLower (cs : List Char) : size (cs.map Char.toLower) = size cs := by
  induction cs with
  | nil => rfl
  | cons c cs ih => simp [ih]

theorem trimRight_map_toLower (cs : List Char) :
    trimRight (cs.map Char.toLower) = (trimRight cs).map Char.toLower := by
  have hblank : isBlank ∘ Char.toLower = isBlank := funext isBlank_toLower
  rw [trimRight, trimRight, ← List.map_reverse, List.dropWhile_map, hblank, List.map_reverse]

end Text

/-! ## 2. Pieces of text -/

namespace Extent

/-- A cut of a text, when the capitals of the text are made small. -/
abbrev smallCut (cut : List Char × List Char) : List Char × List Char :=
  (cut.1.map Char.toLower, cut.2.map Char.toLower)

theorem splitGap_map_toLower (comment : Bool) (cs : List Char) :
    splitGap comment (cs.map Char.toLower) = smallCut (splitGap comment cs) := by
  induction cs generalizing comment with
  | nil => rfl
  | cons c cs ih =>
    have hdollar : (c.toLower == '$' && (cs.map Char.toLower).head? == some '-') =
        (c == '$' && cs.head? == some '-') := by
      rw [toLower_beq rfl]
      cases cs with
      | nil => rfl
      | cons d cs => simp (disch := decide) [toLower_beq]
    have hnewline : (c.toLower != '\n') = (c != '\n') := congrArg not (toLower_beq rfl)
    simp only [List.map_cons, splitGap, isBlank_toLower, hdollar, hnewline, ih]
    split
    · rfl
    · split
      · rfl
      · split <;> rfl

theorem splitBreaks_map_toLower (cs : List Char) :
    splitBreaks (cs.map Char.toLower) = smallCut (splitBreaks cs) := by
  have hspacing : isSpacing ∘ Char.toLower = isSpacing := funext isSpacing_toLower
  simp only [splitBreaks, smallCut, List.takeWhile_map, List.dropWhile_map, hspacing]

@[simp] theorem endsWord_toLower (c : Char) : endsWord c.toLower = endsWord c := by
  simp (disch := decide) only [endsWord, toLower_beq]

theorem splitSpan_map_toLower (depth : Nat) (cs : List Char) :
    splitSpan depth (cs.map Char.toLower) = smallCut (splitSpan depth cs) := by
  induction cs generalizing depth with
  | nil => rfl
  | cons c cs ih =>
    have hopen : (c.toLower == '(') = (c == '(') := toLower_beq rfl
    have hclose : (c.toLower == ')') = (c == ')') := toLower_beq rfl
    simp only [List.map_cons, splitSpan, endsWord_toLower, hopen, hclose, ih]
    split
    · rfl
    · split
      · rfl
      · split
        · split <;> rfl
        · rfl

theorem splitWord_map_toLower (wide : Bool) (cs : List Char) :
    splitWord wide (cs.map Char.toLower) = smallCut (splitWord wide cs) := by
  cases cs with
  | nil => rfl
  | cons c cs =>
    by_cases hc : c = '('
    · subst hc
      exact splitSpan_map_toLower 0 ('(' :: cs)
    · have hin : inWord wide ∘ Char.toLower = inWord wide := by
        funext c
        simp [inWord]
      rw [List.map_cons, splitWord_of_ne_open (mt (toLower_eq_iff rfl).1 hc),
        splitWord_of_ne_open hc, ← List.map_cons, List.takeWhile_map, List.dropWhile_map, hin]

end Extent

/-! ## 3. Tokens -/

namespace Text.Numeral

theorem map_toLower_of_all {ds : List Char} (h : ds.all Char.isDigit = true) :
    ds.map Char.toLower = ds := by
  rw [List.map_congr_left fun c hc => toLower_of_isDigit (List.all_eq_true.1 h c hc), List.map_id']

theorem readNat?_map_toLower (ds : List Char) : readNat? (ds.map Char.toLower) = readNat? ds := by
  cases h : ds.all Char.isDigit with
  | true => rw [map_toLower_of_all h]
  | false =>
    have h' : (ds.map Char.toLower).all Char.isDigit = false := by
      rw [← h, List.all_map]
      congr 1
      funext c
      exact isDigit_toLower c
    simp [readNat?, h, h']

/-- What opens with no sign is read as digits. -/
theorem readInt?_of_ne {c : Char} (hminus : c ≠ '-') (hplus : c ≠ '+') (cs : List Char) :
    readInt? (c :: cs) = (readNat? (c :: cs)).map fun n => (n : Int) := by
  unfold readInt?
  split
  · next heq => exact absurd (List.cons.inj heq).1 hminus
  · next heq => exact absurd (List.cons.inj heq).1 hplus
  · rfl

theorem readInt?_map_toLower (cs : List Char) :
    readInt? (cs.map Char.toLower) = readInt? cs := by
  cases cs with
  | nil => rfl
  | cons c cs =>
    by_cases hminus : c = '-'
    · subst hminus
      show readInt? ('-' :: cs.map Char.toLower) = _
      rw [readInt?, readInt?, readNat?_map_toLower]
    by_cases hplus : c = '+'
    · subst hplus
      show readInt? ('+' :: cs.map Char.toLower) = _
      rw [readInt?, readInt?, readNat?_map_toLower]
    · rw [List.map_cons, readInt?_of_ne (mt (toLower_eq_iff rfl).1 hminus)
        (mt (toLower_eq_iff rfl).1 hplus), readInt?_of_ne hminus hplus, ← List.map_cons,
        readNat?_map_toLower]

/-- A text is the same numeral whether its letters are large or small: a numeral
has none. -/
theorem read?_map_toLower (cs : List Char) : read? (cs.map Char.toLower) = read? cs := by
  rw [read?, read?, readInt?_map_toLower]

end Text.Numeral

/-! ## 4. Tokens -/

namespace Lexeme

/-- The token of the text made small. -/
def toSmall : Lexeme → Lexeme
  | identifier text => identifier (Text.fold text)
  | lexeme => lexeme

theorem ofWord_map_toLower (cs : List Char) :
    ofWord (cs.map Char.toLower) = (ofWord cs).toSmall := by
  rw [ofWord, ofWord, Numeral.read?_map_toLower]
  cases Numeral.read? cs with
  | none => simp [toSmall, Text.fold]
  | some value => rfl

theorem toSmall_eq_endOfFile {lexeme : Lexeme} :
    lexeme.toSmall = endOfFile ↔ lexeme = endOfFile := by
  cases lexeme <;> simp [toSmall]

end Lexeme

/-- The token of the text made small, at the same place. -/
def Token.toSmall (t : Token) : Token :=
  { t with lexeme := t.lexeme.toSmall }

namespace Reader

/-- The reader of the text made small. -/
def toSmall (r : Reader) : Reader :=
  { r with rest := r.rest.map Char.toLower }

theorem toSmall_ofSource (source : String) :
    (ofSource source).toSmall = ofSource (Text.fold source) := by
  rw [ofSource, ofSource, toList_fold, toSmall]

theorem toSmall_pass (r : Reader) (cut : List Char × List Char) :
    (r.pass cut).toSmall = r.toSmall.pass (smallCut cut) := by
  simp [pass, toSmall]

theorem cutToken_map_toLower (wide : Bool) (cs : List Char) :
    cutToken wide (cs.map Char.toLower) =
      ((cutToken wide cs).1.toSmall, smallCut (cutToken wide cs).2) := by
  cases cs with
  | nil => rfl
  | cons c cs =>
    by_cases hscope : c = ':'
    · subst hscope
      rfl
    by_cases hnewline : c = '\n'
    · subst hnewline
      show (Lexeme.lineBreaks ((splitBreaks (('\n' :: cs).map Char.toLower)).1.count '\n'),
        splitBreaks (('\n' :: cs).map Char.toLower)) = _
      rw [splitBreaks_map_toLower, count_map_toLower rfl]
      rfl
    · rw [List.map_cons, cutToken_of_ne (mt (toLower_eq_iff rfl).1 hscope)
        (mt (toLower_eq_iff rfl).1 hnewline), cutToken_of_ne hscope hnewline, ← List.map_cons,
        splitWord_map_toLower, trimRight_map_toLower, Lexeme.ofWord_map_toLower]

/-- **The next token of the text made small** is the next token made small, and so is
the place behind it. -/
theorem next_toSmall (r : Reader) : r.toSmall.next = (r.next.1.toSmall, r.next.2.toSmall) := by
  have hgap : r.toSmall.toToken = r.toToken.toSmall := by
    rw [toToken, toToken, toSmall_pass, ← splitGap_map_toLower]
    rfl
  have hcut := cutToken_map_toLower r.toToken.wide r.toToken.rest
  have hnext : r.toSmall.next = (⟨(cutToken r.toToken.wide (r.toToken.rest.map Char.toLower)).1,
      r.toToken.offset⟩,
      r.toToken.toSmall.pass (cutToken r.toToken.wide (r.toToken.rest.map Char.toLower)).2) := by
    rw [next, hgap]
    rfl
  rw [hnext, hcut, ← toSmall_pass]
  rfl

theorem tokens_toSmall (r : Reader) : r.toSmall.tokens = r.tokens.map Token.toSmall := by
  fun_induction tokens r with
  | case1 r h =>
    exact tokens_of_endOfFile (by rw [next_toSmall]; exact Lexeme.toSmall_eq_endOfFile.2 h)
  | case2 r h ih =>
    rw [tokens_of_ne_endOfFile (by rw [next_toSmall]; exact mt Lexeme.toSmall_eq_endOfFile.1 h),
      next_toSmall, List.map_cons, ih]

end Reader

/-- The tokens of a source made small are its tokens made small. -/
theorem tokenize_fold (source : String) :
    tokenize (fold source) = (tokenize source).map Token.toSmall := by
  rw [tokenize, ← Reader.toSmall_ofSource, Reader.tokens_toSmall, tokenize]

end Questbook
