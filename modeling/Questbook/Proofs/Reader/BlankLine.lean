/-
Questbook.Proofs.Reader.BlankLine — where a block of text ends.

A block ends at a token of two newlines or more. That is not quite a blank line: a
comment takes the newline at the end of its line along, so that the newlines behind it
are one less. A single blank line right behind a comment is a mere line break to the
reader, and what stands below is read on as text.

Up to the first blank line a block is read as if the source ended there
(`exists_blockLines_followedBy`). From the end of that text the reader comes to the blank
line through a gap. If it is closed, or more than one blank line follows, the block ends
(`textBlock_of_firstBlankLine`). Apart from blank lines behind comments, there is never
more than one newline between two words of a block (`noEmptyLine_textBlock`).
-/
import Mathlib.Data.List.Chain
import Mathlib.Data.List.Pairwise
import Questbook.Proofs.Grammar.Ahead
import Questbook.Proofs.Reader.Alone
import Questbook.Proofs.Reader.Seam
import Questbook.Proofs.Reader.Wide

namespace Questbook

open Text Extent

namespace Text

/-- A newline stands next, and nothing but blanks between it and another one. -/
def startsBlankLine : List Char → Bool
  | '\n' :: cs => (cs.dropWhile isBlank).head? == some '\n'
  | _ => false

/-- A blank line is somewhere in the text. -/
def hasBlankLine : List Char → Bool
  | [] => false
  | c :: cs => startsBlankLine (c :: cs) || hasBlankLine cs

/-- The mark of a comment is somewhere in the text, and a blank line right behind its
line. -/
def hasMarkedBlankLine : List Char → Bool
  | [] => false
  | c :: cs =>
    c == '$' && cs.head? == some '-' && startsBlankLine (cs.dropWhile (· != '\n')) ||
      hasMarkedBlankLine cs

/-- No two newlines stand next to each other. -/
def NoEmptyLine (cs : List Char) : Prop :=
  cs.IsChain fun c d => c ≠ '\n' ∨ d ≠ '\n'

instance (cs : List Char) : Decidable (NoEmptyLine cs) :=
  inferInstanceAs (Decidable (List.IsChain _ cs))

end Text

/-- A text cut at its first blank line. -/
structure FirstBlankLine (cs front breaks back : List Char) : Prop where
  eq_append : cs = front ++ (breaks ++ back)
  first : hasBlankLine (front ++ ['\n']) = false
  blank : IsBlankLine breaks
  behind : Reader.EndsBreaks back

/-! ## 1. Blank lines -/

namespace Text

theorem startsBlankLine_newline {blanks : List Char} (hblanks : ∀ c ∈ blanks, isBlank c = true)
    (cs : List Char) : startsBlankLine ('\n' :: (blanks ++ '\n' :: cs)) = true := by
  rw [startsBlankLine, List.dropWhile_append_of_pos hblanks]
  rfl

theorem exists_of_startsBlankLine {cs : List Char} (h : startsBlankLine cs = true) :
    ∃ rest others, cs = '\n' :: rest ∧ rest.dropWhile isBlank = '\n' :: others := by
  unfold startsBlankLine at h
  split at h
  · next rest => exact ⟨rest, _, rfl, (List.head?_eq_some_iff.1 (beq_iff_eq.1 h)).choose_spec⟩
  · cases h

theorem startsBlankLine_front {cs : List Char} (h : startsBlankLine cs = true) (back : List Char) :
    startsBlankLine (cs ++ back) = true := by
  obtain ⟨rest, others, rfl, hothers⟩ := exists_of_startsBlankLine h
  rw [List.cons_append, startsBlankLine, List.dropWhile_append, if_neg (by simp [hothers]), hothers]
  rfl

theorem hasBlankLine_of_startsBlankLine {cs : List Char} (h : startsBlankLine cs = true) :
    hasBlankLine cs = true := by
  cases cs with
  | nil => cases h
  | cons c cs => rw [hasBlankLine, h, Bool.true_or]

theorem hasBlankLine_append {cs : List Char} (h : hasBlankLine cs = true) (front : List Char) :
    hasBlankLine (front ++ cs) = true := by
  induction front with
  | nil => exact h
  | cons c front ih => rw [List.cons_append, hasBlankLine, ih, Bool.or_true]

/-- A text without blank lines has none further down. -/
theorem hasBlankLine_suffix {cs source : List Char} (hsource : hasBlankLine source = false)
    (h : cs <:+ source) : hasBlankLine cs = false := by
  obtain ⟨front, rfl⟩ := h
  rw [Bool.eq_false_iff] at hsource ⊢
  exact fun hline => hsource (hasBlankLine_append hline front)

theorem hasBlankLine_front {cs : List Char} (h : hasBlankLine cs = true) (back : List Char) :
    hasBlankLine (cs ++ back) = true := by
  induction cs with
  | nil => cases h
  | cons c cs ih =>
    rw [List.cons_append, hasBlankLine]
    rcases Bool.or_eq_true_iff.1 h with hstart | hline
    · rw [← List.cons_append, startsBlankLine_front hstart, Bool.true_or]
    · rw [ih hline, Bool.or_true]

theorem hasMarkedBlankLine_append {cs : List Char} (h : hasMarkedBlankLine cs = true)
    (front : List Char) : hasMarkedBlankLine (front ++ cs) = true := by
  induction front with
  | nil => exact h
  | cons c front ih => rw [List.cons_append, hasMarkedBlankLine, ih, Bool.or_true]

theorem hasMarkedBlankLine_suffix {cs source : List Char}
    (hsource : hasMarkedBlankLine source = false) (h : cs <:+ source) :
    hasMarkedBlankLine cs = false := by
  obtain ⟨front, rfl⟩ := h
  rw [Bool.eq_false_iff] at hsource ⊢
  exact fun hline => hsource (hasMarkedBlankLine_append hline front)

/-- A text without blank lines has no marked ones. -/
theorem hasMarkedBlankLine_of_hasBlankLine {cs : List Char} (h : hasBlankLine cs = false) :
    hasMarkedBlankLine cs = false := by
  induction cs with
  | nil => rfl
  | cons c cs ih =>
    obtain ⟨-, hcs⟩ := Bool.or_eq_false_iff.1 h
    have hbehind : startsBlankLine (cs.dropWhile (· != '\n')) = false := by
      rw [Bool.eq_false_iff]
      intro hstart
      have hnone := hasBlankLine_suffix hcs (List.dropWhile_suffix (· != '\n'))
      rw [hasBlankLine_of_startsBlankLine hstart] at hnone
      cases hnone
    rw [hasMarkedBlankLine, hbehind, ih hcs, Bool.and_false, Bool.or_false]

/-- Whether a blank line starts does not depend on what is behind the next newline. -/
theorem startsBlankLine_append_newline (c : Char) (front cs : List Char) :
    startsBlankLine (c :: (front ++ '\n' :: cs)) = startsBlankLine (c :: (front ++ ['\n'])) := by
  by_cases hc : c = '\n'
  · subst hc
    simp only [startsBlankLine, (takeWhile_newline isBlank_newline front _).2]
    cases front.dropWhile isBlank <;> rfl
  · unfold startsBlankLine
    split
    · next heq => exact absurd (List.cons.inj heq).1 hc
    · split
      · next heq => exact absurd (List.cons.inj heq).1 hc
      · rfl

theorem endsBreaks_dropWhile (cs : List Char) : Reader.EndsBreaks (cs.dropWhile isSpacing) := by
  intro c hc
  have hhead := List.head?_dropWhile_not isSpacing cs
  rw [hc] at hhead
  exact hhead

/-- Where a blank line starts, the run of newlines and blanks is one. -/
theorem isBlankLine_takeWhile {cs : List Char} (h : startsBlankLine cs = true) :
    IsBlankLine (cs.takeWhile isSpacing) := by
  obtain ⟨rest, others, rfl, hothers⟩ := exists_of_startsBlankLine h
  have hblanks : ∀ c ∈ rest.takeWhile isBlank, isSpacing c = true := fun c hc => by
    rw [isSpacing, List.all_eq_true.1 List.all_takeWhile c hc, Bool.true_or]
  have htake : rest.takeWhile isSpacing =
      rest.takeWhile isBlank ++ '\n' :: others.takeWhile isSpacing := by
    conv_lhs => rw [← List.takeWhile_append_dropWhile (p := isBlank) (l := rest), hothers,
      List.takeWhile_append_of_pos hblanks]
    rfl
  have hrun : ('\n' :: rest).takeWhile isSpacing =
      '\n' :: (rest.takeWhile isBlank ++ '\n' :: others.takeWhile isSpacing) := by
    rw [← htake]
    rfl
  refine ⟨by rw [hrun]; rfl, fun c hc => List.all_eq_true.1 List.all_takeWhile c hc, ?_⟩
  rw [hrun, List.count_cons_self, List.count_append, List.count_cons_self]
  omega

/-- A text that has a blank line has a first one. -/
theorem exists_firstBlankLine {cs : List Char} (h : hasBlankLine cs = true) :
    ∃ front breaks back, FirstBlankLine cs front breaks back := by
  induction cs with
  | nil => cases h
  | cons c cs ih =>
    cases hstart : startsBlankLine (c :: cs) with
    | true =>
      exact ⟨[], _, _, List.takeWhile_append_dropWhile.symm, rfl, isBlankLine_takeWhile hstart,
        endsBreaks_dropWhile _⟩
    | false =>
      rw [hasBlankLine, hstart, Bool.false_or] at h
      obtain ⟨front, breaks, back, hcut⟩ := ih h
      obtain ⟨rest, hrest⟩ := hcut.blank.exists_eq_cons
      refine ⟨c :: front, breaks, back, by rw [hcut.eq_append]; rfl, ?_, hcut.blank, hcut.behind⟩
      rw [List.cons_append, hasBlankLine, hcut.first, Bool.or_false, ← hstart, hcut.eq_append,
        hrest, List.cons_append, startsBlankLine_append_newline c front (rest ++ back)]

/-- Line breaks before a word, and at most one. -/
theorem NoEmptyLine.append_word {word others : List Char} {pending : Nat}
    (h : NoEmptyLine others) (hword : IsTextWord word) (hpending : pending ≤ 1) :
    NoEmptyLine (List.replicate pending '\n' ++ (word ++ others)) := by
  have hplain : NoEmptyLine word :=
    (List.pairwise_of_forall_mem_list fun c hc d _ => .inl (hword.one_line c hc)).isChain
  have hline : NoEmptyLine (word ++ others) :=
    List.isChain_append.2 ⟨hplain, h, fun c hc d _ =>
      .inl (hword.one_line c (List.mem_of_mem_getLast? hc))⟩
  cases pending with
  | zero => exact hline
  | succ n =>
    obtain rfl : n = 0 := by omega
    refine List.isChain_cons.2 ⟨fun d hd => .inr ?_, hline⟩
    obtain ⟨c, cs, rfl⟩ := List.exists_cons_of_ne_nil hword.ne_nil
    obtain rfl := Option.some.inj hd
    exact hword.one_line _ List.mem_cons_self

/-- Where no blank line starts, the run behind a newline has no other newline and does not
take the text to its end. -/
theorem spacing_of_startsBlankLine {cs : List Char}
    (h : startsBlankLine ('\n' :: (cs ++ ['\n'])) = false) :
    (cs.takeWhile isSpacing).count '\n' = 0 ∧ cs.dropWhile isSpacing ≠ [] := by
  induction cs with
  | nil => cases h
  | cons c cs ih =>
    cases hblank : isBlank c with
    | true =>
      have hspacing : isSpacing c = true := by simp [isSpacing, hblank]
      have hc := ne_newline_of_isBlank hblank
      rw [List.takeWhile_cons_of_pos hspacing, List.dropWhile_cons_of_pos hspacing,
        List.count_cons_of_ne hc]
      refine ih ?_
      rwa [List.cons_append, startsBlankLine, List.dropWhile_cons_of_pos hblank] at h
    | false =>
      have hc : c ≠ '\n' := by
        rintro rfl
        cases h
      have hspacing : isSpacing c = false := by simp [isSpacing, hblank, hc]
      simp [hspacing]

end Text

theorem FirstBlankLine.hasBlankLine_front {cs front breaks back : List Char}
    (h : FirstBlankLine cs front breaks back) : hasBlankLine front = false := by
  rw [Bool.eq_false_iff]
  intro hline
  have hfirst := h.first
  rw [Text.hasBlankLine_front hline] at hfirst
  cases hfirst

/-! ## 2. One token, with more text behind -/

/-- A gap is cut off in front of a newline as it is cut off alone, if it does not take the
text to its end. -/
theorem splitGap_append_newline {comment : Bool} {front : List Char}
    (hne : (splitGap comment front).2 ≠ []) (cs : List Char) :
    splitGap comment (front ++ '\n' :: cs) =
      ((splitGap comment front).1, (splitGap comment front).2 ++ '\n' :: cs) := by
  induction front generalizing comment with
  | nil => exact absurd rfl hne
  | cons c front ih =>
    have hdash : ((front ++ '\n' :: cs).head? == some '-') = (front.head? == some '-') := by
      cases front <;> rfl
    simp only [splitGap] at hne
    simp only [List.cons_append, splitGap, hdash]
    split at hne
    · next hcomment => rw [if_pos hcomment, if_pos hcomment, ih hne]
    · next hcomment =>
      rw [if_neg hcomment, if_neg hcomment]
      split at hne
      · next hblank => rw [if_pos hblank, if_pos hblank, ih hne]
      · next hblank =>
        rw [if_neg hblank, if_neg hblank]
        split at hne
        · next hmark => rw [if_pos hmark, if_pos hmark, ih hne]
        · next hmark =>
          rw [if_neg hmark, if_neg hmark]
          rfl

/-- Where no blank line is before the newline, a run of line breaks stops before it too. -/
theorem splitBreaks_append_newline {front : List Char}
    (hfirst : hasBlankLine ('\n' :: front ++ ['\n']) = false) (cs : List Char) :
    splitBreaks ('\n' :: front ++ '\n' :: cs) =
      ((splitBreaks ('\n' :: front)).1, (splitBreaks ('\n' :: front)).2 ++ '\n' :: cs) ∧
      (splitBreaks ('\n' :: front)).1.count '\n' = 1 := by
  obtain ⟨hcount, hdrop⟩ := spacing_of_startsBlankLine (Bool.or_eq_false_iff.1 hfirst).1
  have hstep (ds : List Char) : splitBreaks ('\n' :: ds) =
      ('\n' :: ds.takeWhile isSpacing, ds.dropWhile isSpacing) := rfl
  have hlength : (front.takeWhile isSpacing).length ≠ front.length := by
    intro hall
    have hsplit := congrArg List.length
      (List.takeWhile_append_dropWhile (p := isSpacing) (l := front))
    rw [List.length_append, hall] at hsplit
    exact hdrop (List.eq_nil_of_length_eq_zero (by omega))
  rw [List.cons_append, hstep, hstep, List.takeWhile_append, if_neg hlength, List.dropWhile_append,
    if_neg (by simpa using hdrop)]
  exact ⟨rfl, by rw [List.count_cons_self, hcount]⟩

namespace Reader

theorem cutToken_append_newline {front : List Char} (hne : front ≠ [])
    (hfirst : hasBlankLine (front ++ ['\n']) = false) (wide : Bool) (cs : List Char) :
    cutToken wide (front ++ '\n' :: cs) =
      ((cutToken wide front).1, (cutToken wide front).2.1,
        (cutToken wide front).2.2 ++ '\n' :: cs) := by
  cases front with
  | nil => exact absurd rfl hne
  | cons c front =>
    by_cases hnewline : c = '\n'
    · subst hnewline
      have hcut (ds : List Char) : cutToken wide ('\n' :: ds) =
          (.lineBreaks ((splitBreaks ('\n' :: ds)).1.count '\n'), splitBreaks ('\n' :: ds)) := rfl
      obtain ⟨hbreaks, -⟩ := splitBreaks_append_newline hfirst cs
      rw [List.cons_append, hcut, hcut, ← List.cons_append, hbreaks]
    · by_cases hscope : c = ':'
      · subst hscope
        rfl
      · rw [List.cons_append, cutToken_of_ne hscope hnewline, cutToken_of_ne hscope hnewline,
          splitWord_newline]

/-- The same place, with more text at the end of the source. -/
def followedBy (r : Reader) (cs : List Char) : Reader :=
  { r with rest := r.rest ++ cs }

theorem rest_toToken_ne_nil {r : Reader} (h : r.next.1.lexeme ≠ .endOfFile) :
    r.toToken.rest ≠ [] := by
  intro hnil
  rw [← next_toToken] at h
  exact h (lexeme_next_of_rest_eq_nil hnil)

/-- What a token leaves to be read is the end of what was. -/
theorem rest_next_suffix (r : Reader) : r.next.2.rest <:+ r.rest := by
  obtain ⟨piece, hpiece, -⟩ := r.exists_append_next
  exact ⟨piece, hpiece.symm⟩

theorem rest_toToken_suffix (r : Reader) : r.toToken.rest <:+ r.rest :=
  ⟨(splitGap false r.rest).1, append_splitGap false r.rest⟩

variable {r : Reader} (hfirst : hasBlankLine (r.rest ++ ['\n']) = false)

include hfirst

theorem hasBlankLine_toToken : hasBlankLine (r.toToken.rest ++ ['\n']) = false :=
  hasBlankLine_suffix hfirst (List.suffix_append_self_iff.2 r.rest_toToken_suffix)

theorem hasBlankLine_next : hasBlankLine (r.next.2.rest ++ ['\n']) = false :=
  hasBlankLine_suffix hfirst (List.suffix_append_self_iff.2 r.rest_next_suffix)

/-- The next token of a text is the same with a newline behind the text. -/
theorem next_followedBy (hne : r.next.1.lexeme ≠ .endOfFile) (cs : List Char) :
    (r.followedBy ('\n' :: cs)).next = (r.next.1, r.next.2.followedBy ('\n' :: cs)) := by
  have hrest := rest_toToken_ne_nil hne
  have hgap := splitGap_append_newline hrest cs
  have hcut := cutToken_append_newline hrest (hasBlankLine_toToken hfirst) r.toToken.wide cs
  have htoken : (r.followedBy ('\n' :: cs)).toToken = r.toToken.followedBy ('\n' :: cs) := by
    rw [toToken, followedBy, hgap]
    rfl
  rw [next, htoken]
  simp only [followedBy]
  rw [hcut]
  rfl

/-- Line breaks that are no blank line. -/
theorem count_eq_one {count : Nat} (h : r.next.1.lexeme = .lineBreaks count) : count = 1 := by
  have hline := hasBlankLine_toToken hfirst
  have hcut : (cutToken r.wide r.toToken.rest).1 = .lineBreaks count := h
  obtain ⟨cs, hrest⟩ := cutToken_eq_lineBreaks hcut
  rw [hrest] at hline hcut
  cases hcut
  exact (splitBreaks_append_newline hline []).2

/-! ## 3. Up to the blank line -/

/-- **A text without blank lines is read to its end**, and then on, with the line breaks
that still wait to be written. -/
theorem exists_blockLines_followedBy (pending : Nat) (cs : List Char) :
    (r.blockLines pending).2.next.1.lexeme = .endOfFile ∧
      (r.blockLines pending).2.wide = r.wide ∧
      ∃ waiting, (r.followedBy ('\n' :: cs)).blockLines pending =
        ((r.blockLines pending).1 ++
            (((r.blockLines pending).2.followedBy ('\n' :: cs)).blockLines waiting).1,
          (((r.blockLines pending).2.followedBy ('\n' :: cs)).blockLines waiting).2) := by
  fun_induction blockLines pending r with
  | case1 pending r word hword others last heq ih =>
    have hne : r.next.1.lexeme ≠ .endOfFile := by
      intro hend
      rw [hend] at hword
      cases hword
    have hnext := next_followedBy hfirst hne cs
    rw [heq] at ih
    obtain ⟨hend, hwide, waiting, hread⟩ := ih (hasBlankLine_next hfirst)
    refine ⟨hend, hwide, waiting, ?_⟩
    rw [blockLines_of_word? (by rw [hnext]; exact hword), hnext, hread]
    simp only [String.append_assoc]
  | case2 pending r hword hend =>
    refine ⟨hend, rfl, pending, ?_⟩
    rw [String.empty_append]
  | case3 pending r hword hend hblank =>
    cases hlexeme : r.next.1.lexeme with
    | lineBreaks count =>
      rw [hlexeme, count_eq_one hfirst hlexeme] at hblank
      cases hblank
    | _ =>
      rw [hlexeme] at hblank
      cases hblank
  | case4 pending r hword hend hblank ih =>
    cases hlexeme : r.next.1.lexeme with
    | lineBreaks count =>
      have hnext := next_followedBy hfirst hend cs
      have hcount : count < 2 := by rw [count_eq_one hfirst hlexeme]; decide
      obtain ⟨hend, hwide, waiting, hread⟩ := ih (hasBlankLine_next hfirst)
      refine ⟨hend, hwide, waiting, ?_⟩
      rw [blockLines_of_lineBreak (by rw [hnext]; exact hlexeme) hcount, hnext, hread]
    | endOfFile => exact absurd hlexeme hend
    | _ =>
      rw [hlexeme] at hword
      cases hword

/-! ## 4. At the blank line -/

omit hfirst

/-- Newlines and blanks, in front of something else, are one token. -/
theorem readsAs_breaks {breaks back : List Char} (hhead : breaks.head? = some '\n')
    (hspacing : ∀ c ∈ breaks, isSpacing c = true) (hback : EndsBreaks back) (wide : Bool) :
    ReadsAs wide breaks (.lineBreaks (breaks.count '\n')) back := by
  obtain ⟨others, rfl⟩ := List.head?_eq_some_iff.1 hhead
  obtain ⟨-, hothers⟩ := List.forall_mem_cons.1 hspacing
  obtain ⟨htake, hdrop⟩ := takeWhile_of_endsBreaks hback
  intro offset
  rw [List.cons_append, next_newline, List.takeWhile_append_of_pos hothers,
    List.dropWhile_append_of_pos hothers, htake, hdrop, List.append_nil, List.count_cons_self]
  rfl

end Reader

/-- Behind the first newline of a blank line there is another one. -/
theorem IsBlankLine.exists_newline {breaks : List Char} (h : IsBlankLine breaks) :
    ∃ blanks others, breaks = '\n' :: (blanks ++ others) ∧ (∀ c ∈ blanks, isBlank c = true) ∧
      others.head? = some '\n' ∧ (∀ c ∈ others, isSpacing c = true) ∧
      others.count '\n' + 1 = breaks.count '\n' := by
  obtain ⟨rest, rfl⟩ := h.exists_eq_cons
  obtain ⟨-, hspacing⟩ := List.forall_mem_cons.1 h.spacing
  have hcount := h.count
  rw [List.count_cons_self] at hcount
  have happend : rest.takeWhile isBlank ++ rest.dropWhile isBlank = rest :=
    List.takeWhile_append_dropWhile
  have hblanks : ∀ c ∈ rest.takeWhile isBlank, isBlank c = true := fun c hc =>
    List.all_eq_true.1 List.all_takeWhile c hc
  have hothers : ∀ c ∈ rest.dropWhile isBlank, isSpacing c = true := fun c hc =>
    hspacing c ((List.dropWhile_suffix isBlank).subset hc)
  have hnone : (rest.takeWhile isBlank).count '\n' = 0 :=
    List.count_eq_zero.2 fun hc => ne_newline_of_isBlank (hblanks _ hc) rfl
  have hsame : (rest.dropWhile isBlank).count '\n' = rest.count '\n' := by
    conv_rhs => rw [← happend, List.count_append, hnone, Nat.zero_add]
  refine ⟨rest.takeWhile isBlank, rest.dropWhile isBlank, by rw [happend], hblanks, ?_, hothers, ?_⟩
  · have hhead := List.head?_dropWhile_not isBlank rest
    cases hdrop : rest.dropWhile isBlank with
    | nil =>
      rw [hdrop, List.count_nil] at hsame
      omega
    | cons c others =>
      rw [hdrop] at hhead hothers
      have hc := hothers c List.mem_cons_self
      rw [isSpacing, show isBlank c = false from hhead, Bool.false_or, beq_iff_eq] at hc
      rw [hc]
      rfl
  · rw [List.count_cons_self, hsame]

/-- A gap in front of a newline is blank, or a comment in it stands before a blank line. -/
theorem IsGap.blanks_or_marked {gap : List Char} (h : IsGap false gap) :
    (∀ c ∈ gap, isBlank c = true) ∨ ∀ cs, hasMarkedBlankLine (gap ++ '\n' :: cs) = true := by
  induction h with
  | nil => exact .inl (by simp)
  | @blank c gap hc h ih =>
    refine ih.imp (fun hblanks => List.forall_mem_cons.2 ⟨hc, hblanks⟩) fun hmarked cs => ?_
    rw [List.cons_append, hasMarkedBlankLine, hmarked, Bool.or_true]
  | @comment text gap htext h ih =>
    right
    intro cs
    have hassoc : '$' :: '-' :: (text ++ '\n' :: gap) ++ '\n' :: cs =
        '$' :: '-' :: (text ++ '\n' :: (gap ++ '\n' :: cs)) := by simp
    rw [hassoc]
    rcases ih with hblanks | hmarked
    · have htext' : ∀ c ∈ '-' :: text, (c != '\n') = true := by
        simpa using htext
      have hline : ('-' :: (text ++ '\n' :: (gap ++ '\n' :: cs))).dropWhile (· != '\n') =
          '\n' :: (gap ++ '\n' :: cs) := by
        rw [← List.cons_append, List.dropWhile_append_of_pos htext']
        rfl
      rw [hasMarkedBlankLine, hline, startsBlankLine_newline hblanks]
      rfl
    · have hline := hasMarkedBlankLine_append (hmarked cs) ('$' :: '-' :: (text ++ ['\n']))
      simpa using hline
  | openComment hlast htext => cases hlast

namespace Reader

section AtBlankLine

variable {last : Reader} {breaks back : List Char} (hbreaks : IsBlankLine breaks)
  (hback : EndsBreaks back)

include hbreaks hback

/-- A blank line behind a closed gap ends the block. -/
theorem blockLines_closed (h : IsGap false last.rest) (waiting : Nat) :
    ∃ offset, (last.followedBy (breaks ++ back)).blockLines waiting =
      ("", ⟨back, offset, last.wide⟩) := by
  have hnext : (last.followedBy (breaks ++ back)).next = _ :=
    (next_gap h (breaks ++ back) last.offset last.wide).trans
      (readsAs_breaks hbreaks.head hbreaks.spacing hback last.wide _)
  refine ⟨last.offset + size last.rest + size breaks, ?_⟩
  rw [blockLines_of_isBlankLine (by rw [hnext]; simpa [Lexeme.isBlankLine] using hbreaks.count),
    hnext]

/-- A comment takes one newline of the blank line along. With two newlines, it leaves a
line break. -/
theorem blockLines_endsInComment (h : EndsInComment last.rest) (waiting : Nat) :
    ∃ offset, (last.followedBy (breaks ++ back)).blockLines waiting =
      if breaks.count '\n' = 2 then (⟨back, offset, last.wide⟩ : Reader).blockLines (waiting + 1)
      else ("", ⟨back, offset, last.wide⟩) := by
  obtain ⟨gap, text, hgap, htext, hrest⟩ := h
  obtain ⟨blanks, others, hnewline, hblanks, hhead, hspacing, hcount⟩ := hbreaks.exists_newline
  obtain ⟨closed, hclosed⟩ : ∃ closed, closed = gap ++ '$' :: '-' :: (text ++ '\n' :: blanks) :=
    ⟨_, rfl⟩
  have hcomment : IsGap false closed := by
    have hblanks' := IsGap.blanks hblanks (@IsGap.nil false)
    rw [List.append_nil] at hblanks'
    exact hclosed ▸ hgap.append (.comment htext hblanks')
  have happend : last.followedBy (breaks ++ back) =
      ⟨closed ++ (others ++ back), last.offset, last.wide⟩ := by
    simp [followedBy, hrest, hnewline, hclosed]
  have hnext : (last.followedBy (breaks ++ back)).next = _ :=
    happend ▸ (next_gap hcomment (others ++ back) last.offset last.wide).trans
      (readsAs_breaks hhead hspacing hback last.wide _)
  refine ⟨last.offset + size closed + size others, ?_⟩
  split
  · next htwo =>
    rw [blockLines_of_lineBreak (by rw [hnext]) (by omega), hnext]
  · next hmore =>
    have := hbreaks.count
    rw [blockLines_of_isBlankLine (by rw [hnext]; simp [Lexeme.isBlankLine]; omega), hnext]

end AtBlankLine

/-! ## 5. Blocks -/

theorem isBlankLine_of_lineBreaks {lexeme : Lexeme} {count : Nat} (h : lexeme = .lineBreaks count)
    (hcount : ¬count < 2) : lexeme.isBlankLine = true := by
  rw [h]
  exact decide_eq_true (Nat.not_lt.1 hcount)

/-- The gap in front of a block makes no difference to it. -/
theorem blockLines_toToken {r : Reader} (h : r.next.1.lexeme ≠ .endOfFile) (pending : Nat) :
    r.toToken.blockLines pending = r.blockLines pending := by
  have hnext := r.next_toToken
  cases hlexeme : r.next.1.lexeme with
  | lineBreaks count =>
    by_cases hcount : count < 2
    · rw [blockLines_of_lineBreak (hnext ▸ hlexeme) hcount, blockLines_of_lineBreak hlexeme hcount,
        hnext]
    · have hblank := isBlankLine_of_lineBreaks hlexeme hcount
      rw [blockLines_of_isBlankLine (hnext ▸ hblank), blockLines_of_isBlankLine hblank, hnext]
  | endOfFile => exact absurd hlexeme h
  | identifier text => exact blockLines_congr hnext (by rw [hlexeme]; rfl) pending
  | integer value => exact blockLines_congr hnext (by rw [hlexeme]; rfl) pending

theorem length_blockLines_lt {r : Reader} (h : r.next.1.lexeme ≠ .endOfFile) (pending : Nat) :
    (r.blockLines pending).2.rest.length < r.rest.length := by
  have hlt := length_next_lt h
  cases hlexeme : r.next.1.lexeme with
  | lineBreaks count =>
    by_cases hcount : count < 2
    · rw [blockLines_of_lineBreak hlexeme hcount]
      exact Nat.lt_of_le_of_lt (length_blockLines_le _ _) hlt
    · rw [blockLines_of_isBlankLine (isBlankLine_of_lineBreaks hlexeme hcount)]
      exact hlt
  | endOfFile => exact absurd hlexeme h
  | identifier text =>
    rw [@blockLines_of_word? _ text (by rw [hlexeme]; rfl)]
    exact Nat.lt_of_le_of_lt (length_blockLines_le _ _) hlt
  | integer value =>
    rw [@blockLines_of_word? _ (Numeral.render value) (by rw [hlexeme]; rfl)]
    exact Nat.lt_of_le_of_lt (length_blockLines_le _ _) hlt

/-- The same place in another source. -/
def withRest (r : Reader) (cs : List Char) : Reader :=
  { r with rest := cs }

section FirstBlankLine

variable {r : Reader} {front breaks back : List Char}
  (h : FirstBlankLine r.skipBreaks.toToken.rest front breaks back)

include h

/-- Up to the first blank line, a block opens as it does in the whole source. -/
theorem textBlock_front :
    (r.skipBreaks.toToken.withRest front).textBlock =
      (r.skipBreaks.toToken.withRest front).widely (blockLines 0) := by
  obtain ⟨rest, hrest⟩ := h.blank.exists_eq_cons
  have hwhole : (r.skipBreaks.toToken.withRest front).followedBy ('\n' :: (rest ++ back)) =
      r.skipBreaks.toToken := by
    rw [followedBy, withRest, ← List.cons_append, ← hrest, ← h.eq_append]
  have hno (count : Nat) :
      (r.skipBreaks.toToken.withRest front).next.1.lexeme ≠ .lineBreaks count := by
    intro hcount
    have hnext := next_followedBy (r := r.skipBreaks.toToken.withRest front) h.first
      (by rw [hcount]; simp) (rest ++ back)
    rw [hwhole, next_toToken] at hnext
    exact lexeme_skipBreaks_ne r count (by rw [hnext]; exact hcount)
  rw [textBlock, skipBreaks_of_ne_lineBreaks hno]

/-- What is read of a block before the first blank line, and how it goes on from there. -/
theorem exists_textBlock_front :
    ∃ (last : Reader) (waiting : Nat), last.next.1.lexeme = .endOfFile ∧
      last.rest = (r.skipBreaks.toToken.withRest front).textBlock.2.rest ∧
      r.textBlock.1 = (r.skipBreaks.toToken.withRest front).textBlock.1 ++
        ((last.followedBy (breaks ++ back)).blockLines waiting).1 ∧
      r.textBlock.2.rest = ((last.followedBy (breaks ++ back)).blockLines waiting).2.rest := by
  obtain ⟨rest, hrest⟩ := h.blank.exists_eq_cons
  rw [textBlock_front h]
  obtain ⟨start, hstart⟩ : ∃ start : Reader,
      start = { r.skipBreaks.toToken.withRest front with wide := true } := ⟨_, rfl⟩
  have hwhole : start.followedBy (breaks ++ back) =
      ({ r.skipBreaks with wide := true } : Reader).toToken := by
    rw [hstart, followedBy]
    simp only [withRest]
    rw [← h.eq_append]
    rfl
  have hne : ({ r.skipBreaks with wide := true } : Reader).next.1.lexeme ≠ .endOfFile := by
    intro hend
    have hnil := rest_toToken_eq_nil hend
    rw [← hwhole, hrest] at hnil
    simp [followedBy] at hnil
  have hblock := blockLines_toToken hne 0
  rw [← hwhole] at hblock
  obtain ⟨hend, -, waiting, hread⟩ := exists_blockLines_followedBy (r := start)
    (by rw [hstart]; exact h.first) 0 (rest ++ back)
  rw [← List.cons_append, ← hrest, hblock] at hread
  refine ⟨(start.blockLines 0).2, waiting, hend, by rw [hstart]; rfl, ?_, ?_⟩
  · rw [textBlock, widely, widely, hread, hstart]
  · rw [textBlock, widely, hread]

/-- **A block ends at the first blank line**, with the text that it has up to there, unless
a comment stands right before it and takes one of its two newlines. Then the block goes on
as far as there is something to read. -/
theorem textBlock_of_firstBlankLine :
    (r.textBlock.1 = (r.skipBreaks.toToken.withRest front).textBlock.1 ∧
        r.textBlock.2.rest = back) ↔
      ¬(EndsInComment (r.skipBreaks.toToken.withRest front).textBlock.2.rest ∧
          breaks.count '\n' = 2) ∨ (splitGap false back).2 = [] := by
  obtain ⟨last, waiting, hend, hlast, htext, hrest⟩ := exists_textBlock_front h
  rw [htext, hrest, ← hlast]
  by_cases hcomment : EndsInComment last.rest
  · obtain ⟨offset, hread⟩ := blockLines_endsInComment h.blank h.behind hcomment waiting
    rw [hread]
    split
    · next htwo =>
      by_cases hnothing : (splitGap false back).2 = []
      · rw [blockLines_of_endOfFile (by simp [next, toToken, pass, hnothing, cutToken])]
        simp [hnothing]
      · have hsome : (⟨back, offset, last.wide⟩ : Reader).next.1.lexeme ≠ .endOfFile :=
          fun hend => hnothing (rest_toToken_eq_nil hend)
        have hlt := length_blockLines_lt hsome (waiting + 1)
        simp only [hcomment, htwo, hnothing, and_self, not_true_eq_false, or_self, iff_false]
        rintro ⟨-, hback⟩
        rw [hback] at hlt
        exact Nat.lt_irrefl _ hlt
    · next hmore => simp [hmore]
  · have hclosed := (isGap_of_endOfFile hend).closed_or_endsInComment.resolve_right hcomment
    obtain ⟨offset, hread⟩ := blockLines_closed h.blank h.behind hclosed waiting
    simp [hread, hcomment]

end FirstBlankLine

/-! ## 6. No empty line -/

/-- A run of line breaks goes on to something else. -/
theorem endsBreaks_next {r : Reader} {count : Nat} (h : r.next.1.lexeme = .lineBreaks count) :
    EndsBreaks r.next.2.rest := by
  have hcut : (cutToken r.wide r.toToken.rest).1 = .lineBreaks count := h
  obtain ⟨cs, hrest⟩ := cutToken_eq_lineBreaks hcut
  have hbehind : r.next.2.rest = cs.dropWhile isSpacing := by
    show (cutToken r.wide r.toToken.rest).2.2 = _
    rw [hrest]
    rfl
  rw [hbehind]
  exact endsBreaks_dropWhile cs

/-- Between two runs of line breaks there is a comment, and the second run is a blank line
behind it. -/
theorem hasMarkedBlankLine_of_lineBreaks {r : Reader} {count : Nat} (hback : EndsBreaks r.rest)
    (h : r.next.1.lexeme = .lineBreaks count) : hasMarkedBlankLine r.rest = true := by
  obtain ⟨gap, text, blanks, hrest, hgap, hspelled, -⟩ := next_pieces (r := r) (by simp [h])
  rw [h] at hspelled
  obtain ⟨others, rfl⟩ := List.head?_eq_some_iff.1 hspelled.1
  rw [hrest] at hback ⊢
  rw [List.cons_append] at hback ⊢
  rcases hgap.blanks_or_marked with hblanks | hmarked
  · cases gap with
    | nil => cases hback '\n' rfl
    | cons c gap =>
      have hspacing := hback c rfl
      rw [isSpacing, hblanks c List.mem_cons_self] at hspacing
      cases hspacing
  · exact hmarked _

theorem hasMarkedBlankLine_next {r : Reader} (h : hasMarkedBlankLine r.rest = false) :
    hasMarkedBlankLine r.next.2.rest = false :=
  hasMarkedBlankLine_suffix h r.rest_next_suffix

theorem noEmptyLine_blockLines {r : Reader} (h : hasMarkedBlankLine r.rest = false) {pending : Nat}
    (hpending : pending = 0 ∨ pending = 1 ∧ EndsBreaks r.rest) :
    NoEmptyLine (r.blockLines pending).1.toList := by
  fun_induction blockLines pending r with
  | case1 pending r word hword others last heq ih =>
    rw [heq] at ih
    have hothers := ih (hasMarkedBlankLine_next h) (.inl rfl)
    have hone : pending ≤ 1 := hpending.elim (by omega) (by omega)
    rw [String.toList_append, String.toList_append, String.toList_ofList, List.append_assoc]
    exact hothers.append_word ((isRead_next r).text word hword) hone
  | case2 pending r hword hend => exact .nil
  | case3 pending r hword hend hblank => exact .nil
  | case4 pending r hword hend hblank ih =>
    obtain ⟨count, hlexeme⟩ : ∃ count, r.next.1.lexeme = .lineBreaks count := by
      revert hword hend
      cases r.next.1.lexeme <;> simp [Lexeme.word?]
    have hnone : pending = 0 := by
      refine hpending.resolve_right fun hone => ?_
      rw [hasMarkedBlankLine_of_lineBreaks hone.2 hlexeme] at h
      cases h
    refine ih (hasMarkedBlankLine_next h) (.inr ⟨by rw [hnone], endsBreaks_next hlexeme⟩)

/-- **No block has an empty line in it**, if no blank line stands behind the line of a
comment. -/
theorem noEmptyLine_textBlock {r : Reader} (h : hasMarkedBlankLine r.skipBreaks.rest = false) :
    NoEmptyLine r.textBlock.1.toList :=
  noEmptyLine_blockLines (r := { r.skipBreaks with wide := true }) h (.inl rfl)

end Reader

end Questbook
