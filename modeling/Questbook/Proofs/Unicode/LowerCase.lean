/-
Questbook.Proofs.Unicode.LowerCase — what can come of a text made small.

A character stays as it is or becomes a letter, and there is no letter before the
small `a` (`le_toNat_smallForm`). So making a text small brings in no slash, no dot
and no zero character: those that are in the small text were there before.

The table is checked range by range at its two ends (`CaseRange.Letters`), not
character by character.
-/
import Questbook.Unicode.LowerCase

namespace Questbook.Unicode

/-- All small forms of the range are characters from the small `a` on. -/
def CaseRange.Letters (r : CaseRange) : Prop :=
  (0x61 : Int) ≤ r.first + r.shift ∧
    ((r.last : Int) + r.shift < 0xd800 ∨
      (0xdfff : Int) < r.first + r.shift ∧ (r.last : Int) + r.shift < 0x110000)

instance (r : CaseRange) : Decidable r.Letters :=
  inferInstanceAs (Decidable (_ ∧ _))

theorem letters_smallLetters : ∀ r ∈ smallLetters, r.Letters := by
  decide +kernel

/-- The range has the code point. -/
def CaseRange.Has (r : CaseRange) (n : Nat) : Prop :=
  r.first ≤ n ∧ n ≤ r.last ∧ (n - r.first) % r.step = 0

instance (r : CaseRange) (n : Nat) : Decidable (r.Has n) :=
  inferInstanceAs (Decidable (_ ∧ _))

/-- A character that no range has stays as it is; another is moved by the shift of a
range that has it. -/
theorem smallForm_cases (c : Char) :
    (smallForm smallLetters c = c ∧ ∀ r ∈ smallLetters, ¬ r.Has c.toNat) ∨
      ∃ r ∈ smallLetters, r.Has c.toNat ∧
        ((smallForm smallLetters c).toNat : Int) = c.toNat + r.shift := by
  unfold smallForm
  split
  · next r hfind =>
    have hmem := List.mem_of_find?_eq_some hfind
    have hhas := List.find?_some hfind
    simp only [Bool.and_eq_true, decide_eq_true_eq, beq_iff_eq, and_assoc] at hhas
    obtain ⟨hlow, hvalid⟩ := letters_smallLetters r hmem
    have hfirst := hhas.1
    have hlast := hhas.2.1
    have hchar : (c.toNat + r.shift).toNat.isValidChar := by
      rcases hvalid with hvalid | ⟨habove, hbelow⟩
      · exact .inl (by omega)
      · exact .inr ⟨by omega, by omega⟩
    refine .inr ⟨r, hmem, hhas, ?_⟩
    rw [Char.ofNat, dif_pos hchar]
    show ((c.toNat + r.shift).toNat : Int) = c.toNat + r.shift
    omega
  · next hfind =>
    refine .inl ⟨rfl, fun r hr hhas => ?_⟩
    have hno := List.find?_eq_none.1 hfind r hr
    simp only [Bool.and_eq_true, decide_eq_true_eq, beq_iff_eq, and_assoc] at hno
    exact hno hhas

theorem le_first_smallLetters : ∀ r ∈ smallLetters, 0x41 ≤ r.first := by
  decide +kernel

/-- A character stays as it is, or what it becomes is not before the small `a`. -/
theorem le_toNat_smallForm (c : Char) :
    smallForm smallLetters c = c ∨ 0x61 ≤ (smallForm smallLetters c).toNat := by
  rcases smallForm_cases c with ⟨heq, -⟩ | ⟨r, hr, ⟨hfirst, -, -⟩, hmoved⟩
  · exact .inl heq
  · obtain ⟨hlow, -⟩ := letters_smallLetters r hr
    right
    omega

/-- A character becomes one or two, each of them the same or not before the small `a`. -/
theorem exists_lowerFrom_cons (before cs : List Char) (c : Char) :
    ∃ block, lowerFrom before (c :: cs) = block ++ lowerFrom (c :: before) cs ∧ block ≠ [] ∧
      ∀ d ∈ block, d = c ∨ 0x61 ≤ d.toNat := by
  rw [lowerFrom]
  refine ⟨_, rfl, ?_⟩
  split
  · rw [List.forall_mem_singleton, sigma]
    refine ⟨List.cons_ne_nil _ _, .inr ?_⟩
    split <;> decide
  · split
    · rw [List.forall_mem_cons, List.forall_mem_singleton]
      exact ⟨List.cons_ne_nil _ _, .inr (by decide), .inr (by decide)⟩
    · rw [List.forall_mem_singleton]
      exact ⟨List.cons_ne_nil _ _, le_toNat_smallForm c⟩

/-- What is before the capital `A` stays as it is. -/
theorem lowerFrom_cons_of_lt {c : Char} (h : c.toNat < 0x41) (before cs : List Char) :
    lowerFrom before (c :: cs) = c :: lowerFrom (c :: before) cs := by
  have hsigma : c ≠ capitalSigma := by
    rintro rfl
    exact absurd h (by decide)
  have hdot : c ≠ '\u0130' := by
    rintro rfl
    exact absurd h (by decide)
  have hsmall : smallForm smallLetters c = c := by
    rcases smallForm_cases c with ⟨heq, -⟩ | ⟨r, hr, ⟨hfirst, -, -⟩, -⟩
    · exact heq
    · exact absurd (Nat.le_trans (le_first_smallLetters r hr) hfirst) (Nat.not_le.2 h)
  rw [lowerFrom, if_neg hsigma, if_neg hdot, hsmall]
  rfl

theorem mem_lowerFrom {d : Char} {before cs : List Char} (h : d ∈ lowerFrom before cs) :
    d ∈ cs ∨ 0x61 ≤ d.toNat := by
  induction cs generalizing before with
  | nil => cases h
  | cons c cs ih =>
    obtain ⟨block, hblock, -, hmem⟩ := exists_lowerFrom_cons before cs c
    rw [hblock] at h
    rcases List.mem_append.1 h with hhere | hthere
    · rcases hmem d hhere with rfl | hle
      · exact .inl List.mem_cons_self
      · exact .inr hle
    · exact (ih hthere).imp_left (List.mem_cons_of_mem c)

/-- What is before the small `a` in a text made small was in the text. -/
theorem mem_of_mem_lower {s : String} {d : Char} (h : d ∈ (lower s).toList)
    (hd : d.toNat < 0x61) : d ∈ s.toList := by
  rw [lower, String.toList_ofList] at h
  exact (mem_lowerFrom h).resolve_right (Nat.not_le.2 hd)

end Questbook.Unicode
