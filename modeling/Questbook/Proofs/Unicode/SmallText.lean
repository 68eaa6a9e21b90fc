/-
Questbook.Proofs.Unicode.SmallText — a text made small is in small letters.

Making a text small a second time changes nothing (`lower_lower`). The rule for a
capital sigma looks at the neighbours, and a letter can become two, so the second time
the same character could stand in other company. That does not matter, because company
counts for a capital sigma only, and none is left: each character that comes out is one
that the table does not move and the two special rules do not name.

For the table this has to be checked on the data: no small form is itself in a range of
the table. Comparing each range with each other is slow, and ranges of every second
letter overlap those of their small forms. So the code points are laid out as the bits of two
numbers, and the numbers have no bit in common (`capitals_and_smalls`).
-/
import Questbook.Proofs.Unicode.LowerCase

namespace Questbook.Unicode

/-! ## 1. Sets of code points as numbers -/

/-- The code points `first`, `first + step` and so on, `count` of them. -/
def progression (first step : Nat) : Nat → Nat
  | 0 => 0
  | count + 1 => 1 <<< first ||| progression (first + step) step count

/-- All code points that are in one of the sets. -/
def union (sets : List Nat) : Nat :=
  sets.foldr (· ||| ·) 0

theorem testBit_progression (first step : Nat) {count k : Nat} (h : k < count) :
    (progression first step count).testBit (first + k * step) = true := by
  induction count generalizing first k with
  | zero => exact absurd h (Nat.not_lt_zero k)
  | succ count ih =>
    rw [progression, Nat.testBit_or]
    cases k with
    | zero => simp [Nat.testBit_shiftLeft]
    | succ k =>
      have hnext : first + (k + 1) * step = first + step + k * step := by
        rw [Nat.succ_mul]
        omega
      rw [hnext, ih (first + step) (Nat.lt_of_succ_lt_succ h), Bool.or_true]

theorem testBit_union {sets : List Nat} {set n : Nat} (hmem : set ∈ sets)
    (h : set.testBit n = true) : (union sets).testBit n = true := by
  induction sets with
  | nil => cases hmem
  | cons other sets ih =>
    rw [union, List.foldr_cons, Nat.testBit_or]
    rcases List.mem_cons.1 hmem with rfl | hmem
    · rw [h, Bool.true_or]
    · exact (congrArg _ (ih hmem)).trans (Bool.or_true _)

/-! ## 2. Capitals -/

namespace CaseRange

/-- The number of code points that the range has. -/
def count (r : CaseRange) : Nat :=
  (r.last - r.first) / r.step + 1

/-- The code points that the range has. -/
def capitals (r : CaseRange) : Nat :=
  progression r.first r.step r.count

/-- Their small forms. -/
def smalls (r : CaseRange) : Nat :=
  progression (r.first + r.shift).toNat r.step r.count

variable {r : CaseRange} {n : Nat}

theorem Has.eq_add (h : r.Has n) : ∃ k < r.count, n = r.first + k * r.step := by
  obtain ⟨hfirst, hlast, hstep⟩ := h
  refine ⟨(n - r.first) / r.step, ?_, ?_⟩
  · exact Nat.lt_succ_of_le (Nat.div_le_div_right (Nat.sub_le_sub_right hlast _))
  · rw [Nat.div_mul_cancel (Nat.dvd_of_mod_eq_zero hstep)]
    omega

theorem Has.testBit_capitals (h : r.Has n) : r.capitals.testBit n = true := by
  obtain ⟨k, hk, rfl⟩ := h.eq_add
  exact testBit_progression r.first r.step hk

theorem Has.testBit_smalls (h : r.Has n) {m : Nat} (hlow : 0 ≤ (r.first : Int) + r.shift)
    (hm : (m : Int) = n + r.shift) : r.smalls.testBit m = true := by
  obtain ⟨k, hk, rfl⟩ := h.eq_add
  have hmoved : m = (r.first + r.shift).toNat + k * r.step := by
    omega
  rw [hmoved]
  exact testBit_progression _ r.step hk

end CaseRange

/-- A character that making small does not leave as it is: the capital I with a dot, or
one that a range of the table has. -/
def IsCapital (c : Char) : Prop :=
  c = '\u0130' ∨ ∃ r ∈ smallLetters, r.Has c.toNat

instance (c : Char) : Decidable (IsCapital c) :=
  inferInstanceAs (Decidable (_ ∨ _))

/-- The code points of all capitals. -/
def capitals : Nat :=
  1 <<< 0x130 ||| union (smallLetters.map CaseRange.capitals)

/-- The code points of all small forms. -/
def smalls : Nat :=
  union (smallLetters.map CaseRange.smalls)

theorem capitals_and_smalls : capitals &&& smalls = 0 := by
  decide +kernel

theorem IsCapital.testBit {c : Char} (h : IsCapital c) : capitals.testBit c.toNat = true := by
  rw [capitals, Nat.testBit_or]
  rcases h with rfl | ⟨r, hr, hhas⟩
  · rw [Nat.testBit_shiftLeft]
    rfl
  · rw [testBit_union (List.mem_map_of_mem hr) hhas.testBit_capitals, Bool.or_true]

/-- What a range of the table moves a character to is no capital. -/
theorem not_isCapital_of_moved {r : CaseRange} {c d : Char} (hr : r ∈ smallLetters)
    (hhas : r.Has c.toNat) (hmoved : (d.toNat : Int) = c.toNat + r.shift) : ¬ IsCapital d := by
  intro hcapital
  obtain ⟨hlow, -⟩ := letters_smallLetters r hr
  have hsmall : smalls.testBit d.toNat = true :=
    testBit_union (List.mem_map_of_mem hr) (hhas.testBit_smalls (by omega) hmoved)
  have hboth : (capitals &&& smalls).testBit d.toNat = true := by
    rw [Nat.testBit_and, hcapital.testBit, hsmall, Bool.and_true]
  rw [capitals_and_smalls, Nat.zero_testBit] at hboth
  cases hboth

/-! ## 3. Texts -/

theorem smallForm_of_not_isCapital {c : Char} (h : ¬ IsCapital c) :
    smallForm smallLetters c = c := by
  rcases smallForm_cases c with ⟨heq, -⟩ | ⟨r, hr, hhas, -⟩
  · exact heq
  · exact absurd (.inr ⟨r, hr, hhas⟩) h

theorem not_isCapital_smallForm {c : Char} (h : c ≠ '\u0130') :
    ¬ IsCapital (smallForm smallLetters c) := by
  rcases smallForm_cases c with ⟨heq, hnone⟩ | ⟨r, hr, hhas, hmoved⟩
  · rw [heq]
    rintro (hdot | ⟨r, hr, hhas⟩)
    · exact h hdot
    · exact hnone r hr hhas
  · exact not_isCapital_of_moved hr hhas hmoved

theorem not_isCapital_sigma (before behind : List Char) : ¬ IsCapital (sigma before behind) := by
  unfold sigma
  split
  · decide +kernel
  · decide +kernel

/-- No capital is left in a text made small. -/
theorem not_isCapital_of_mem_lowerFrom {d : Char} {before cs : List Char}
    (h : d ∈ lowerFrom before cs) : ¬ IsCapital d := by
  induction cs generalizing before with
  | nil => cases h
  | cons c cs ih =>
    rcases List.mem_append.1 h with hhere | hthere
    · split at hhere
      · rw [List.mem_singleton.1 hhere]
        exact not_isCapital_sigma before cs
      · split at hhere
        · rcases List.mem_cons.1 hhere with rfl | hhere
          · decide +kernel
          · rw [List.mem_singleton.1 hhere]
            decide +kernel
        · next hdot =>
          rw [List.mem_singleton.1 hhere]
          exact not_isCapital_smallForm hdot
    · exact ih hthere

/-- A text without capitals stays as it is, whatever stands before it. -/
theorem lowerFrom_eq_self {cs : List Char} (h : ∀ c ∈ cs, ¬ IsCapital c) (before : List Char) :
    lowerFrom before cs = cs := by
  induction cs generalizing before with
  | nil => rfl
  | cons c cs ih =>
    obtain ⟨hc, hcs⟩ := List.forall_mem_cons.1 h
    have hsigma : c ≠ capitalSigma := by
      rintro rfl
      exact hc (by decide +kernel)
    have hdot : c ≠ '\u0130' := fun hdot => hc (.inl hdot)
    rw [lowerFrom, if_neg hsigma, if_neg hdot, smallForm_of_not_isCapital hc, ih hcs]
    rfl

/-- **A text made small is in small letters.** -/
theorem lower_lower (s : String) : lower (lower s) = lower s := by
  have hsmall : ∀ c ∈ lowerFrom [] s.toList, ¬ IsCapital c :=
    fun c hc => not_isCapital_of_mem_lowerFrom hc
  rw [lower, lower, String.toList_ofList, lowerFrom_eq_self hsmall]

end Questbook.Unicode
