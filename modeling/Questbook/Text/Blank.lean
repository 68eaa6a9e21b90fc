/-
Questbook.Text.Blank — which characters separate words and which end lines.

Quest sources are read line by line, so the newline is kept apart from the
other white space: a *blank* separates words and never ends a line. The
carriage return is a blank, so a file with CRLF line ends reads like one with
plain newlines. All other characters, letters of any script included, are
ordinary: the language classifies ASCII only.
-/

namespace Questbook.Text

/-- A blank separates words within a line: space, tab, vertical tab, form feed
or carriage return. -/
def isBlank (c : Char) : Bool :=
  c == ' ' || c == '\t' || c == '\x0b' || c == '\x0c' || c == '\r'

/-- The characters that a run of line breaks consists of. -/
def isSpacing (c : Char) : Bool :=
  isBlank c || c == '\n'

/-- The text without the blanks at its end. -/
def trimRight (cs : List Char) : List Char :=
  (cs.reverse.dropWhile isBlank).reverse

/-- The text without the blanks at either end. -/
def trim (cs : List Char) : List Char :=
  trimRight (cs.dropWhile isBlank)

/-! ## Small facts -/

theorem isBlank_newline : isBlank '\n' = false := rfl

theorem ne_newline_of_isBlank {c : Char} (h : isBlank c = true) : c ≠ '\n' := by
  rintro rfl
  simp [isBlank] at h

@[simp] theorem trimRight_nil : trimRight [] = [] := rfl

/-- What is cut off is blank. -/
theorem exists_append_trimRight (cs : List Char) :
    ∃ bs, (∀ c ∈ bs, isBlank c = true) ∧ cs = trimRight cs ++ bs := by
  refine ⟨(cs.reverse.takeWhile isBlank).reverse, ?_, ?_⟩
  · intro c hc
    exact List.all_eq_true.1 List.all_takeWhile c (List.mem_reverse.1 hc)
  · rw [trimRight, ← List.reverse_append, List.takeWhile_append_dropWhile, List.reverse_reverse]

theorem exists_append_trim (cs : List Char) :
    ∃ bs bs', (∀ c ∈ bs, isBlank c = true) ∧ (∀ c ∈ bs', isBlank c = true) ∧
      cs = bs ++ (trim cs ++ bs') := by
  obtain ⟨bs', hbs', htrim⟩ := exists_append_trimRight (cs.dropWhile isBlank)
  refine ⟨cs.takeWhile isBlank, bs', ?_, hbs', ?_⟩
  · exact fun c hc => List.all_eq_true.1 List.all_takeWhile c hc
  · rw [trim, ← htrim, List.takeWhile_append_dropWhile]

/-- Nothing is cut off a text that ends in no blank. -/
theorem trimRight_eq_self {cs : List Char} (h : ∀ c ∈ cs.getLast?, isBlank c = false) :
    trimRight cs = cs := by
  rw [← List.head?_reverse] at h
  rw [trimRight]
  cases hcs : cs.reverse with
  | nil => simpa using hcs
  | cons c ds =>
    rw [List.dropWhile_cons_of_neg (by simp [h c (by simp [hcs])]), ← hcs, List.reverse_reverse]

end Questbook.Text
