/-
Questbook.Proofs.Reader.Steps — one step of each reader of the grammar.

Every list of the grammar is read by a loop, and every loop begins with a look
at the next token. The lemmas here say what a loop does once it is known what
the look found, so that a proof about a loop is a case distinction on one
token and never unfolds the loop itself.
-/
import Questbook.Quest.Parse

namespace Questbook

open Text

/-- The error at a token in whose place something else has to stand. -/
def Token.unexpected (expected : String) (found : Token) : ParseError :=
  ⟨.unexpectedToken expected found.lexeme.describe, found.offset⟩

namespace Reader

/-! ## 1. Line breaks -/

theorem skipBreaks_of_lineBreaks {r : Reader} {count : Nat}
    (h : r.next.1.lexeme = .lineBreaks count) : r.skipBreaks = r.next.2.skipBreaks := by
  rw [skipBreaks]
  split
  · rfl
  · next hno => exact absurd h (hno count)

theorem skipBreaks_of_ne_lineBreaks {r : Reader} (h : ∀ count, r.next.1.lexeme ≠ .lineBreaks count) :
    r.skipBreaks = r := by
  rw [skipBreaks]
  split
  · next count hcount => exact absurd hcount (h count)
  · rfl

/-- No line break stands behind the line breaks. -/
theorem lexeme_skipBreaks_ne (r : Reader) (count : Nat) :
    r.skipBreaks.next.1.lexeme ≠ .lineBreaks count := by
  fun_induction skipBreaks r with
  | case1 r count' h ih => exact ih
  | case2 r h => exact h count

@[simp] theorem skipBreaks_skipBreaks (r : Reader) : r.skipBreaks.skipBreaks = r.skipBreaks :=
  skipBreaks_of_ne_lineBreaks r.lexeme_skipBreaks_ne

/-! ## 2. Single tokens -/

/-- Taking a token goes on behind it, or is an error at it. -/
theorem onward_take {α : Type} (expected : String) (accept : Token → Option α) (r : Reader) :
    onward (r.take expected accept) =
      match accept r.skipBreaks.next.1 with
      | some a => .ok (a, r.skipBreaks.next.2)
      | none => .error (r.skipBreaks.next.1.unexpected expected) := by
  cases h : accept r.skipBreaks.next.1 <;>
    simp [take, onward, h, Except.map, Token.unexpected]

theorem isKeyword_scope {lexeme : Lexeme} :
    lexeme.isKeyword scope = true ↔ lexeme = .identifier ":" := by
  cases lexeme with
  | identifier text =>
    simp only [Lexeme.isKeyword, sameFold_iff, Lexeme.identifier.injEq]
    exact ⟨eq_scope_of_fold_eq, fun h => by rw [h]; rfl⟩
  | _ => simp [Lexeme.isKeyword]

theorem onward_identifier (r : Reader) :
    onward r.identifier =
      match r.skipBreaks.next.1.lexeme with
      | .identifier text => .ok (⟨text, r.skipBreaks.next.1.offset⟩, r.skipBreaks.next.2)
      | _ => .error (r.skipBreaks.next.1.unexpected "an identifier") := by
  rw [identifier, onward_take]
  cases r.skipBreaks.next.1.lexeme <;> rfl

theorem onward_number (r : Reader) :
    onward r.number =
      match r.skipBreaks.next.1.lexeme with
      | .integer value => .ok (value, r.skipBreaks.next.2)
      | _ => .error (r.skipBreaks.next.1.unexpected "a number") := by
  rw [number, onward_take]
  cases r.skipBreaks.next.1.lexeme <;> rfl

theorem onward_expect_scope (r : Reader) :
    onward (r.expect scope) =
      if r.skipBreaks.next.1.lexeme = .identifier ":" then .ok ((), r.skipBreaks.next.2)
      else .error (r.skipBreaks.next.1.unexpected "':'") := by
  rw [expect, onward_take]
  simp only [isKeyword_scope]
  by_cases h : r.skipBreaks.next.1.lexeme = .identifier ":"
  · simp [h]
  · simp only [h, if_false]
    rfl

/-- What is read behind a word is read from where the word stands. -/
theorem skipBreaks_of_identifier {r : Reader} {word : String}
    (h : r.next.1.lexeme = .identifier word) : r.skipBreaks = r ∧ r.atEnd = false := by
  refine ⟨skipBreaks_of_ne_lineBreaks (by simp [h]), ?_⟩
  rw [atEnd, peek, h]
  rfl

section Next

variable {r last : Reader} {offset : Nat}

theorem onward_identifier_of_next {word : String}
    (h : r.next = (⟨.identifier word, offset⟩, last)) :
    onward r.identifier = .ok (⟨word, offset⟩, last) := by
  rw [onward_identifier, (skipBreaks_of_identifier (r := r) (by rw [h])).1, h]

theorem onward_expect_scope_of_next (h : r.next = (⟨.identifier ":", offset⟩, last)) :
    onward (r.expect scope) = .ok ((), last) := by
  rw [onward_expect_scope, (skipBreaks_of_identifier (r := r) (by rw [h])).1, h, if_pos rfl]

theorem onward_number_of_next {value : Int64} (h : r.next = (⟨.integer value, offset⟩, last)) :
    onward r.number = .ok (value, last) := by
  rw [onward_number, skipBreaks_of_ne_lineBreaks (r := r) (by simp [h]), h]

end Next

/-! ## 3. Words and lines of text -/

theorem words_of_word? {r : Reader} {word : String} (h : r.next.1.lexeme.word? = some word) :
    r.words = (word :: r.next.2.words.1, r.next.2.words.2) := by
  rw [words]
  split
  · next word' hword =>
    rw [h] at hword
    cases hword
    rfl
  · next hno => rw [h] at hno; cases hno

theorem words_of_word?_eq_none {r : Reader} (h : r.next.1.lexeme.word? = none) :
    r.words = ([], r) := by
  rw [words]
  split
  · next word hword => rw [h] at hword; cases hword
  · rfl

theorem blockLines_of_word? {r : Reader} {word : String} (h : r.next.1.lexeme.word? = some word)
    (pending : Nat) :
    r.blockLines pending =
      (String.ofList (List.replicate pending '\n') ++ word ++ (r.next.2.blockLines 0).1,
        (r.next.2.blockLines 0).2) := by
  rw [blockLines]
  split
  · next word' hword =>
    rw [h] at hword
    cases hword
    rfl
  · next hno => rw [h] at hno; cases hno

/-- A gap in front of a word makes no difference. -/
theorem words_congr {r s : Reader} {word : String} (h : r.next = s.next)
    (hword : s.next.1.lexeme.word? = some word) : r.words = s.words := by
  rw [words_of_word? (h ▸ hword), words_of_word? hword, h]

theorem blockLines_congr {r s : Reader} {word : String} (h : r.next = s.next)
    (hword : s.next.1.lexeme.word? = some word) (pending : Nat) :
    r.blockLines pending = s.blockLines pending := by
  rw [blockLines_of_word? (h ▸ hword), blockLines_of_word? hword, h]

theorem blockLines_of_endOfFile {r : Reader} (h : r.next.1.lexeme = .endOfFile) (pending : Nat) :
    r.blockLines pending = ("", r) := by
  rw [blockLines]
  split
  · next word hword => simp [h, Lexeme.word?] at hword
  · rw [dif_pos h]

/-- A blank line ends a block and is taken. -/
theorem blockLines_of_isBlankLine {r : Reader} (h : r.next.1.lexeme.isBlankLine = true)
    (pending : Nat) : r.blockLines pending = ("", r.next.2) := by
  have hno : r.next.1.lexeme.word? = none ∧ r.next.1.lexeme ≠ .endOfFile := by
    revert h
    cases r.next.1.lexeme <;> simp [Lexeme.isBlankLine, Lexeme.word?]
  rw [blockLines]
  split
  · next word hword => rw [hno.1] at hword; cases hword
  · rw [dif_neg hno.2, if_pos h]

/-- A single line break waits for the next word. -/
theorem blockLines_of_lineBreak {r : Reader} {count : Nat}
    (h : r.next.1.lexeme = .lineBreaks count) (hcount : count < 2) (pending : Nat) :
    r.blockLines pending = r.next.2.blockLines (pending + 1) := by
  rw [blockLines]
  split
  · next word hword => simp [h, Lexeme.word?] at hword
  · rw [dif_neg (by simp [h]), if_neg (by simp [h, Lexeme.isBlankLine]; omega)]

/-! ## 4. Lists -/

section List

variable {α : Type} {item : Reader → Except ParseError (Option (α × Reader))}
  {shorter : ∀ {r a last}, item r = .ok (some (a, last)) → last.rest.length < r.rest.length}
  {r : Reader}

theorem list_of_error {e : ParseError} (h : item r = .error e) :
    r.list item shorter = ⟨[], .error e⟩ := by
  rw [list]
  split <;> simp_all

theorem list_of_none (h : item r = .ok none) : r.list item shorter = ⟨[], .ok r⟩ := by
  rw [list]
  split <;> simp_all

theorem list_of_some {a : α} {last : Reader} (h : item r = .ok (some (a, last))) :
    r.list item shorter =
      ⟨a :: (last.list item shorter).items, (last.list item shorter).ending⟩ := by
  rw [list]
  split <;> simp_all

end List

theorem commands_of_some {r last : Reader} {command : Command}
    (h : r.command? = some (command, last)) :
    r.commands = (command :: last.commands.1, last.commands.2) := by
  rw [commands]
  split <;> simp_all

theorem commands_of_none {r : Reader} (h : r.command? = none) : r.commands = ([], r) := by
  rw [commands]
  split <;> simp_all

theorem blockKind?_eq (word : String) :
    blockKind? word =
      if sameFold word "task" then some false
      else if sameFold word "event" then some true
      else none := by
  have htask : fold "task" = "task" := by decide
  have hevent : fold "event" = "event" := by decide
  simp only [blockKind?, sameFold, htask, hevent, beq_iff_eq]
  split <;> simp_all

/-! ## 5. Directives -/

theorem directives_of_atEnd {r : Reader} (h : r.skipBreaks.atEnd = true) :
    r.directives = ⟨[], .ok r.skipBreaks⟩ := by
  rw [directives, if_pos h]

theorem directives_of_error {r : Reader} {e : ParseError} (h : r.skipBreaks.atEnd = false)
    (he : r.skipBreaks.directive.ending = .error e) :
    r.directives = ⟨r.skipBreaks.directive.items, .error e⟩ := by
  rw [directives, if_neg (by simp [h])]
  split <;> simp_all

theorem directives_of_ok {r last : Reader} (h : r.skipBreaks.atEnd = false)
    (hlast : r.skipBreaks.directive.ending = .ok last) :
    r.directives =
      ⟨r.skipBreaks.directive.items ++ last.directives.items, last.directives.ending⟩ := by
  rw [directives, if_neg (by simp [h])]
  split <;> simp_all

/-- Line breaks before a directive make no difference. -/
theorem directives_congr {r s : Reader} (h : r.skipBreaks = s.skipBreaks) :
    r.directives = s.directives := by
  cases hend : s.skipBreaks.atEnd with
  | true => rw [directives_of_atEnd (h ▸ hend), directives_of_atEnd hend, h]
  | false =>
    cases hlast : s.skipBreaks.directive.ending with
    | error e => rw [directives_of_error (h ▸ hend) (h ▸ hlast), directives_of_error hend hlast, h]
    | ok last => rw [directives_of_ok (h ▸ hend) (h ▸ hlast), directives_of_ok hend hlast, h]

/-- A word and a `:` are a heading, unless the word opens with `+`. -/
theorem directive_of_heading {r r₁ r₂ : Reader} {word : String} {offset offset' : Nat}
    (hword : r.next = (⟨.identifier word, offset⟩, r₁))
    (hplus : word.toList.head? ≠ some '+')
    (hmark : r₁.next = (⟨.identifier ":", offset'⟩, r₂)) :
    r.directive = r₂.body ⟨word, offset⟩ := by
  rw [directive, onward_identifier_of_next hword]
  simp only [onward_expect_scope_of_next hmark, if_neg hplus]

theorem directive_of_flag {r r₁ : Reader} {word : String} {offset : Nat}
    (hword : r.next = (⟨.identifier word, offset⟩, r₁))
    (hplus : word.toList.head? = some '+') :
    r.directive = ⟨[.flag word offset], .ok r₁⟩ := by
  rw [directive, onward_identifier_of_next hword]
  simp only [if_pos hplus]

end Reader

/-! ## 6. The quest of a run -/

/-- The quest that comes of directives, when `q` came of those before them. -/
def Run.quest (q : Quest) (run : Run Directive) : Except ParseError Quest :=
  run.ending.map fun _ => run.items.foldl Directive.applyTo q

theorem Quest.parse_eq (source : String) :
    Quest.parse source = (Reader.ofSource source).directives.quest {} := rfl

namespace Reader

theorem quest_of_atEnd {r : Reader} (h : r.skipBreaks.atEnd = true) (q : Quest) :
    r.directives.quest q = .ok q := by
  rw [directives_of_atEnd h]
  rfl

/-- The directive that stands next counts first. -/
theorem quest_of_directive {r : Reader} (h : r.skipBreaks.atEnd = false) (q : Quest) :
    r.directives.quest q =
      match r.skipBreaks.directive.ending with
      | .error e => .error e
      | .ok last =>
        last.directives.quest (r.skipBreaks.directive.items.foldl Directive.applyTo q) := by
  cases hending : r.skipBreaks.directive.ending with
  | error e =>
    rw [directives_of_error h hending]
    rfl
  | ok last =>
    rw [directives_of_ok h hending]
    simp [Run.quest]

/-- What stands under a heading counts first. -/
theorem quest_of_body {r r₁ r₂ last : Reader} {word : String} {offset offset' : Nat}
    {items : List Directive} (hword : r.next = (⟨.identifier word, offset⟩, r₁))
    (hplus : word.toList.head? ≠ some '+')
    (hmark : r₁.next = (⟨.identifier ":", offset'⟩, r₂))
    (hbody : r₂.body ⟨word, offset⟩ = ⟨items, .ok last⟩) (q : Quest) :
    r.directives.quest q = last.directives.quest (items.foldl Directive.applyTo q) := by
  obtain ⟨hskip, hend⟩ := skipBreaks_of_identifier (r := r) (by rw [hword])
  rw [quest_of_directive (by rw [hskip, hend]), hskip, directive_of_heading hword hplus hmark,
    hbody]

theorem quest_of_flag {r r₁ : Reader} {word : String} {offset : Nat}
    (hword : r.next = (⟨.identifier word, offset⟩, r₁))
    (hplus : word.toList.head? = some '+') (q : Quest) :
    r.directives.quest q = r₁.directives.quest ((Directive.flag word offset).applyTo q) := by
  obtain ⟨hskip, hend⟩ := skipBreaks_of_identifier (r := r) (by rw [hword])
  rw [quest_of_directive (by rw [hskip, hend]), hskip, directive_of_flag hword hplus]
  rfl

end Reader

end Questbook
