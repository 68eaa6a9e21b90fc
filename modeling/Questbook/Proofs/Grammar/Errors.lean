/-
Questbook.Proofs.Grammar.Errors — every error points at the token it is about.

The offset of an error is where a token starts, and whoever reads the source
afresh from there finds that token first (`parse_error_points`). If another sort
of token had to stand there, it is the token that the message names. If it is
the heading of an unknown directive, a `:` comes next.

Two facts make this true. The machine reads narrowly whenever it can fail, as a
fresh reader does (`feed_error`); and what a token is depends only on the text
from its start on (`Reader.next_toToken`). The error of an unknown directive is
raised two tokens late, when the `:` has been read, so the stage in between has
to remember where its heading was found (`HeadingAt`).
-/
import Mathlib
import Questbook.Proofs.Grammar.Automaton

namespace Questbook

open Text

/-- The keywords that open a directive. -/
def Directive.keywords : List String := ["title", "briefing", "qrc", "qst"]

/-- What an error can name as missing. -/
def ParseError.expectations : List String := ["an identifier", "':'", "a number"]

namespace Stage

/-! ## 1. What a token can lead to -/

/-- The rows of the table, sorted by what they have to do with errors. -/
inductive Row (q : Quest) (stage : Stage) (t : Token) : Move → Prop where
  /-- The token is taken as between directives. -/
  | directive (q' : Quest) (hwide : stage.wide = true → t.lexeme.word? = none) :
      Row q stage t (feedDirective q' t)
  /-- The token is one of those that may stand here, and no heading. -/
  | on (q' : Quest) (stage' : Stage)
      (hheading : ∀ word, stage' = .heading word →
        stage = .heading word ∧ ∃ count, t.lexeme = .lineBreaks count) :
      Row q stage t (.on q' stage')
  | unexpected (expected : String) (hexpected : expected ∈ ParseError.expectations)
      (hwide : stage.wide = false) (hbreaks : ∀ count, t.lexeme ≠ .lineBreaks count) :
      Row q stage t (.stop (.error (t.unexpected expected)))
  | scope (word : Identifier) (hstage : stage = .heading word)
      (hscope : t.lexeme = .identifier ":") : Row q stage t (behindHeading q word)

variable {q : Quest} {stage : Stage} {t : Token}

theorem row_feedEntry (entries : List (Int64 × Resource))
    (hwide : stage.wide = true → t.lexeme.word? = none) :
    Row q stage t (feedEntry q entries t) := by
  unfold feedEntry
  split
  · exact .on q _ (by simp)
  · split
    · exact .on q _ (by simp)
    · exact .directive _ hwide
  · exact .directive _ hwide

theorem row_feedCommand (blocks : List Task) (block : Task) (hwide : stage.wide = false) :
    Row q stage t (feedCommand q blocks block t) := by
  unfold feedCommand
  split
  · exact .on q _ (by simp)
  · split <;> exact .on q _ (by simp)
  · exact .directive _ (by simp [hwide])

theorem row_feedTitleLine (written : String) : Row q stage t (feedTitleLine q written t) := by
  unfold feedTitleLine
  split
  · exact .on q _ (by simp)
  · next hword => exact .directive _ fun _ => hword

theorem row_feedTextLine (use : TextUse) (written : String) (pending : Nat) :
    Row q stage t (feedTextLine q use written pending t) := by
  unfold feedTextLine
  split
  · exact .on q _ (by simp)
  · next hword =>
    split
    · cases use with
      | briefing => exact .directive _ fun _ => hword
      | content entries kind id => exact row_feedEntry _ fun _ => hword
    · exact .on q _ (by simp)

/-- A `:` that is no mark of a heading is the mark of something else. -/
theorem row_feedMark {here behind : Stage} (hwide : stage.wide = false)
    (hhere : ∀ word, here ≠ .heading word) (hbehind : ∀ word, behind ≠ .heading word) :
    Row q stage t (feedMark q here (.on q behind) t) := by
  unfold feedMark
  split
  · exact .on q _ fun word h => absurd h (hbehind word)
  · exact .on q _ fun word h => absurd h (hhere word)
  · next hbreaks => exact .unexpected _ (by simp [ParseError.expectations]) hwide hbreaks

theorem row_feed (q : Quest) (stage : Stage) (t : Token) : Row q stage t (stage.feed q t) := by
  cases stage with
  | directive => exact .directive q (by simp [wide])
  | heading word =>
    simp only [feed, feedMark]
    split
    · next hscope => exact .scope word rfl hscope
    · next count hcount => exact .on q _ fun word' h => ⟨h, count, hcount⟩
    · next hbreaks => exact .unexpected _ (by simp [ParseError.expectations]) rfl hbreaks
  | title =>
    simp only [feed]
    split
    · exact .on q _ (by simp)
    · exact row_feedTitleLine ""
  | titleLine written => exact row_feedTitleLine written
  | text use =>
    simp only [feed]
    split
    · exact .on q _ (by simp)
    · exact row_feedTextLine use "" 0
  | textLine use written pending => exact row_feedTextLine use written pending
  | entry entries => exact row_feedEntry entries (by simp [wide])
  | entryMark entries kind => exact row_feedMark rfl (by simp) (by simp)
  | entryNumber entries kind =>
    simp only [feed]
    split
    · exact .on q _ (by simp)
    · exact .on q _ (by simp)
    · next hbreaks _ => exact .unexpected _ (by simp [ParseError.expectations]) rfl hbreaks
  | command blocks block => exact row_feedCommand blocks block rfl
  | arguments blocks block last =>
    simp only [feed, feedArguments]
    split
    · exact .on q _ (by simp)
    · exact row_feedCommand blocks _ rfl
  | label blocks isEvent =>
    simp only [feed]
    split
    · exact .on q _ (by simp)
    · exact .on q _ (by simp)
    · next hbreaks _ => exact .unexpected _ (by simp [ParseError.expectations]) rfl hbreaks
  | labelMark blocks isEvent name => exact row_feedMark rfl (by simp) (by simp)

/-! ## 2. Errors and headings -/

theorem behindHeading_error {word : Identifier} {e : ParseError}
    (h : behindHeading q word = .stop (.error e)) :
    e = ⟨.unknownDirective word.text, word.offset⟩ ∧
      ∀ keyword ∈ Directive.keywords, sameFold word.text keyword = false := by
  unfold behindHeading at h
  split at h
  · cases h
  · cases h
  · cases h
  · cases h
  · next htitle hbriefing hqrc hqst =>
    cases h
    refine ⟨rfl, fun keyword hkeyword => ?_⟩
    rw [Bool.eq_false_iff]
    intro hsame
    have hfold := sameFold_iff.1 hsame
    simp only [Directive.keywords, List.mem_cons, List.not_mem_nil, or_false] at hkeyword
    rcases hkeyword with rfl | rfl | rfl | rfl
    · exact htitle hfold
    · exact hbriefing hfold
    · exact hqrc hfold
    · exact hqst hfold

/-- An error is about the token that was taken, which was read narrowly and is no
line break, or about the heading before it. -/
theorem feed_error {e : ParseError} (h : stage.feed q t = .stop (.error e)) :
    stage.wide = false ∧
      ((∃ expected ∈ ParseError.expectations, e = t.unexpected expected ∧
          ∀ count, t.lexeme ≠ .lineBreaks count) ∨
        ∃ word, stage = .heading word ∧ t.lexeme = .identifier ":" ∧
          e = ⟨.unknownDirective word.text, word.offset⟩ ∧
          ∀ keyword ∈ Directive.keywords, sameFold word.text keyword = false) := by
  have hrow := row_feed q stage t
  rw [h] at hrow
  generalize hmove : Move.stop (.error e) = move at hrow
  cases hrow with
  | directive q' hwide =>
    unfold feedDirective at hmove
    split at hmove
    · split at hmove <;> cases hmove
    · cases hmove
    · cases hmove
    · next value hvalue =>
      cases hmove
      have hnarrow : stage.wide = false := by
        rw [Bool.eq_false_iff]
        intro htrue
        have hword := hwide htrue
        rw [hvalue] at hword
        cases hword
      exact ⟨hnarrow, .inl ⟨_, by simp [ParseError.expectations], rfl, by simp [hvalue]⟩⟩
  | on q' stage' hheading => cases hmove
  | unexpected expected hexpected hwide hbreaks =>
    cases hmove
    exact ⟨hwide, .inl ⟨expected, hexpected, rfl, hbreaks⟩⟩
  | scope word hstage hscope =>
    obtain ⟨he, hunknown⟩ := behindHeading_error hmove.symm
    exact ⟨by rw [hstage]; rfl, .inr ⟨word, hstage, hscope, he, hunknown⟩⟩

/-- A heading is the token that was taken, which was read narrowly, or it was read
before and a line break stands behind it. -/
theorem feed_heading {q' : Quest} {word : Identifier}
    (h : stage.feed q t = .on q' (.heading word)) :
    (stage.wide = false ∧ t = ⟨.identifier word.text, word.offset⟩ ∧
        word.text.toList.head? ≠ some '+') ∨
      (stage = .heading word ∧ ∃ count, t.lexeme = .lineBreaks count) := by
  have hrow := row_feed q stage t
  rw [h] at hrow
  generalize hmove : Move.on q' (.heading word) = move at hrow
  cases hrow with
  | directive q' hwide =>
    unfold feedDirective at hmove
    split at hmove
    · next text htext =>
      split at hmove
      · cases hmove
      · next hplus =>
        cases hmove
        have hnarrow : stage.wide = false := by
          rw [Bool.eq_false_iff]
          intro htrue
          have hword := hwide htrue
          rw [htext] at hword
          cases hword
        exact .inl ⟨hnarrow, by rw [← htext], hplus⟩
    · cases hmove
    · cases hmove
    · cases hmove
  | on q' stage' hheading =>
    cases hmove
    exact .inr (hheading word rfl)
  | unexpected expected hexpected hwide hbreaks => cases hmove
  | scope word' hstage hscope =>
    unfold behindHeading at hmove
    split at hmove <;> cases hmove

end Stage

/-! ## 3. Places in a source -/

/-- The reader stands where its offset says. -/
def Reader.Within (source : List Char) (r : Reader) : Prop :=
  ∃ front, source = front ++ r.rest ∧ r.offset = size front

namespace Reader.Within

variable {source : List Char} {r : Reader}

theorem toToken (h : r.Within source) : r.toToken.Within source := by
  obtain ⟨front, hsource, hoffset⟩ := h
  refine ⟨front ++ (Extent.splitGap false r.rest).1, ?_, ?_⟩
  · rw [hsource, List.append_assoc]
    exact congrArg (front ++ ·) (Extent.append_splitGap false r.rest).symm
  · rw [size_append, ← hoffset]
    rfl

theorem next (h : r.Within source) : r.next.2.Within source := by
  obtain ⟨front, hsource, hoffset⟩ := h
  obtain ⟨piece, hrest, hbehind⟩ := r.exists_append_next
  refine ⟨front ++ piece, ?_, ?_⟩
  · rw [hsource, List.append_assoc]
    exact congrArg (front ++ ·) hrest
  · rw [hbehind, size_append, hoffset]

/-- Whoever reads afresh from where a token starts finds this token first, and
then what comes next. -/
theorem afresh (h : r.Within source) (hnarrow : r.wide = false) :
    ∃ front back, source = front ++ back ∧
      r.next.1 = ⟨(ofSource (.ofList back)).next.1.lexeme, size front⟩ ∧
      (ofSource (.ofList back)).next.1.offset = 0 ∧
      r.next.2 = (ofSource (.ofList back)).next.2.shift (size front) := by
  obtain ⟨front, hsource, hoffset⟩ := h.toToken
  have hstart : r.toToken = (ofSource (.ofList r.toToken.rest)).shift (size front) := by
    have hwide : r.toToken.wide = false := hnarrow
    rw [shift, ofSource, String.toList_ofList, Nat.zero_add, ← hoffset, ← hwide]
  have hnext : r.next = ((ofSource (.ofList r.toToken.rest)).next.1.shift (size front),
      (ofSource (.ofList r.toToken.rest)).next.2.shift (size front)) := by
    rw [← next_shift, ← hstart, next_toToken]
  have hplace : r.next.1.offset = size front := hoffset
  rw [hnext] at hplace
  have hzero : (ofSource (.ofList r.toToken.rest)).next.1.offset = 0 := by
    simp only [Token.shift] at hplace
    omega
  refine ⟨front, r.toToken.rest, hsource, ?_, hzero, by rw [hnext]⟩
  rw [hnext, Token.shift, hzero, Nat.zero_add]

end Reader.Within

/-- The heading stands before the place of `r`. It was found by a fresh reader, and
behind it are line breaks only. -/
structure HeadingAt (source : List Char) (word : Identifier) (r : Reader) : Prop where
  plain : word.text.toList.head? ≠ some '+'
  before : word.offset ≤ r.offset
  found : ∃ front back, source = front ++ back ∧ word.offset = size front ∧
    (Reader.ofSource (.ofList back)).next.1 = ⟨.identifier word.text, 0⟩ ∧
    ((Reader.ofSource (.ofList back)).next.2.shift (size front)).skipBreaks = r.skipBreaks

/-- What holds of every state of the machine. -/
structure State.Placed (source : List Char) (s : State) : Prop where
  narrow : s.reader.wide = false
  within : s.reader.Within source
  heading : ∀ word, s.stage = .heading word → HeadingAt source word s.reader

namespace State

variable {source : List Char} {s : State}

theorem wide_behind (s : State) : s.behind.wide = s.reader.wide := by
  rw [behind, Stage.read_eq]

theorem within_behind (h : s.reader.Within source) : s.behind.Within source := by
  have htuned : (s.stage.tune s.reader).Within source := h
  rw [behind, Stage.read_eq]
  exact htuned.next

theorem token_of_narrow (h : s.stage.wide = false) :
    s.token = s.reader.next.1 ∧ s.behind = s.reader.next.2 := by
  simp [token, behind, Stage.read, h]

theorem Placed.step {q : Quest} {stage : Stage} (hmove : s.move = .on q stage)
    (h : s.Placed source) : Placed source ⟨q, stage, s.behind⟩ := by
  refine ⟨by rw [wide_behind]; exact h.narrow, within_behind h.within, fun word hword => ?_⟩
  cases hword
  obtain ⟨hnarrow, htoken, hplus⟩ | ⟨hstage, count, hcount⟩ := Stage.feed_heading hmove
  · obtain ⟨hnext, hbehind⟩ := token_of_narrow hnarrow
    obtain ⟨front, back, hsource, hfound, hzero, hlast⟩ := h.within.afresh h.narrow
    rw [← hnext, htoken] at hfound
    injection hfound with hlexeme hoffset
    refine ⟨hplus, ?_, front, back, hsource, hoffset, ?_, by rw [← hlast, ← hbehind]⟩
    · have hle := s.reader.offset_next_le
      rw [← hnext, htoken, ← hbehind] at hle
      exact hle
    · rw [hlexeme, ← hzero]
  · have hnarrow : s.stage.wide = false := by rw [hstage]; rfl
    obtain ⟨hnext, hbehind⟩ := token_of_narrow hnarrow
    obtain ⟨hplus, hbefore, hfound⟩ := h.heading word hstage
    obtain ⟨piece, -, hoffset⟩ := s.reader.exists_append_next
    rw [hnext] at hcount
    rw [Reader.skipBreaks_of_lineBreaks hcount, ← hbehind] at hfound
    refine ⟨hplus, ?_, hfound⟩
    rw [hbehind, hoffset]
    exact Nat.le_add_right_of_le hbefore

theorem placed_start (source : String) : Placed source.toList (start source) :=
  ⟨rfl, ⟨[], rfl, rfl⟩, fun _ h => nomatch h⟩

end State

/-! ## 4. Errors -/

/-- What an error says of the source from its offset on. -/
def Fault.Describes (back : String) : Fault → Prop
  | .unexpectedToken expected found =>
    expected ∈ ParseError.expectations ∧
      found = (Reader.ofSource back).next.1.lexeme.describe ∧
      ∀ count, (Reader.ofSource back).next.1.lexeme ≠ .lineBreaks count
  | .unknownDirective word =>
    (Reader.ofSource back).next.1.lexeme = .identifier word ∧
      word.toList.head? ≠ some '+' ∧
      (∀ keyword ∈ Directive.keywords, sameFold word keyword = false) ∧
      (Reader.ofSource back).next.2.skipBreaks.next.1.lexeme = .identifier ":"
  | .unknownTaskKeyword _ => False

/-- The machine fails at tokens only. -/
theorem State.Placed.error {source : List Char} {s : State} {e : ParseError}
    (h : s.Placed source) (hmove : s.move = .stop (.error e)) :
    ∃ front back, source = front ++ back ∧ e.offset = size front ∧
      (Reader.ofSource (.ofList back)).next.1.offset = 0 ∧ e.fault.Describes (.ofList back) := by
  obtain ⟨hnarrow, ⟨expected, hexpected, rfl, hbreaks⟩ | ⟨word, hstage, hscope, rfl, hunknown⟩⟩ :=
    Stage.feed_error hmove
  · obtain ⟨hnext, -⟩ := token_of_narrow hnarrow
    obtain ⟨front, back, hsource, hfound, hzero, -⟩ := h.within.afresh h.narrow
    rw [← hnext] at hfound
    rw [hfound] at hbreaks ⊢
    exact ⟨front, back, hsource, rfl, hzero, hexpected, rfl, hbreaks⟩
  · obtain ⟨hnext, -⟩ := token_of_narrow hnarrow
    obtain ⟨hplus, -, front, back, hsource, hoffset, hfound, hlast⟩ := h.heading word hstage
    rw [hnext] at hscope
    refine ⟨front, back, hsource, hoffset, by rw [hfound], by rw [hfound], hplus, hunknown, ?_⟩
    -- The line breaks behind the heading end where the `:` was found.
    rw [(Reader.skipBreaks_of_identifier hscope).1, Reader.skipBreaks_shift] at hlast
    rw [← hlast, Reader.next_shift] at hscope
    exact hscope

/-- **Every error points at the token it is about.** Its offset is the size of what
stands before a token of the source, and a fresh reader that starts there finds
this token at once. It is the token that the message names and never a line
break, or it is the heading of a directive that does not exist. -/
theorem parse_error_points (source : String) (e : ParseError)
    (h : Quest.parse source = .error e) :
    ∃ front back, source.toList = front ++ back ∧ e.offset = size front ∧
      (Reader.ofSource (.ofList back)).next.1.offset = 0 ∧ e.fault.Describes (.ofList back) := by
  obtain ⟨s, hreaches, hstop⟩ := State.exists_reaches_stop (.start source)
  have hplaced := hreaches.invariant State.Placed.step (State.placed_start source)
  rw [← Quest.parse_eq_run, h] at hstop
  exact hplaced.error hstop

/-- A word of two bytes, a comment and a heading whose `:` is on the next line. -/
theorem parse_error_points_heading :
    Quest.parse "title : é\n\n$- x\nfoo\n: bar" = .error ⟨.unknownDirective "foo", 17⟩ ∧
      ∃ front back, "title : é\n\n$- x\nfoo\n: bar".toList = front ++ back ∧ 17 = size front ∧
        (Reader.ofSource (.ofList back)).next.1.offset = 0 ∧
        (Fault.unknownDirective "foo").Describes (.ofList back) := by
  have hparse : Quest.parse "title : é\n\n$- x\nfoo\n: bar" =
      .error ⟨.unknownDirective "foo", 17⟩ :=
    Quest.parse_of_runFor (n := 20) (by cbv)
  exact ⟨hparse, parse_error_points _ _ hparse⟩

end Questbook
