/-
Questbook.Proofs.Grammar.Stage — the grammar read one token at a time.

The readers of the grammar look ahead, and they keep old readers to come back
to. All that can be done without: a quest can be read by a machine that takes
one token after the other and never goes back. Its memory is the quest so far
and the place in the grammar (`Stage`), which holds what has been read of an
unfinished piece. What a token leads to is a table (`Stage.feed`).

A loop of the grammar ends by looking at a token that is not for it. Here the
stage gives such a token to the stage that comes next (`feedDirective`,
`feedEntry`, `feedCommand`), so the token is taken only once. It may have been
read widely and be meant to be read narrowly; that makes no difference to the
tokens that end a text, which are line breaks and the end of the file.

The machine is for statements about all places of a source: what holds at the
start and is kept by each row of the table holds at every state that is reached
(`State.Reaches.invariant`), and the loops of the grammar need not be looked at.
-/
import Questbook.Proofs.Reader.Wide

namespace Questbook

open Text Extent

/-! ## 1. Stages -/

/-- What a block of text is read for. -/
inductive TextUse where
  | briefing
  /-- The content of a resource, behind the entries of the same table. -/
  | content (entries : List (Int64 × Resource)) (kind : ResourceKind) (id : Int64)
deriving DecidableEq, Repr

/-- A place in the grammar, with what was read of the piece it is in. -/
inductive Stage where
  /-- Between directives. -/
  | directive
  /-- Behind a heading, where its `:` has to stand. -/
  | heading (word : Identifier)
  /-- Before the line of a title. -/
  | title
  /-- In the line of a title. -/
  | titleLine (written : String)
  /-- Before a block of text. -/
  | text (use : TextUse)
  /-- In a block of text, with line breaks read since the last word. -/
  | textLine (use : TextUse) (written : String) (pending : Nat)
  /-- In a resource table, between entries. -/
  | entry (entries : List (Int64 × Resource))
  | entryMark (entries : List (Int64 × Resource)) (kind : ResourceKind)
  | entryNumber (entries : List (Int64 × Resource)) (kind : ResourceKind)
  /-- In a task table, between the commands of the last block. -/
  | command (blocks : List Task) (block : Task)
  /-- Behind a word of a command. -/
  | arguments (blocks : List Task) (block : Task) (last : Command)
  /-- Behind `task` or `event`. -/
  | label (blocks : List Task) (isEvent : Bool)
  | labelMark (blocks : List Task) (isEvent : Bool) (name : String)
deriving DecidableEq, Repr

/-- What a token leads to. -/
inductive Move where
  | on (q : Quest) (stage : Stage)
  | stop (outcome : Except ParseError Quest)

namespace Stage

/-- Text for the player is read with blanks kept inside words. -/
def wide : Stage → Bool
  | title | titleLine _ | text _ | textLine .. => true
  | _ => false

/-- Line breaks are passed over here. -/
def passesBreaks : Stage → Bool
  | titleLine _ | textLine .. | arguments .. => false
  | _ => true

/-! ## 2. The table -/

def feedDirective (q : Quest) (t : Token) : Move :=
  match t.lexeme with
  | .identifier word =>
    if word.toList.head? = some '+' then .on ((Directive.flag word t.offset).applyTo q) directive
    else .on q (heading ⟨word, t.offset⟩)
  | .lineBreaks _ => .on q directive
  | .endOfFile => .stop (.ok q)
  | .integer _ => .stop (.error (t.unexpected "an identifier"))

/-- What stands under a heading. -/
def behindHeading (q : Quest) (word : Identifier) : Move :=
  match fold word.text with
  | "title" => .on q title
  | "briefing" => .on q (text .briefing)
  | "qrc" => .on q (entry [])
  | "qst" => .on q (command [] (.entryPoint []))
  | _ => .stop (.error ⟨.unknownDirective word.text, word.offset⟩)

/-- A `:` has to stand here. -/
def feedMark (q : Quest) (here : Stage) (behind : Move) (t : Token) : Move :=
  match t.lexeme with
  | .identifier ":" => behind
  | .lineBreaks _ => .on q here
  | _ => .stop (.error (t.unexpected "':'"))

def feedEntry (q : Quest) (entries : List (Int64 × Resource)) (t : Token) : Move :=
  match t.lexeme with
  | .lineBreaks _ => .on q (entry entries)
  | .identifier word =>
    match ResourceKind.ofKeyword? word with
    | some kind => .on q (entryMark entries kind)
    | none => feedDirective ((Directive.resources entries).applyTo q) t
  | _ => feedDirective ((Directive.resources entries).applyTo q) t

/-- The quest and the stage behind a block of text. -/
def behindText (q : Quest) (written : String) : TextUse → Quest × Stage
  | .briefing => ((Directive.briefing written).applyTo q, directive)
  | .content entries kind id => (q, entry (entries ++ [(id, ⟨kind, written⟩)]))

def feedBehindText (q : Quest) (written : String) (t : Token) : TextUse → Move
  | .briefing => feedDirective ((Directive.briefing written).applyTo q) t
  | .content entries kind id => feedEntry q (entries ++ [(id, ⟨kind, written⟩)]) t

def feedTitleLine (q : Quest) (written : String) (t : Token) : Move :=
  match t.lexeme.word? with
  | some word => .on q (titleLine (written ++ word))
  | none => feedDirective ((Directive.title written).applyTo q) t

def feedTextLine (q : Quest) (use : TextUse) (written : String) (pending : Nat) (t : Token) :
    Move :=
  match t.lexeme.word? with
  | some word => .on q (textLine use (written ++ .ofList (List.replicate pending '\n') ++ word) 0)
  | none =>
    if t.lexeme = .endOfFile ∨ t.lexeme.isBlankLine then feedBehindText q written t use
    else .on q (textLine use written (pending + 1))

/-- The quest when its task table ends here. -/
def withTasks (q : Quest) (blocks : List Task) (block : Task) : Quest :=
  { q with tasks := blocks ++ [block] }

def feedCommand (q : Quest) (blocks : List Task) (block : Task) (t : Token) : Move :=
  match t.lexeme with
  | .lineBreaks _ => .on q (command blocks block)
  | .identifier word =>
    match Reader.blockKind? word with
    | some isEvent => .on q (label (blocks ++ [block]) isEvent)
    | none => .on q (arguments blocks block ⟨fold word, []⟩)
  | _ => feedDirective (withTasks q blocks block) t

def feedArguments (q : Quest) (blocks : List Task) (block : Task) (last : Command) (t : Token) :
    Move :=
  match t.lexeme.word? with
  | some word => .on q (arguments blocks block { last with arguments := last.arguments ++ [word] })
  | none => feedCommand q blocks { block with commands := block.commands ++ [last] } t

/-- What a token leads to. -/
def feed (q : Quest) (stage : Stage) (t : Token) : Move :=
  match stage with
  | directive => feedDirective q t
  | heading word => feedMark q stage (behindHeading q word) t
  | title =>
    match t.lexeme with
    | .lineBreaks _ => .on q title
    | _ => feedTitleLine q "" t
  | titleLine written => feedTitleLine q written t
  | text use =>
    match t.lexeme with
    | .lineBreaks _ => .on q stage
    | _ => feedTextLine q use "" 0 t
  | textLine use written pending => feedTextLine q use written pending t
  | entry entries => feedEntry q entries t
  | entryMark entries kind => feedMark q stage (.on q (entryNumber entries kind)) t
  | entryNumber entries kind =>
    match t.lexeme with
    | .lineBreaks _ => .on q stage
    | .integer id => .on q (text (.content entries kind id))
    | _ => .stop (.error (t.unexpected "a number"))
  | command blocks block => feedCommand q blocks block t
  | arguments blocks block last => feedArguments q blocks block last t
  | label blocks isEvent =>
    match t.lexeme with
    | .lineBreaks _ => .on q stage
    | .identifier name => .on q (labelMark blocks isEvent name)
    | _ => .stop (.error (t.unexpected "an identifier"))
  | labelMark blocks isEvent name =>
    feedMark q stage (.on q (command blocks { name, isEvent })) t

/-! ## 3. Runs -/

/-- The next token, read as it is read at this stage. -/
def read (stage : Stage) (r : Reader) : Token × Reader :=
  if stage.wide then r.widely Reader.next else r.next

/-- The reader in the mode of this stage. -/
def tune (stage : Stage) (r : Reader) : Reader :=
  { r with wide := stage.wide || r.wide }

/-- Reading is taking one token in the mode of the stage; then the mode is as it was. -/
theorem read_eq (stage : Stage) (r : Reader) :
    stage.read r = ((stage.tune r).next.1, { (stage.tune r).next.2 with wide := r.wide }) := by
  unfold read tune
  cases stage.wide <;> rfl

/-- The machine stops at the end of the file. -/
theorem feed_endOfFile (q : Quest) (stage : Stage) (offset : Nat) :
    ∃ outcome, stage.feed q ⟨.endOfFile, offset⟩ = .stop outcome := by
  cases stage with
  | text use => cases use <;> exact ⟨_, rfl⟩
  | textLine use written pending => cases use <;> exact ⟨_, rfl⟩
  | _ => exact ⟨_, rfl⟩

theorem length_read_lt {q q' : Quest} {stage stage' : Stage} {r : Reader}
    (h : stage.feed q (stage.read r).1 = .on q' stage') :
    (stage.read r).2.rest.length < r.rest.length := by
  have hne : (stage.read r).1.lexeme ≠ .endOfFile := by
    intro hend
    obtain ⟨outcome, hstop⟩ := feed_endOfFile q stage (stage.read r).1.offset
    rw [← hend] at hstop
    rw [hstop] at h
    cases h
  rw [read_eq] at hne ⊢
  exact Reader.length_next_lt (r := stage.tune r) hne

/-- What comes of a source from here on. -/
def run (q : Quest) (stage : Stage) (r : Reader) : Except ParseError Quest :=
  match _ : stage.feed q (stage.read r).1 with
  | .stop outcome => outcome
  | .on q' stage' => stage'.run q' (stage.read r).2
termination_by r.rest.length
decreasing_by exact length_read_lt ‹_›

end Stage

/-- What comes of a source when a token led here. -/
def Move.resume : Move → Reader → Except ParseError Quest
  | .stop outcome, _ => outcome
  | .on q stage, r => stage.run q r

namespace Stage

theorem run_eq (q : Quest) (stage : Stage) (r : Reader) :
    stage.run q r = (stage.feed q (stage.read r).1).resume (stage.read r).2 := by
  rw [run]
  split
  · next outcome h =>
    rw [h]
    rfl
  · next q' stage' h =>
    rw [h]
    rfl

theorem run_of_narrow {stage : Stage} (h : stage.wide = false) (q : Quest) (r : Reader) :
    stage.run q r = (stage.feed q r.next.1).resume r.next.2 := by
  rw [run_eq, read, h]
  rfl

theorem run_of_wide {stage : Stage} (h : stage.wide = true) (q : Quest) (r : Reader) :
    stage.run q r = (stage.feed q (r.widely Reader.next).1).resume (r.widely Reader.next).2 := by
  rw [run_eq, read, h]
  rfl

theorem run_behindText (q : Quest) (written : String) (use : TextUse) (r : Reader) :
    (behindText q written use).2.run (behindText q written use).1 r =
      (feedBehindText q written r.next.1 use).resume r.next.2 := by
  cases use <;> exact run_of_narrow rfl _ _

/-- The run, if it takes no more than `n` tokens. Other than the run itself it can
be computed from its definition. -/
def runFor : Nat → Quest → Stage → Reader → Option (Except ParseError Quest)
  | 0, _, _, _ => none
  | n + 1, q, stage, r =>
    match stage.feed q (stage.read r).1 with
    | .stop outcome => some outcome
    | .on q' stage' => runFor n q' stage' (stage.read r).2

theorem run_of_runFor {n : Nat} {q : Quest} {stage : Stage} {r : Reader}
    {outcome : Except ParseError Quest} (h : runFor n q stage r = some outcome) :
    stage.run q r = outcome := by
  induction n generalizing q stage r with
  | zero => cases h
  | succ n ih =>
    rw [runFor] at h
    rw [run_eq]
    split at h
    · next hstop =>
      rw [hstop]
      exact Option.some.inj h
    · next hon =>
      rw [hon]
      exact ih h

/-! ## 4. Line breaks -/

theorem feed_lineBreaks {stage : Stage} (h : stage.passesBreaks = true) (q : Quest) {t : Token}
    {count : Nat} (ht : t.lexeme = .lineBreaks count) : stage.feed q t = .on q stage := by
  cases stage with
  | titleLine written => cases h
  | textLine use written pending => cases h
  | arguments blocks block last => cases h
  | _ => simp [feed, feedDirective, feedMark, feedEntry, feedCommand, ht]

/-- A line break that ends a text is passed over behind it. -/
theorem feedBehindText_of_lineBreaks {t : Token} {count : Nat} (h : t.lexeme = .lineBreaks count)
    (q : Quest) (written : String) (use : TextUse) :
    feedBehindText q written t use =
      .on (behindText q written use).1 (behindText q written use).2 := by
  cases use with
  | briefing => exact @feed_lineBreaks directive rfl _ _ _ h
  | content entries kind id => exact @feed_lineBreaks (entry _) rfl _ _ _ h

/-- Behind a word of a text, a single line break is counted. -/
theorem feed_textLine_of_lt {t : Token} {count : Nat} (h : t.lexeme = .lineBreaks count)
    (hcount : count < 2) (q : Quest) (use : TextUse) (written : String) (pending : Nat) :
    (textLine use written pending).feed q t = .on q (textLine use written (pending + 1)) := by
  simp [feed, feedTextLine, h, Lexeme.word?, Lexeme.isBlankLine, Nat.not_le.2 hcount]

/-- A blank line ends the text. -/
theorem feed_textLine_of_le {t : Token} {count : Nat} (h : t.lexeme = .lineBreaks count)
    (hcount : 2 ≤ count) (q : Quest) (use : TextUse) (written : String) (pending : Nat) :
    (textLine use written pending).feed q t =
      .on (behindText q written use).1 (behindText q written use).2 := by
  have hblank : t.lexeme.isBlankLine = true := by simp [h, Lexeme.isBlankLine, hcount]
  rw [feed, feedTextLine, if_pos (.inr hblank), feedBehindText_of_lineBreaks h, h]
  rfl

/-- Line breaks end what is open, or they are passed over. Only a text that has begun
does not end before a blank line. -/
theorem exists_feed_lineBreaks (stage : Stage) :
    ∃ (f : Quest → Quest) (next : Stage), next.passesBreaks = true ∧
      ∀ (q : Quest) (t : Token) (count : Nat), t.lexeme = .lineBreaks count →
        (∀ use written pending, stage = textLine use written pending → 2 ≤ count) →
        stage.feed q t = .on (f q) next := by
  cases hpass : stage.passesBreaks with
  | true =>
    refine ⟨id, stage, hpass, ?_⟩
    intro q t count ht _
    exact feed_lineBreaks hpass q ht
  | false =>
    cases stage with
    | titleLine written =>
      refine ⟨(Directive.title written).applyTo, directive, rfl, ?_⟩
      intro q t count ht _
      simp [feed, feedTitleLine, feedDirective, ht, Lexeme.word?]
    | textLine use written pending =>
      refine ⟨fun q => (behindText q written use).1, (behindText {} written use).2, ?_, ?_⟩
      · cases use <;> rfl
      · intro q t count ht hcount
        rw [feed_textLine_of_le ht (hcount _ _ _ rfl)]
        cases use <;> rfl
    | arguments blocks block last =>
      refine ⟨id, command blocks { block with commands := block.commands ++ [last] }, rfl, ?_⟩
      intro q t count ht _
      simp [feed, feedArguments, feedCommand, ht, Lexeme.word?]
    | _ => cases hpass

/-- At every stage, a token that is no word is read the same. -/
theorem read_of_word?_eq_none {r : Reader} (h : r.next.1.lexeme.word? = none) (stage : Stage) :
    stage.read r = r.next := by
  unfold read
  split
  · exact Reader.widely_next h
  · rfl

theorem read_eq_next {stage : Stage} {r : Reader}
    (h : (stage.read r).1.lexeme.word? = none) : stage.read r = r.next := by
  unfold read at h ⊢
  split
  · next hwide =>
    rw [if_pos hwide] at h
    exact (Reader.next_of_widely h).symm
  · rfl

/-- Line breaks that are passed over make no difference. -/
theorem run_skipBreaks {stage : Stage} (h : stage.passesBreaks = true) (q : Quest) (r : Reader) :
    stage.run q r = stage.run q r.skipBreaks := by
  fun_induction Reader.skipBreaks r with
  | case1 r count hcount ih =>
    rw [run_eq, read_of_word?_eq_none (by rw [hcount]; rfl), feed_lineBreaks h q hcount]
    exact ih
  | case2 r hno => rfl

end Stage

/-! ## 5. States -/

/-- The machine at a place of a source. -/
structure State where
  quest : Quest
  stage : Stage
  reader : Reader

namespace State

/-- The machine before a source. -/
def start (source : String) : State :=
  ⟨{}, .directive, .ofSource source⟩

/-- The token that is taken next. -/
def token (s : State) : Token :=
  (s.stage.read s.reader).1

/-- The place behind that token. -/
def behind (s : State) : Reader :=
  (s.stage.read s.reader).2

/-- What that token leads to. -/
def move (s : State) : Move :=
  s.stage.feed s.quest s.token

/-- What comes of the source from here on. -/
def run (s : State) : Except ParseError Quest :=
  s.stage.run s.quest s.reader

/-- The machine gets from one state to the other. -/
inductive Reaches : State → State → Prop where
  | refl (s : State) : Reaches s s
  | step {s t : State} {q : Quest} {stage : Stage} (h : s.move = .on q stage)
      (hlast : Reaches ⟨q, stage, s.behind⟩ t) : Reaches s t

theorem run_of_on {s : State} {q : Quest} {stage : Stage} (h : s.move = .on q stage) :
    s.run = run ⟨q, stage, s.behind⟩ := by
  have hmove : s.stage.feed s.quest (s.stage.read s.reader).1 = .on q stage := h
  rw [run, Stage.run_eq, hmove]
  rfl

theorem run_of_stop {s : State} {outcome : Except ParseError Quest} (h : s.move = .stop outcome) :
    s.run = outcome := by
  have hmove : s.stage.feed s.quest (s.stage.read s.reader).1 = .stop outcome := h
  rw [run, Stage.run_eq, hmove]
  rfl

theorem length_behind_lt {s : State} {q : Quest} {stage : Stage} (h : s.move = .on q stage) :
    s.behind.rest.length < s.reader.rest.length :=
  Stage.length_read_lt h

theorem Reaches.length_le {s t : State} (h : s.Reaches t) :
    t.reader.rest.length ≤ s.reader.rest.length := by
  induction h with
  | refl s => exact Nat.le_refl _
  | step hmove hlast ih => exact Nat.le_trans ih (Nat.le_of_lt (length_behind_lt hmove))

theorem Reaches.run_eq {s t : State} (h : s.Reaches t) : s.run = t.run := by
  induction h with
  | refl s => rfl
  | step hmove hlast ih => rw [run_of_on hmove, ih]

/-- What every step keeps, every run keeps. -/
theorem Reaches.invariant {P : State → Prop} {s t : State} (h : s.Reaches t)
    (hstep : ∀ {s : State} {q : Quest} {stage : Stage},
      s.move = .on q stage → P s → P ⟨q, stage, s.behind⟩) (hs : P s) : P t := by
  induction h with
  | refl s => exact hs
  | step hmove hlast ih => exact ih (hstep hmove hs)

/-- Every run stops, and with what came of the source. -/
theorem exists_reaches_stop (s : State) :
    ∃ t : State, s.Reaches t ∧ t.move = .stop s.run := by
  induction hn : s.reader.rest.length using Nat.strongRecOn generalizing s with
  | ind n ih =>
    cases hmove : s.move with
    | stop outcome =>
      refine ⟨s, .refl s, ?_⟩
      rw [run_of_stop hmove, hmove]
    | on q stage =>
      have hlt := length_behind_lt hmove
      obtain ⟨t, ht, hstop⟩ := ih _ (hn ▸ hlt) ⟨q, stage, s.behind⟩ rfl
      refine ⟨t, .step hmove ht, ?_⟩
      rw [hstop, run_of_on hmove]

end State

end Questbook
