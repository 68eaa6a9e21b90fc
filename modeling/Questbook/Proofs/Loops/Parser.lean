/-
Questbook.Proofs.Loops.Parser — the grammar, read by loops with a limit.

The same grammar once more, as loops over tokens. Each loop looks at the next token, is
left if nothing for it stands there, and else reads on, often with another loop, and adds
what it found to what it carries. There are seven of them (`Loop`): over line breaks, over
the words of a line, over the lines of a block of text, and over the commands, the blocks
of a task table, the entries of a resource table and the directives of a source. The words
behind the name of a command and those of a title are read by the same loop; only the way
of reading differs.

Every loop may take `limit` rounds each time it is entered. Looking at a token takes nothing:
what was looked at is read again, by a function that first passes over line breaks.
-/
import Questbook.Proofs.Loops.Rounds

namespace Questbook

open Text Reader

namespace Limited

variable (limit : Nat)

/-! ## 1. Single tokens -/

/-- A line break is passed. -/
def breaksRound (_ : Unit) (r : Reader) : Bounded (Round Unit Unit) :=
  match r.peek.lexeme with
  | .lineBreaks _ => return .again () r.next.2
  | _ => return .leave () r

/-- Passes over line breaks. -/
def breaks (r : Reader) : Bounded (Unit × Reader) :=
  Round.loop breaksRound limit () r

/-- Takes one token behind the line breaks, if `accept` does. -/
def take {α : Type} (expected : String) (accept : Token → Option α) (r : Reader) :
    Bounded (α × Reader) := do
  let (_, r) ← breaks limit r
  match accept r.next.1 with
  | some a => return (a, r.next.2)
  | none => throw (r.next.1.unexpected expected)

/-- Takes the `:` behind a heading or label. -/
def mark : Reader → Bounded (Unit × Reader) :=
  take limit "':'" fun token => if token.lexeme.isKeyword scope then some () else none

/-- Takes an identifier. -/
def identifier : Reader → Bounded (Identifier × Reader) :=
  take limit "an identifier" fun token => token.lexeme.identifier?.map (⟨·, token.offset⟩)

/-- Takes a word. -/
def word : Reader → Bounded (String × Reader) :=
  take limit "a word" fun token => token.lexeme.word?

/-- Takes a number. -/
def number : Reader → Bounded (Int64 × Reader) :=
  take limit "a number" fun token => token.lexeme.integer?

/-! ## 2. Text -/

/-- A word is added to those of the line. -/
def wordsRound (words : List String) (r : Reader) :
    Bounded (Round (List String) (List String)) :=
  if r.peek.lexeme.word?.isSome then do
    let (word, r) ← word limit r
    return .again (words ++ [word]) r
  else return .leave words r

/-- The words up to the end of the line. -/
def words (r : Reader) : Bounded (List String × Reader) :=
  Round.loop (wordsRound limit) limit [] r

/-- The text so far and the line breaks that wait for the next word: a word is added with
these, a single line break waits, a blank line ends the block. -/
def linesRound (carried : String × Nat) (r : Reader) :
    Bounded (Round (String × Nat) String) :=
  match r.peek.lexeme with
  | .endOfFile => return .leave carried.1 r
  | .lineBreaks count =>
    if (Lexeme.lineBreaks count).isBlankLine then return .leave carried.1 r.next.2
    else return .again (carried.1, carried.2 + 1) r.next.2
  | _ => do
    let (word, r) ← word limit r
    return .again (carried.1 ++ (String.ofList (List.replicate carried.2 '\n') ++ word), 0) r

/-- Reads with blanks kept inside words, and goes back to the former way. -/
def widely {α : Type} (read : Reader → Bounded (α × Reader)) (r : Reader) :
    Bounded (α × Reader) := do
  let (a, last) ← read { r with wide := true }
  return (a, { last with wide := r.wide })

/-- The words up to the end of the line, with nothing between them. -/
def textLine (r : Reader) : Bounded (String × Reader) := do
  let (_, r) ← breaks limit r
  let (words, last) ← widely (words limit) r
  return (String.join words, last)

/-- Lines of text up to a blank line or the end of the file. -/
def textBlock (r : Reader) : Bounded (String × Reader) := do
  let (_, r) ← breaks limit r
  widely (Round.loop (linesRound limit) limit ("", 0)) r

/-! ## 3. The task table -/

/-- A command is added. -/
def commandsRound (commands : List Command) (r : Reader) :
    Bounded (Round (List Command) (List Command)) :=
  match r.peek.lexeme with
  | .identifier name =>
    if (blockKind? name).isSome then return .leave commands r
    else do
      let (name, r) ← identifier limit r
      let (arguments, r) ← words limit r
      let (_, r) ← breaks limit r
      return .again (commands ++ [⟨fold name.text, arguments⟩]) r
  | _ => return .leave commands r

/-- Commands up to a block, to what is no identifier, or to the end of the file. -/
def commands (r : Reader) : Bounded (List Command × Reader) := do
  let (_, r) ← breaks limit r
  Round.loop (commandsRound limit) limit [] r

/-- What stands behind the keyword of a block. -/
def block (isEvent : Bool) (r : Reader) : Bounded (Task × Reader) := do
  let (name, r) ← identifier limit r
  let (_, r) ← mark limit r
  let (commands, r) ← commands limit r
  let (_, r) ← breaks limit r
  return (⟨name.text, commands, isEvent⟩, r)

/-- A task or event is added. -/
def blocksRound (blocks : List Task) (r : Reader) : Bounded (Round (List Task) (List Task)) :=
  match r.peek.lexeme with
  | .identifier _ => do
    let (keyword, r) ← identifier limit r
    match blockKind? keyword.text with
    | some isEvent =>
      let (task, r) ← block limit isEvent r
      return .again (blocks ++ [task]) r
    | none => throw ⟨.unknownTaskKeyword keyword.text, keyword.offset⟩
  | _ => return .leave blocks r

/-- The commands of the main line, then the blocks. -/
def stages (r : Reader) : Bounded (Directive × Reader) := do
  let (opening, r) ← commands limit r
  let (_, r) ← breaks limit r
  let (blocks, r) ← Round.loop (blocksRound limit) limit [] r
  return (.stages opening blocks, r)

/-! ## 4. The resource table -/

/-- What stands behind the word for a kind of resource. -/
def resource (kind : ResourceKind) (r : Reader) : Bounded ((Int64 × Resource) × Reader) := do
  let (_, r) ← mark limit r
  let (id, r) ← number limit r
  let (content, r) ← textBlock limit r
  let (_, r) ← breaks limit r
  return ((id, ⟨kind, content⟩), r)

/-- An entry is added. -/
def entriesRound (entries : List (Int64 × Resource)) (r : Reader) :
    Bounded (Round (List (Int64 × Resource)) (List (Int64 × Resource))) :=
  match r.peek.lexeme with
  | .identifier keyword =>
    match ResourceKind.ofKeyword? keyword with
    | some kind => do
      let (entry, r) ← resource limit kind r.next.2
      return .again (entries ++ [entry]) r
    | none => return .leave entries r
  | _ => return .leave entries r

/-- The entries of a resource table. -/
def resources (r : Reader) : Bounded (Directive × Reader) := do
  let (_, r) ← breaks limit r
  let (entries, r) ← Round.loop (entriesRound limit) limit [] r
  return (.resources entries, r)

/-! ## 5. Directives -/

/-- What stands behind a heading and its `:`. -/
def body (heading : Identifier) (r : Reader) : Bounded (Directive × Reader) :=
  match fold heading.text with
  | "title" => do
    let (text, r) ← textLine limit r
    return (.title text, r)
  | "briefing" => do
    let (text, r) ← textBlock limit r
    return (.briefing text, r)
  | "qrc" => resources limit r
  | "qst" => stages limit r
  | _ => throw ⟨.unknownDirective heading.text, heading.offset⟩

/-- One more directive is taken into account. -/
def directivesRound (q : Quest) (r : Reader) : Bounded (Round Quest Quest) := do
  let (_, r) ← breaks limit r
  if r.atEnd then return .leave q r
  let (word, r) ← identifier limit r
  if word.text.toList.head? = some '+' then
    return .again ((Directive.flag word.text word.offset).applyTo q) r
  let (_, r) ← mark limit r
  let (directive, r) ← body limit word r
  return .again (directive.applyTo q) r

/-! ## 6. All loops -/

/-- The loops of the grammar, by what they carry and what they give. -/
inductive Loop : Type → Type → Type where
  | breaks : Loop Unit Unit
  | words : Loop (List String) (List String)
  | lines : Loop (String × Nat) String
  | commands : Loop (List Command) (List Command)
  | blocks : Loop (List Task) (List Task)
  | entries : Loop (List (Int64 × Resource)) (List (Int64 × Resource))
  | directives : Loop Quest Quest

namespace Loop

variable {σ α : Type}

/-- One round of a loop. -/
def round : Loop σ α → σ → Reader → Bounded (Round σ α)
  | .breaks => breaksRound
  | .words => wordsRound limit
  | .lines => linesRound limit
  | .commands => commandsRound limit
  | .blocks => blocksRound limit
  | .entries => entriesRound limit
  | .directives => directivesRound limit

/-- The whole loop, from what it carries at first. -/
def run (loop : Loop σ α) : σ → Reader → Bounded (α × Reader) :=
  Round.loop (loop.round limit) limit

/-- What the loop is to give, by the functions that read lists. -/
def outcome : Loop σ α → σ → Reader → Except ParseError (α × Reader)
  | .breaks, _, r => .ok ((), r.skipBreaks)
  | .words, front, r => .ok (front ++ r.words.1, r.words.2)
  | .lines, (text, pending), r =>
    .ok (text ++ (r.blockLines pending).1, (r.blockLines pending).2)
  | .commands, front, r => .ok (front ++ r.commands.1, r.commands.2)
  | .blocks, front, r => r.blocks.ending.map fun last => (front ++ r.blocks.items, last)
  | .entries, front, r => r.resources.ending.map fun last => (front ++ r.resources.items, last)
  | .directives, q, r =>
    r.directives.ending.map fun last => (r.directives.items.foldl Directive.applyTo q, last)

end Loop

/-- The quest of a source. -/
def parse (source : String) : Bounded Quest := do
  let (q, _) ← Loop.directives.run limit {} (.ofSource source)
  return q

end Limited

end Questbook
