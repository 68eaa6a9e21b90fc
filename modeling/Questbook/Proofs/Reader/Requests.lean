/-
Questbook.Proofs.Reader.Requests — a reader that is asked for one thing after another.

Whoever has a reader can look ahead, take tokens, pass over line breaks and ask for a
keyword, an identifier, a word, a number or a text, in any order, and goes on where a
request left the reader, also where it failed. What can be relied on behind each request
of such a course is `requests_in_order`.

Two things carry it. A text is put together from words that are asked for one by one,
with the request that fails on anything else. But the loop looks at the token first, and
the request sees that same token in that same mode, so it passes over no line breaks and
finds the word (`word_of_word?`). And a request for a single token takes the token behind
the line breaks whether it is of the right sort or not (`take_eq`), so a failure says no
more than what skipping and one step would have shown.
-/
import Questbook.Proofs.Loops.Ends
import Questbook.Proofs.Reader.Wide

namespace Questbook

open Text

/-- What can be asked of a reader. -/
inductive Request where
  /-- The next token, looked at only. -/
  | peek
  /-- The next token. -/
  | advance
  /-- Whether no token is left. -/
  | atEnd
  /-- Passes over the line breaks that stand next. -/
  | skipBreaks
  | expect (keyword : String)
  | identifier
  | word
  | number
  | textLine
  | textBlock
deriving DecidableEq, Repr

/-- What a request gives if it does not fail. -/
inductive Response where
  | token (token : Token)
  | verdict (atEnd : Bool)
  | nothing
  | identifier (identifier : Identifier)
  | text (text : String)
  | number (value : Int64)
deriving DecidableEq, Repr

/-- What has to stand next for a request of a single token, in the words of its error.
The other requests take whatever stands there. -/
def Request.expected? : Request → Option String
  | .expect keyword => some s!"'{keyword}'"
  | .identifier => some "an identifier"
  | .word => some "a word"
  | .number => some "a number"
  | .peek | .advance | .atEnd | .skipBreaks | .textLine | .textBlock => none

namespace Reader

/-! ## 1. Single tokens -/

/-- A token is taken whether it is of the right sort or not. -/
theorem take_eq {α : Type} (expected : String) (accept : Token → Option α) (r : Reader) :
    r.take expected accept =
      (match accept r.skipBreaks.next.1 with
        | some a => .ok a
        | none => .error (r.skipBreaks.next.1.unexpected expected),
      r.skipBreaks.next.2) := by
  cases h : accept r.skipBreaks.next.1 <;> simp [take, h, Token.unexpected]

/-- A word that is seen ahead is what the request for a word finds. -/
theorem word_of_word? {r : Reader} {word : String} (h : r.next.1.lexeme.word? = some word) :
    r.word = (.ok word, r.next.2) := by
  have hskip : r.skipBreaks = r := skipBreaks_of_ne_lineBreaks fun count hcount => by
    rw [hcount] at h
    cases h
  rw [Reader.word, take_eq, hskip, h]

/-! ## 2. Texts, word by word -/

theorem length_word_lt {r : Reader} (h : r.peek.isWord = true) :
    r.word.2.rest.length < r.rest.length := by
  obtain ⟨word, hword⟩ := Option.isSome_iff_exists.1 h
  rw [word_of_word? hword]
  exact length_next_lt (Limited.ne_endOfFile_of_word? hword)

/-- As long as a word is seen ahead, asks for it and appends it to `text`. A failure of
the request ends the reading. -/
def joinWords (text : String) (r : Reader) : Except ParseError String × Reader :=
  if _ : r.peek.isWord = true then
    match r.word.1 with
    | .ok word => r.word.2.joinWords (text ++ word)
    | .error e => (.error e, r.word.2)
  else (.ok text, r)
termination_by r.rest.length
decreasing_by exact length_word_lt ‹_›

/-- A line of text, with each word asked for. -/
def lineByWord (r : Reader) : Except ParseError String × Reader :=
  r.skipBreaks.widely (joinWords "")

/-- Up to a blank line, which is taken too, or the end of the file, asks for each word
that is seen ahead and appends it to `text`, behind the `pending` newlines. A failure of
the request ends the reading. -/
def joinLines (text : String) (pending : Nat) (r : Reader) : Except ParseError String × Reader :=
  if _ : r.peek.isWord = true then
    match r.word.1 with
    | .ok word =>
      r.word.2.joinLines (text ++ String.ofList (List.replicate pending '\n') ++ word) 0
    | .error e => (.error e, r.word.2)
  else if _ : r.peek.lexeme = .endOfFile then (.ok text, r)
  else if r.peek.lexeme.isBlankLine then (.ok text, r.next.2)
  else r.next.2.joinLines text (pending + 1)
termination_by r.rest.length
decreasing_by
  · exact length_word_lt ‹_›
  · exact length_next_lt ‹_›

/-- A block of text, with each word asked for. -/
def blockByWord (r : Reader) : Except ParseError String × Reader :=
  r.skipBreaks.widely (joinLines "" 0)

section Word

variable {r : Reader} {word : String}

theorem isWord_peek (h : r.next.1.lexeme.word? = some word) : r.peek.isWord = true :=
  congrArg Option.isSome h

theorem not_isWord_peek (h : r.next.1.lexeme.word? = none) : ¬r.peek.isWord = true := by
  simp [peek, Token.isWord, h]

theorem joinWords_of_word? (h : r.next.1.lexeme.word? = some word) (text : String) :
    r.joinWords text = r.next.2.joinWords (text ++ word) := by
  rw [joinWords, dif_pos (isWord_peek h), word_of_word? h]

theorem joinLines_of_word? (h : r.next.1.lexeme.word? = some word) (text : String)
    (pending : Nat) :
    r.joinLines text pending =
      r.next.2.joinLines (text ++ String.ofList (List.replicate pending '\n') ++ word) 0 := by
  rw [joinLines, dif_pos (isWord_peek h), word_of_word? h]

end Word

/-- The words are all there, and none of the requests fails. -/
theorem joinWords_eq (text : String) (r : Reader) :
    r.joinWords text = (.ok (text ++ String.join r.words.1), r.words.2) := by
  fun_induction words r generalizing text with
  | case1 r word h others last heq ih =>
    rw [joinWords_of_word? h, ih, heq, String.join_cons, String.append_assoc]
  | case2 r h =>
    rw [joinWords, dif_neg (not_isWord_peek h), String.join_nil, String.append_empty]

theorem joinLines_eq (text : String) (pending : Nat) (r : Reader) :
    r.joinLines text pending =
      (.ok (text ++ (r.blockLines pending).1), (r.blockLines pending).2) := by
  fun_induction blockLines pending r generalizing text with
  | case1 pending r word h others last heq ih =>
    rw [joinLines_of_word? h, ih, heq]
    simp only [String.append_assoc]
  | case2 pending r h hend =>
    rw [joinLines, dif_neg (not_isWord_peek h), peek, dif_pos hend, String.append_empty]
  | case3 pending r h hend hblank =>
    rw [joinLines, dif_neg (not_isWord_peek h), peek, dif_neg hend, if_pos hblank,
      String.append_empty]
  | case4 pending r h hend hblank ih =>
    rw [joinLines, dif_neg (not_isWord_peek h), peek, dif_neg hend, if_neg hblank, ih]

theorem lineByWord_eq (r : Reader) : r.lineByWord = (.ok r.textLine.1, r.textLine.2) := by
  simp [lineByWord, textLine, widely, joinWords_eq]

theorem blockByWord_eq (r : Reader) : r.blockByWord = (.ok r.textBlock.1, r.textBlock.2) := by
  simp [blockByWord, textBlock, widely, joinLines_eq]

/-- Behind the words there is none. -/
theorem word?_next_words (r : Reader) : r.words.2.next.1.lexeme.word? = none := by
  fun_induction words r with
  | case1 r word h others last heq ih =>
    rw [heq] at ih
    exact ih
  | case2 r h => exact h

/-- A line of text ends before line breaks or the end of the file, which are there in
either mode. -/
theorem peek_textLine (r : Reader) :
    r.textLine.2.peek.isBreaks = true ∨ r.textLine.2.atEnd = true := by
  have hwide := word?_next_words { r.skipBreaks with wide := true }
  have hnext := next_widen hwide r.skipBreaks.wide
  have hnone : r.textLine.2.peek.lexeme.word? = none := by
    rw [peek, textLine, widely, hnext]
    exact hwide
  unfold Token.isBreaks atEnd
  revert hnone
  cases r.textLine.2.peek.lexeme <;> simp [Lexeme.word?]

/-! ## 3. One request -/

/-- What a request does to a reader. -/
def serve (r : Reader) : Request → Except ParseError Response × Reader
  | .peek => (.ok (.token r.peek), r)
  | .advance => (.ok (.token r.next.1), r.next.2)
  | .atEnd => (.ok (.verdict r.atEnd), r)
  | .skipBreaks => (.ok .nothing, r.skipBreaks)
  | .expect keyword => (r.expect keyword).map (Except.map fun _ => .nothing) id
  | .identifier => r.identifier.map (Except.map .identifier) id
  | .word => r.word.map (Except.map .text) id
  | .number => r.number.map (Except.map .number) id
  | .textLine => r.lineByWord.map (Except.map .text) id
  | .textBlock => r.blockByWord.map (Except.map .text) id

theorem serve_textLine (r : Reader) :
    r.serve .textLine = (.ok (.text r.textLine.1), r.textLine.2) := by
  rw [serve, lineByWord_eq]
  rfl

theorem serve_textBlock (r : Reader) :
    r.serve .textBlock = (.ok (.text r.textBlock.1), r.textBlock.2) := by
  rw [serve, blockByWord_eq]
  rfl

/-- A request for a single token takes it, and a failure names it. -/
theorem serve_of_expected? {r : Reader} {request : Request} {expected : String}
    (h : request.expected? = some expected) :
    (r.serve request).2 = r.skipBreaks.next.2 ∧
      ∀ e, (r.serve request).1 = .error e → e = r.skipBreaks.next.1.unexpected expected := by
  have htake {α : Type} (accept : Token → Option α) (f : α → Response) :
      ((r.take expected accept).map (Except.map f) id).2 = r.skipBreaks.next.2 ∧
        ∀ e, ((r.take expected accept).map (Except.map f) id).1 = .error e →
          e = r.skipBreaks.next.1.unexpected expected := by
    rw [take_eq]
    refine ⟨rfl, fun e he => ?_⟩
    cases haccept : accept r.skipBreaks.next.1 with
    | some a =>
      rw [haccept] at he
      cases he
    | none =>
      rw [haccept] at he
      cases he
      rfl
  cases request <;> cases h <;> exact htake _ _

/-- No other request fails. -/
theorem serve_of_expected?_eq_none {r : Reader} {request : Request}
    (h : request.expected? = none) : ∃ response, (r.serve request).1 = .ok response := by
  cases request with
  | textLine => exact ⟨_, by rw [serve_textLine]⟩
  | textBlock => exact ⟨_, by rw [serve_textBlock]⟩
  | peek | advance | atEnd | skipBreaks => exact ⟨_, rfl⟩
  | expect | identifier | word | number => cases h

theorem serve_error {r : Reader} {request : Request} {e : ParseError}
    (h : (r.serve request).1 = .error e) :
    ∃ expected, request.expected? = some expected ∧
      e = r.skipBreaks.next.1.unexpected expected ∧
      (r.serve request).2 = r.skipBreaks.next.2 := by
  cases hexpected : request.expected? with
  | some expected =>
    obtain ⟨hlast, herror⟩ := serve_of_expected? (r := r) hexpected
    exact ⟨expected, rfl, herror e h, hlast⟩
  | none =>
    obtain ⟨response, hresponse⟩ := serve_of_expected?_eq_none (r := r) hexpected
    rw [h] at hresponse
    cases hresponse

theorem wide_skipBreaks (r : Reader) : r.skipBreaks.wide = r.wide := by
  fun_induction skipBreaks r with
  | case1 r count h ih => rw [ih, wide_next]
  | case2 r h => rfl

/-- A request keeps the mode, and goes down the text or nowhere. -/
theorem serve_keeps (r : Reader) (request : Request) :
    (r.serve request).2.wide = r.wide ∧ r.Reaches (r.serve request).2 := by
  have hskip := Limited.reaches_skipBreaks r
  cases hexpected : request.expected? with
  | some expected =>
    rw [(serve_of_expected? hexpected).1]
    exact ⟨r.wide_skipBreaks, hskip.trans (reaches_next _)⟩
  | none =>
    cases request with
    | peek | atEnd => exact ⟨rfl, .refl r⟩
    | advance => exact ⟨rfl, reaches_next r⟩
    | skipBreaks => exact ⟨r.wide_skipBreaks, hskip⟩
    | textLine =>
      rw [serve_textLine]
      exact ⟨r.wide_skipBreaks, Limited.reaches_textLine r⟩
    | textBlock =>
      rw [serve_textBlock]
      exact ⟨r.wide_skipBreaks, Limited.reaches_textBlock r⟩
    | expect | identifier | word | number => cases hexpected

/-! ## 4. A course of requests -/

/-- The reader behind the requests, whichever of them failed. -/
def after (r : Reader) : List Request → Reader
  | [] => r
  | request :: requests => (r.serve request).2.after requests

/-- What the requests give, one after the other. -/
def responses (r : Reader) : List Request → List (Except ParseError Response)
  | [] => []
  | request :: requests => (r.serve request).1 :: (r.serve request).2.responses requests

theorem after_append (r : Reader) (front back : List Request) :
    r.after (front ++ back) = (r.after front).after back := by
  induction front generalizing r with
  | nil => rfl
  | cons request front ih => exact ih _

theorem responses_append (r : Reader) (front back : List Request) :
    r.responses (front ++ back) = r.responses front ++ (r.after front).responses back := by
  induction front generalizing r with
  | nil => rfl
  | cons request front ih => exact congrArg (_ :: ·) (ih _)

/-- A course of requests keeps the mode and goes down the text. -/
theorem after_keeps (r : Reader) (requests : List Request) :
    (r.after requests).wide = r.wide ∧ r.Reaches (r.after requests) := by
  induction requests generalizing r with
  | nil => exact ⟨rfl, .refl r⟩
  | cons request requests ih =>
    obtain ⟨hwide, hreaches⟩ := r.serve_keeps request
    obtain ⟨hwide', hreaches'⟩ := ih (r.serve request).2
    exact ⟨hwide'.trans hwide, hreaches.trans hreaches'⟩

/-- The source ends where it ends, wherever the requests led. -/
theorem stop_after (source : String) (requests : List Request) :
    ((ofSource source).after requests).stop = source.utf8ByteSize := by
  obtain ⟨-, hreaches⟩ := (ofSource source).after_keeps requests
  rw [stop, ← hreaches.size_rest, utf8ByteSize_eq]
  exact Nat.zero_add _

/-- **What can be relied on behind each request.** On any source, let requests be made
before this one (`front`) and behind it (`back`), whatever comes of them. Then words are
read narrowly again. A text was given if one was asked for, and a line of text ends before
line breaks or the end of the file. If the request failed, it was one for a single token,
and its error is about the first token that is not line breaks: that token is taken, the
line breaks before it too, and no more. So all that follows is the same as if line breaks
had been passed over and one token taken, and that one is what the error is about. -/
theorem requests_in_order (source : String) (front : List Request) (request : Request)
    (back : List Request) :
    let start := ofSource source
    let r := start.after front
    let last := (r.serve request).2
    last.wide = false ∧
      (request = .textLine → (∃ text, (r.serve request).1 = .ok (.text text)) ∧
        (last.peek.isBreaks = true ∨ last.atEnd = true)) ∧
      (request = .textBlock → ∃ text, (r.serve request).1 = .ok (.text text)) ∧
      ∀ e, (r.serve request).1 = .error e →
        ∃ expected found, request.expected? = some expected ∧ e = found.unexpected expected ∧
          found = (r.tokens.dropWhile Token.isBreaks).headD ⟨.endOfFile, source.utf8ByteSize⟩ ∧
          last.tokens = (r.tokens.dropWhile Token.isBreaks).tail ∧
          last = start.after (front ++ [.skipBreaks, .advance]) ∧
          start.responses (front ++ request :: back) =
            start.responses front ++ .error e :: last.responses back ∧
          start.responses (front ++ .skipBreaks :: .advance :: back) =
            start.responses front ++ .ok .nothing :: .ok (.token found) :: last.responses back := by
  intro start r last
  have hwide : r.wide = false := (start.after_keeps front).1
  refine ⟨(r.serve_keeps request).1.trans hwide, ?_, ?_, ?_⟩
  · rintro rfl
    obtain ⟨htext, hlast⟩ := Prod.ext_iff.1 r.serve_textLine
    have hlast : last = r.textLine.2 := hlast
    exact ⟨⟨_, htext⟩, hlast ▸ r.peek_textLine⟩
  · rintro rfl
    obtain ⟨htext, -⟩ := Prod.ext_iff.1 r.serve_textBlock
    exact ⟨_, htext⟩
  · intro e he
    obtain ⟨expected, hexpected, herror, hlast⟩ := serve_error he
    have hstop : r.stop = source.utf8ByteSize := stop_after source front
    refine ⟨expected, r.skipBreaks.next.1, hexpected, herror, ?_, ?_, ?_, ?_, ?_⟩
    · rw [next_fst, tokens_skipBreaks, stop_skipBreaks, hstop]
    · show (r.serve request).2.tokens = _
      rw [hlast, tokens_next, tokens_skipBreaks]
    · rw [after_append]
      exact hlast
    · rw [responses_append, responses, he]
    · rw [responses_append]
      show start.responses front ++ .ok .nothing ::
        .ok (.token r.skipBreaks.next.1) :: r.skipBreaks.next.2.responses back = _
      rw [← hlast]

/-- Behind a title, a number is asked for where an identifier stands. -/
theorem requests_in_order_lost_key :
    ((ofSource "The Lost Key\n\nqst : Keep").after [.textLine, .number]).wide = false ∧
      (ofSource "The Lost Key\n\nqst : Keep").responses
          ([.textLine] ++ .number :: [.expect ":", .word]) =
        [.ok (.text "The Lost Key"), .error ⟨.unexpectedToken "a number" "identifier 'qst'", 14⟩,
          .ok .nothing, .ok (.text "Keep")] ∧
      (ofSource "The Lost Key\n\nqst : Keep").responses
          ([.textLine] ++ .skipBreaks :: .advance :: [.expect ":", .word]) =
        [.ok (.text "The Lost Key"), .ok .nothing, .ok (.token ⟨.identifier "qst", 14⟩),
          .ok .nothing, .ok (.text "Keep")] := by
  obtain ⟨hnarrow, -, -, hfailure⟩ := requests_in_order "The Lost Key\n\nqst : Keep"
    [.textLine] .number [.expect ":", .word]
  obtain ⟨expected, found, -, -, hfound, -, -, hresponses, hinstead⟩ :=
    hfailure ⟨.unexpectedToken "a number" "identifier 'qst'", 14⟩ (by cbv)
  refine ⟨hnarrow, ?_, ?_⟩
  · rw [hresponses]
    cbv
  · rw [hinstead, hfound]
    cbv

end Reader

end Questbook
