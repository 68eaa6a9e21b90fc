/-
Questbook.Proofs.Loops.Ends — every loop of the grammar is left in time.

For each loop it is shown what one round of it does: it takes what the loop was entered
for, so it goes on further down the text, or it ends the loop (`round_fits`). This is where
a token could be looked at and taken by nobody, and the loop would turn on the spot. It
does not happen because whatever a round looks for is what it then takes
(`identifier_of_next`, `word_of_next`): the look and the taking read the same token, since
no line break stands between them and the way of reading is the same.

The rest is counting. A loop inside a round is no exception, because it is entered further
down the text or at the same place, with no more text in front of it than the limit allows.
-/
import Questbook.Proofs.Loops.Parser
import Questbook.Proofs.Reader.Coverage
import Questbook.Proofs.Reader.Tokens

namespace Questbook

open Text Reader

/-- No line break stands behind commands. -/
theorem Reader.skipBreaks_commands {r : Reader} (h : r.skipBreaks = r) :
    r.commands.2.skipBreaks = r.commands.2 := by
  fun_induction Reader.commands r with
  | case1 r command last hcommand others last' heq ih =>
    rw [heq] at ih
    refine ih ?_
    unfold command? at hcommand
    split at hcommand
    · split at hcommand
      · cases hcommand
      · cases hcommand
        exact skipBreaks_skipBreaks _
    · cases hcommand
  | case2 r hno => exact h

namespace Limited

variable {limit : Nat} {r : Reader}

/-! ## 1. Line breaks and single tokens -/

theorem breaksRound_fits (carried : Unit) (r : Reader) :
    ∃ out, breaksRound carried r = .of out ∧ Round.Fits Loop.breaks.outcome carried r out := by
  unfold breaksRound Reader.peek
  cases hlexeme : r.next.1.lexeme with
  | lineBreaks count =>
    refine ⟨_, rfl, .again ?_ (passes_next (by simp [hlexeme]))⟩
    simp only [Loop.outcome, skipBreaks_of_lineBreaks hlexeme]
  | _ =>
    refine ⟨_, rfl, .leave ?_ (.refl r)⟩
    simp only [Loop.outcome, skipBreaks_of_ne_lineBreaks (r := r) (by simp [hlexeme])]

theorem breaks_eq (h : size r.rest < limit) : breaks limit r = .of (.ok ((), r.skipBreaks)) :=
  (Round.loop_eq (fun carried r _ => breaksRound_fits carried r) h h).1

theorem reaches_skipBreaks (r : Reader) : r.Reaches r.skipBreaks :=
  Round.reaches_of_fits (fun _ carried r _ => breaksRound_fits carried r) (s := ()) rfl

section Take

variable {α : Type} {expected : String} {accept : Token → Option α}

theorem take_eq (h : size r.rest < limit) :
    take limit expected accept r = .of (onward (r.take expected accept)) := by
  rw [take, breaks_eq h, onward_take]
  simp only [Bounded.of_ok_bind]
  cases accept r.skipBreaks.next.1 <;> rfl

theorem reaches_take {a : α} {last : Reader} (h : onward (r.take expected accept) = .ok (a, last)) :
    r.Reaches last := by
  rw [onward_take] at h
  split at h
  · cases h
    exact (reaches_skipBreaks r).trans (reaches_next _)
  · cases h

/-- What is taken and cannot be the end of the file is passed. -/
theorem passes_take {a : α} {last : Reader}
    (haccept : ∀ offset, accept ⟨.endOfFile, offset⟩ = none)
    (h : onward (r.take expected accept) = .ok (a, last)) : r.Passes last := by
  rw [onward_take] at h
  split at h
  · next a' ha' =>
    cases h
    refine (reaches_skipBreaks r).passes (passes_next fun hend => ?_)
    have hnone := haccept r.skipBreaks.next.1.offset
    rw [← hend] at hnone
    exact absurd (ha'.symm.trans hnone) (by simp)
  · cases h

/-- What was looked at is taken. -/
theorem take_of_next {a : α} (h : size r.rest < limit) (haccept : accept r.next.1 = some a)
    (hbreaks : ∀ count, r.next.1.lexeme ≠ .lineBreaks count) :
    take limit expected accept r = .of (.ok (a, r.next.2)) := by
  rw [take_eq h, onward_take, skipBreaks_of_ne_lineBreaks hbreaks, haccept]

end Take

theorem mark_eq (h : size r.rest < limit) : mark limit r = .of (onward (r.expect scope)) :=
  take_eq h

theorem identifier_eq (h : size r.rest < limit) :
    identifier limit r = .of (onward r.identifier) :=
  take_eq h

theorem number_eq (h : size r.rest < limit) : number limit r = .of (onward r.number) :=
  take_eq h

theorem identifier_of_next {name : String} (h : size r.rest < limit)
    (hname : r.next.1.lexeme = .identifier name) :
    identifier limit r = .of (.ok (⟨name, r.next.1.offset⟩, r.next.2)) :=
  take_of_next h (by simp [hname, Lexeme.identifier?]) (by simp [hname])

theorem word_of_next {text : String} (h : size r.rest < limit)
    (hword : r.next.1.lexeme.word? = some text) :
    word limit r = .of (.ok (text, r.next.2)) :=
  take_of_next h hword fun count hcount => by simp [hcount, Lexeme.word?] at hword

theorem ne_endOfFile_of_word? {lexeme : Lexeme} {text : String} (h : lexeme.word? = some text) :
    lexeme ≠ .endOfFile := by
  rintro rfl
  cases h

/-! ## 2. Text -/

theorem wordsRound_fits (front : List String) {r : Reader} (h : size r.rest < limit) :
    ∃ out, wordsRound limit front r = .of out ∧ Round.Fits Loop.words.outcome front r out := by
  unfold wordsRound Reader.peek
  cases hword : r.next.1.lexeme.word? with
  | some text =>
    simp only [Option.isSome_some, if_true, word_of_next h hword]
    refine ⟨_, rfl, .again ?_ (passes_next (ne_endOfFile_of_word? hword))⟩
    simp [Loop.outcome, words_of_word? hword]
  | none =>
    refine ⟨_, rfl, .leave ?_ (.refl r)⟩
    simp [Loop.outcome, words_of_word?_eq_none hword]

theorem words_eq (h : size r.rest < limit) : words limit r = .of (.ok r.words) := by
  have hloop := (Round.loop_eq (fun front _ => wordsRound_fits front) h h (s := [])).1
  exact hloop.trans (by simp [Loop.outcome])

theorem reaches_words (r : Reader) : r.Reaches r.words.2 :=
  Round.reaches_of_fits (fun _ front _ => wordsRound_fits front) (s := []) rfl

theorem linesRound_fits (carried : String × Nat) {r : Reader} (h : size r.rest < limit) :
    ∃ out, linesRound limit carried r = .of out ∧
      Round.Fits Loop.lines.outcome carried r out := by
  obtain ⟨front, pending⟩ := carried
  have hword {text : String} (hword : r.next.1.lexeme.word? = some text) :
      ∃ out, (word limit r >>= fun read => (return .again (front ++
          (String.ofList (List.replicate pending '\n') ++ read.1), 0) read.2 :
            Bounded (Round (String × Nat) String))) = .of out ∧
        Round.Fits Loop.lines.outcome (front, pending) r out := by
    rw [word_of_next h hword]
    refine ⟨_, rfl, .again ?_ (passes_next (ne_endOfFile_of_word? hword))⟩
    simp [Loop.outcome, blockLines_of_word? hword, String.append_assoc]
  unfold linesRound Reader.peek
  cases hlexeme : r.next.1.lexeme with
  | endOfFile =>
    refine ⟨_, rfl, .leave ?_ (.refl r)⟩
    simp [Loop.outcome, blockLines_of_endOfFile hlexeme]
  | lineBreaks count =>
    have hpasses := passes_next (r := r) (by simp [hlexeme])
    cases hblank : (Lexeme.lineBreaks count).isBlankLine with
    | true =>
      simp only [hblank, if_true]
      refine ⟨_, rfl, .leave ?_ hpasses.reaches⟩
      simp [Loop.outcome, blockLines_of_isBlankLine (hlexeme ▸ hblank)]
    | false =>
      simp only [hblank]
      refine ⟨_, rfl, .again ?_ hpasses⟩
      have hcount : count < 2 := by simpa [Lexeme.isBlankLine] using hblank
      simp [Loop.outcome, blockLines_of_lineBreak hlexeme hcount]
  | identifier text => exact hword (by rw [hlexeme]; rfl)
  | integer value => exact hword (by rw [hlexeme]; rfl)

theorem lines_eq (h : size r.rest < limit) :
    Round.loop (linesRound limit) limit ("", 0) r = .of (.ok (r.blockLines 0)) := by
  have hloop := (Round.loop_eq (fun carried _ => linesRound_fits carried) h h (s := ("", 0))).1
  exact hloop.trans (by simp [Loop.outcome])

theorem reaches_blockLines (r : Reader) : r.Reaches (r.blockLines 0).2 :=
  Round.reaches_of_fits (fun _ carried _ => linesRound_fits carried) (s := ("", 0)) rfl

theorem textLine_eq (h : size r.rest < limit) : textLine limit r = .of (.ok r.textLine) := by
  have hskip := (reaches_skipBreaks r).size_rest_lt h
  rw [textLine, breaks_eq h, Bounded.of_ok_bind]
  simp only [widely, words_eq (r := { r.skipBreaks with wide := true }) hskip]
  rfl

theorem reaches_textLine (r : Reader) : r.Reaches r.textLine.2 :=
  (reaches_skipBreaks r).trans (reaches_words { r.skipBreaks with wide := true })

theorem textBlock_eq (h : size r.rest < limit) : textBlock limit r = .of (.ok r.textBlock) := by
  have hskip := (reaches_skipBreaks r).size_rest_lt h
  rw [textBlock, breaks_eq h, Bounded.of_ok_bind]
  simp only [widely, lines_eq (r := { r.skipBreaks with wide := true }) hskip]
  rfl

theorem reaches_textBlock (r : Reader) : r.Reaches r.textBlock.2 :=
  (reaches_skipBreaks r).trans (reaches_blockLines { r.skipBreaks with wide := true })

/-! ## 3. Lists of items -/

section Item

variable {α : Type} {item : Reader → Except ParseError (Option (α × Reader))}
  {shorter : ∀ {r a last}, item r = .ok (some (a, last)) → last.rest.length < r.rest.length}

/-- A round of a list: an item is added, if one stands next. -/
def itemRound (item : Reader → Except ParseError (Option (α × Reader))) (front : List α)
    (r : Reader) : Except ParseError (Round (List α) (List α)) :=
  (item r).map fun found =>
    match found with
    | some (a, last) => .again (front ++ [a]) last
    | none => .leave front r

theorem itemRound_fits (front : List α) {r : Reader}
    (hpasses : ∀ a last, item r = .ok (some (a, last)) → r.Passes last) :
    Round.Fits (fun front r => (r.list item shorter).ending.map fun last =>
      (front ++ (r.list item shorter).items, last)) front r (itemRound item front r) := by
  unfold itemRound
  cases hitem : item r with
  | error e =>
    refine .fail ?_
    rw [list_of_error hitem]
    rfl
  | ok found =>
    cases found with
    | none =>
      refine .leave ?_ (.refl r)
      rw [list_of_none hitem]
      simp [Except.map]
    | some found =>
      refine .again ?_ (hpasses _ _ hitem)
      simp only [list_of_some hitem, List.append_assoc, List.singleton_append]

end Item

/-! ## 4. The task table -/

theorem commandsRound_fits (front : List Command) {r : Reader} (h : size r.rest < limit) :
    ∃ out, commandsRound limit front r = .of out ∧
      Round.Fits Loop.commands.outcome front r out := by
  have hleave (hnone : r.command? = none) :
      Round.Fits Loop.commands.outcome front r (.ok (.leave front r)) :=
    .leave (by simp [Loop.outcome, commands_of_none hnone]) (.refl r)
  unfold commandsRound Reader.peek
  cases hlexeme : r.next.1.lexeme with
  | identifier name =>
    cases hkind : (blockKind? name).isSome with
    | true =>
      simp only [hkind, if_true]
      exact ⟨_, rfl, hleave (by simp [command?, hlexeme, hkind])⟩
    | false =>
      have hpasses := passes_next (r := r) (by simp [hlexeme])
      have hnext := hpasses.reaches.size_rest_lt h
      have hwords := (reaches_words r.next.2).size_rest_lt hnext
      have hcommand : r.command? = some (⟨fold name, r.next.2.words.1⟩,
          r.next.2.words.2.skipBreaks) := by
        simp [command?, hlexeme, hkind]
      simp only [hkind, identifier_of_next h hlexeme, Bounded.of_ok_bind, words_eq hnext,
        breaks_eq hwords]
      refine ⟨_, rfl, .again ?_ (hpasses.trans ((reaches_words _).trans (reaches_skipBreaks _)))⟩
      simp [Loop.outcome, commands_of_some hcommand]
  | _ => exact ⟨_, rfl, hleave (by simp [command?, hlexeme])⟩

theorem commands_eq (h : size r.rest < limit) :
    commands limit r = .of (.ok r.skipBreaks.commands) := by
  have hskip := (reaches_skipBreaks r).size_rest_lt h
  have hloop :=
    (Round.loop_eq (fun front _ => commandsRound_fits front) hskip hskip (s := [])).1
  rw [commands, breaks_eq h]
  exact hloop.trans (by simp [Loop.outcome])

theorem reaches_commands (r : Reader) : r.Reaches r.commands.2 :=
  Round.reaches_of_fits (fun _ front _ => commandsRound_fits front) (s := []) rfl

/-- What stands behind the keyword of a block is read as the grammar reads it. -/
theorem block_eq (isEvent : Bool) (h : size r.rest < limit) :
    block limit isEvent r = .of (r.block isEvent) ∧
      ∀ task last, r.block isEvent = .ok (task, last) → r.Reaches last := by
  rw [block, Reader.block, identifier_eq h]
  cases hidentifier : onward r.identifier with
  | error e => exact ⟨rfl, by simp [bind, Except.bind]⟩
  | ok name =>
    have hreaches := reaches_take hidentifier
    rw [Bounded.of_ok_bind, Bounded.ok_bind]
    simp only [mark_eq (hreaches.size_rest_lt h)]
    cases hscope : onward (name.2.expect scope) with
    | error e => exact ⟨rfl, by simp [bind, Except.bind]⟩
    | ok marked =>
      have hreaches' := hreaches.trans (reaches_take hscope)
      have hlt := hreaches'.size_rest_lt h
      have hcommands := (reaches_skipBreaks marked.2).trans (reaches_commands _)
      rw [Bounded.of_ok_bind, Bounded.ok_bind]
      simp only [Bounded.of_ok_bind, commands_eq hlt, breaks_eq (hcommands.size_rest_lt hlt),
        skipBreaks_commands (skipBreaks_skipBreaks _)]
      refine ⟨rfl, ?_⟩
      rintro task last ⟨⟩
      exact hreaches'.trans hcommands

/-- A round over blocks is a round of the list of blocks. -/
theorem blocksRound_eq (front : List Task) {r : Reader} (h : size r.rest < limit) :
    blocksRound limit front r = .of (itemRound block? front r) ∧
      ∀ task last, r.block? = .ok (some (task, last)) → r.Passes last := by
  unfold blocksRound itemRound Reader.peek Reader.block?
  cases hlexeme : r.next.1.lexeme with
  | identifier keyword =>
    have hpasses := passes_next (r := r) (by simp [hlexeme])
    simp only [identifier_of_next h hlexeme, Bounded.of_ok_bind]
    cases blockKind? keyword with
    | none => exact ⟨rfl, by simp⟩
    | some isEvent =>
      obtain ⟨hblock, hreaches⟩ := block_eq isEvent (hpasses.reaches.size_rest_lt h)
      simp only [hblock]
      cases hfound : r.next.2.block isEvent with
      | error e => exact ⟨rfl, by simp [Except.map]⟩
      | ok found =>
        refine ⟨rfl, ?_⟩
        rintro task last ⟨⟩
        exact hpasses.trans (hreaches _ _ hfound)
  | _ => exact ⟨rfl, by simp⟩

theorem blocksRound_fits (front : List Task) {r : Reader} (h : size r.rest < limit) :
    ∃ out, blocksRound limit front r = .of out ∧ Round.Fits Loop.blocks.outcome front r out :=
  ⟨_, (blocksRound_eq front h).1, itemRound_fits front (blocksRound_eq front h).2⟩

/-- The task table is read as the grammar reads it. -/
theorem stages_eq (h : size r.rest < limit) :
    stages limit r = .of (r.skipBreaks.commands.2.blocks.ending.map fun last =>
        (.stages r.skipBreaks.commands.1 r.skipBreaks.commands.2.blocks.items, last)) ∧
      ∀ last, r.skipBreaks.commands.2.blocks.ending = .ok last → r.Reaches last := by
  have hcommands := (reaches_skipBreaks r).trans (reaches_commands _)
  have hlt := hcommands.size_rest_lt h
  obtain ⟨hloop, hreaches⟩ :=
    Round.loop_eq (fun front _ => blocksRound_fits front) hlt hlt (s := [])
  rw [stages, commands_eq h, Bounded.of_ok_bind]
  simp only [Bounded.of_ok_bind, breaks_eq hlt, skipBreaks_commands (skipBreaks_skipBreaks _),
    hloop]
  simp only [Loop.outcome] at hreaches ⊢
  cases hblocks : r.skipBreaks.commands.2.blocks.ending with
  | error e => exact ⟨rfl, by simp⟩
  | ok last =>
    refine ⟨rfl, ?_⟩
    rintro _ ⟨⟩
    exact hcommands.trans (hreaches _ last (by rw [hblocks]; rfl))

/-! ## 5. The resource table -/

/-- What stands behind the word for a kind is read as the grammar reads it. -/
theorem resource_eq (kind : ResourceKind) (h : size r.rest < limit) :
    resource limit kind r = .of (r.resource kind) ∧
      ∀ entry last, r.resource kind = .ok (entry, last) → r.Reaches last := by
  rw [resource, Reader.resource, mark_eq h]
  cases hscope : onward (r.expect scope) with
  | error e => exact ⟨rfl, by simp [bind, Except.bind]⟩
  | ok marked =>
    have hreaches := reaches_take hscope
    rw [Bounded.of_ok_bind, Bounded.ok_bind]
    simp only [number_eq (hreaches.size_rest_lt h)]
    cases hid : onward marked.2.number with
    | error e => exact ⟨rfl, by simp [bind, Except.bind]⟩
    | ok id =>
      have hreaches' := hreaches.trans (reaches_take hid)
      have hlt := hreaches'.size_rest_lt h
      have hblock := reaches_textBlock id.2
      rw [Bounded.of_ok_bind, Bounded.ok_bind]
      simp only [Bounded.of_ok_bind, textBlock_eq hlt, breaks_eq (hblock.size_rest_lt hlt)]
      refine ⟨rfl, ?_⟩
      rintro entry last ⟨⟩
      exact hreaches'.trans (hblock.trans (reaches_skipBreaks _))

/-- A round over entries is a round of the list of entries. -/
theorem entriesRound_eq (front : List (Int64 × Resource)) {r : Reader} (h : size r.rest < limit) :
    entriesRound limit front r = .of (itemRound resource? front r) ∧
      ∀ entry last, r.resource? = .ok (some (entry, last)) → r.Passes last := by
  unfold entriesRound itemRound Reader.peek Reader.resource?
  cases hlexeme : r.next.1.lexeme with
  | identifier keyword =>
    have hpasses := passes_next (r := r) (by simp [hlexeme])
    simp only
    cases ResourceKind.ofKeyword? keyword with
    | none => exact ⟨rfl, by simp⟩
    | some kind =>
      obtain ⟨hresource, hreaches⟩ := resource_eq kind (hpasses.reaches.size_rest_lt h)
      simp only [hresource]
      cases hfound : r.next.2.resource kind with
      | error e => exact ⟨rfl, by simp [Except.map]⟩
      | ok found =>
        refine ⟨rfl, ?_⟩
        rintro entry last ⟨⟩
        exact hpasses.trans (hreaches _ _ hfound)
  | _ => exact ⟨rfl, by simp⟩

theorem entriesRound_fits (front : List (Int64 × Resource)) {r : Reader}
    (h : size r.rest < limit) :
    ∃ out, entriesRound limit front r = .of out ∧ Round.Fits Loop.entries.outcome front r out :=
  ⟨_, (entriesRound_eq front h).1, itemRound_fits front (entriesRound_eq front h).2⟩

/-- The resource table is read as the grammar reads it. -/
theorem resources_eq (h : size r.rest < limit) :
    resources limit r = .of (r.skipBreaks.resources.ending.map fun last =>
        (.resources r.skipBreaks.resources.items, last)) ∧
      ∀ last, r.skipBreaks.resources.ending = .ok last → r.Reaches last := by
  have hskip := reaches_skipBreaks r
  have hlt := hskip.size_rest_lt h
  obtain ⟨hloop, hreaches⟩ :=
    Round.loop_eq (fun front _ => entriesRound_fits front) hlt hlt (s := [])
  rw [resources, breaks_eq h, Bounded.of_ok_bind]
  simp only [hloop]
  simp only [Loop.outcome] at hreaches ⊢
  cases hentries : r.skipBreaks.resources.ending with
  | error e => exact ⟨rfl, by simp⟩
  | ok last =>
    refine ⟨rfl, ?_⟩
    rintro _ ⟨⟩
    exact hskip.trans (hreaches _ last (by rw [hentries]; rfl))

/-! ## 6. Directives -/

/-- What stands behind a heading is read as the grammar reads it. -/
theorem body_eq (heading : Identifier) (h : size r.rest < limit) :
    (∃ d last, body limit heading r = .of (.ok (d, last)) ∧ r.body heading = ⟨[d], .ok last⟩ ∧
      r.Reaches last) ∨
    ∃ e, body limit heading r = .of (.error e) ∧ (r.body heading).ending = .error e := by
  by_cases htitle : fold heading.text = "title"
  · simp only [body, Reader.body, htitle, textLine_eq h]
    exact .inl ⟨_, _, rfl, rfl, reaches_textLine r⟩
  by_cases hbriefing : fold heading.text = "briefing"
  · simp only [body, Reader.body, hbriefing, textBlock_eq h]
    exact .inl ⟨_, _, rfl, rfl, reaches_textBlock r⟩
  by_cases hqrc : fold heading.text = "qrc"
  · obtain ⟨hresources, hreaches⟩ := resources_eq h
    simp only [body, Reader.body, hqrc, hresources]
    cases hending : r.skipBreaks.resources.ending with
    | error e => exact .inr ⟨e, rfl, rfl⟩
    | ok last => exact .inl ⟨_, last, rfl, rfl, hreaches last hending⟩
  by_cases hqst : fold heading.text = "qst"
  · obtain ⟨hstages, hreaches⟩ := stages_eq h
    simp only [body, Reader.body, hqst, hstages]
    cases hending : r.skipBreaks.commands.2.blocks.ending with
    | error e => exact .inr ⟨e, rfl, rfl⟩
    | ok last => exact .inl ⟨_, last, rfl, rfl, hreaches last hending⟩
  · simp only [body, Reader.body]
    exact .inr ⟨_, rfl, rfl⟩

theorem outcome_of_error {e : ParseError} (q : Quest) (hend : r.skipBreaks.atEnd = false)
    (herror : r.skipBreaks.directive.ending = .error e) :
    Loop.directives.outcome q r = .error e := by
  simp only [Loop.outcome, directives_of_error hend herror]
  rfl

theorem outcome_of_ok {d : Directive} {last : Reader} (q : Quest)
    (hend : r.skipBreaks.atEnd = false) (hdirective : r.skipBreaks.directive = ⟨[d], .ok last⟩) :
    Loop.directives.outcome q r = Loop.directives.outcome (d.applyTo q) last := by
  simp only [Loop.outcome, directives_of_ok hend (by rw [hdirective]), hdirective]
  rfl

theorem directivesRound_fits (q : Quest) {r : Reader} (h : size r.rest < limit) :
    ∃ out, directivesRound limit q r = .of out ∧ Round.Fits Loop.directives.outcome q r out := by
  have hskip := reaches_skipBreaks r
  have hlt := hskip.size_rest_lt h
  rw [directivesRound, breaks_eq h, Bounded.of_ok_bind]
  cases hend : r.skipBreaks.atEnd with
  | true =>
    simp only [hend, if_true]
    refine ⟨_, rfl, .leave ?_ hskip⟩
    simp only [Loop.outcome, directives_of_atEnd hend]
    rfl
  | false =>
    simp only [hend, identifier_eq hlt]
    cases hword : onward r.skipBreaks.identifier with
    | error e => exact ⟨_, rfl, .fail (outcome_of_error q hend (by rw [directive, hword]))⟩
    | ok found =>
      obtain ⟨word, behind⟩ := found
      have hpasses := hskip.passes (passes_take (fun _ => rfl) hword)
      have hlt' := hpasses.reaches.size_rest_lt h
      simp only [Bounded.of_ok_bind, mark_eq hlt']
      -- A flag is a directive by itself; any other word is a heading with a body.
      by_cases hplus : word.text.toList.head? = some '+'
      · simp only [hplus, if_true]
        refine ⟨_, rfl, .again (outcome_of_ok q hend ?_) hpasses⟩
        rw [directive, hword]
        simp only [hplus, if_true]
      · simp only [hplus, if_false]
        cases hscope : onward (behind.expect scope) with
        | error e =>
          refine ⟨_, rfl, .fail (outcome_of_error q hend ?_)⟩
          rw [directive, hword]
          simp only [hplus, if_false, hscope]
        | ok marked =>
          have hreaches := reaches_take hscope
          have hdirective : r.skipBreaks.directive = marked.2.body word := by
            rw [directive, hword]
            simp only [hplus, if_false, hscope]
          simp only [Bounded.of_ok_bind]
          obtain ⟨d, last, hbody, hread, hreaches'⟩ | ⟨e, hbody, herror⟩ :=
            body_eq word (hreaches.size_rest_lt hlt')
          · rw [hbody]
            exact ⟨_, rfl, .again (outcome_of_ok q hend (hdirective.trans hread))
              (hpasses.trans (hreaches.trans hreaches'))⟩
          · rw [hbody]
            exact ⟨_, rfl, .fail (outcome_of_error q hend (by rw [hdirective, herror]))⟩

/-! ## 7. The parser -/

/-- Every round of every loop fits. -/
theorem round_fits {σ α : Type} (loop : Loop σ α) (s : σ) {r : Reader} (h : size r.rest < limit) :
    ∃ out, loop.round limit s r = .of out ∧ Round.Fits loop.outcome s r out := by
  cases loop with
  | breaks => exact breaksRound_fits s r
  | words => exact wordsRound_fits s h
  | lines => exact linesRound_fits s h
  | commands => exact commandsRound_fits s h
  | blocks => exact blocksRound_fits s h
  | entries => exact entriesRound_fits s h
  | directives => exact directivesRound_fits s h

/-- Every loop has its outcome. -/
theorem run_eq {σ α : Type} (loop : Loop σ α) (s : σ) {r : Reader} (h : size r.rest < limit) :
    loop.run limit s r = .of (loop.outcome s r) ∧
      ∀ result last, loop.outcome s r = .ok (result, last) → r.Reaches last :=
  Round.loop_eq (fun s _ => round_fits loop s) h h

/-- Directives end at the end of the file. -/
theorem endOfFile_of_directives {last : Reader} (h : r.directives.ending = .ok last) :
    last.next.1.lexeme = .endOfFile := by
  fun_induction directives r with
  | case1 r hend =>
    cases h
    simpa [atEnd, Reader.peek] using hend
  | case2 r hend e herror => cases h
  | case3 r hend last' hlast others ih => exact ih h

/-- **The parser ends.** Let every loop take no more rounds than the source has bytes, and
one. Then each loop, entered anywhere in the source with anything carried, is left in time
and gives what the grammar gives there. Each round of it comes to something; and a round
after which the loop goes on has moved forward, to a place in the source that is not
behind its end. So the parser with this limit makes of every source the quest or the error
that the grammar makes of it. Where that is a quest, the last place is behind all tokens:
only blanks and comments are left, and the next token is the end of the file. -/
theorem parser_ends (source : String) :
    (∀ {σ α : Type} (loop : Loop σ α) (s : σ) (r : Reader), r.Within source.toList →
      loop.run (source.utf8ByteSize + 1) s r = .of (loop.outcome s r) ∧
      (∃ out, loop.round (source.utf8ByteSize + 1) s r = .of out) ∧
      ∀ s' r', loop.round (source.utf8ByteSize + 1) s r = .of (.ok (.again s' r')) →
        r.offset < r'.offset ∧ r'.offset ≤ source.utf8ByteSize ∧ r'.Within source.toList) ∧
    parse (source.utf8ByteSize + 1) source = .of (Quest.parse source) ∧
    ∀ q, Quest.parse source = .ok q → ∃ last,
      Loop.directives.run (source.utf8ByteSize + 1) {} (.ofSource source) = .of (.ok (q, last)) ∧
      last.Within source.toList ∧ last.next.1 = ⟨.endOfFile, source.utf8ByteSize⟩ ∧
      IsGap true last.rest := by
  have hlt {r : Reader} (hr : r.Within source.toList) :
      size r.rest < source.utf8ByteSize + 1 := by
    have hsize := hr.offset_add_size_rest
    omega
  have hstart : (ofSource source).Within source.toList := ⟨[], rfl, rfl⟩
  obtain ⟨hrun, hreaches⟩ := run_eq Loop.directives {} (hlt hstart)
  refine ⟨fun loop s r hr => ⟨(run_eq loop s (hlt hr)).1, ?_, ?_⟩, ?_, ?_⟩
  · obtain ⟨out, hout, -⟩ := round_fits loop s (hlt hr)
    exact ⟨out, hout⟩
  · intro s' r' hround
    obtain ⟨out, hout, hfits⟩ := round_fits loop s (hlt hr)
    cases Bounded.of_inj (hround.symm.trans hout)
    cases hfits with
    | again hsame hpasses =>
      have hwithin := hpasses.reaches.within hr
      have hsize := hwithin.offset_add_size_rest
      exact ⟨hpasses.lt, by omega, hwithin⟩
  · rw [parse, hrun, Quest.parse_eq]
    simp only [Loop.outcome, Run.quest]
    cases (ofSource source).directives.ending <;> rfl
  · intro q hq
    rw [Quest.parse_eq, Run.quest] at hq
    cases hending : (ofSource source).directives.ending with
    | error e => simp [hending, Except.map] at hq
    | ok last =>
      have houtcome : Loop.directives.outcome {} (ofSource source) = .ok (q, last) := by
        rw [hending] at hq
        cases hq
        simp only [Loop.outcome, hending]
        rfl
      have hwithin := (hreaches _ _ houtcome).within hstart
      have hend := endOfFile_of_directives hending
      have hstop : last.stop = source.utf8ByteSize := hwithin.offset_add_size_rest
      exact ⟨last, by rw [hrun, houtcome], hwithin, by rw [next_of_endOfFile hend, hstop],
        isGap_of_endOfFile hend⟩

/-- A title and one command. The loop over directives takes three rounds. -/
def bell : String :=
  "title : a b\n\nqst :\n say (a b) 7\n"

theorem parser_ends_bell :
    parse 2 bell = ExceptT.mk none ∧
    Quest.parse bell = .ok { title := "a b", tasks := [.entryPoint [⟨"say", ["(a b)", "7"]⟩]] } ∧
    (∃ last, (ofSource bell).Reaches last ∧ last.next.1 = ⟨.endOfFile, 32⟩) ∧
    (⟨" 7\n".toList, 29, false⟩ : Reader).Within bell.toList := by
  have hsize : bell.utf8ByteSize = 32 := by
    rw [utf8ByteSize_eq]
    decide
  obtain ⟨hloops, hparse, hend⟩ := parser_ends bell
  rw [hsize] at hloops hparse hend
  have hquest : Quest.parse bell =
      .ok { title := "a b", tasks := [.entryPoint [⟨"say", ["(a b)", "7"]⟩]] } :=
    Bounded.of_inj (hparse.symm.trans (by rfl))
  -- The reader stands behind the name of the command.
  have hsay := hloops .words [] ⟨" (a b) 7\n".toList, 23, false⟩
    ⟨"title : a b\n\nqst :\n say".toList, by decide, by decide⟩
  obtain ⟨last, -, hwithin, hnext, -⟩ := hend _ hquest
  refine ⟨by rfl, hquest, ⟨last, ?_, hnext⟩, (hsay.2.2 ["(a b)"] _ (by rfl)).2.2⟩
  obtain ⟨front, hsource, hoffset⟩ := hwithin
  exact ⟨front, hsource, by rw [hoffset]; exact (Nat.zero_add _).symm⟩

end Limited

end Questbook
