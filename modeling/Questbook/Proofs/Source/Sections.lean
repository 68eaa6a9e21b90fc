/-
Questbook.Proofs.Source.Sections — a printed section is read back.

A section is read as far as its last word, and what stands behind it begins the
next one. Two things have to be known of that next one: it begins with no
newline, or the blank line before it would be read as a longer one, and the word
it begins with is no kind of resource, or a resource table would go on with it.
`Begins` says which word a text begins with.
-/
import Questbook.Proofs.Source.Lines
import Questbook.Proofs.Source.Print

namespace Questbook

open Text Reader

/-! ## 1. What follows a section -/

/-- The text begins with this word and with nothing in front of it. -/
structure Begins (word : String) (cs : List Char) : Prop where
  endsBreaks : EndsBreaks cs
  lexeme_next : ∀ offset, (⟨cs, offset, false⟩ : Reader).next.1.lexeme = .identifier word

theorem Begins.skipBreaks {word : String} {cs : List Char} (h : Begins word cs) (offset : Nat) :
    (⟨cs, offset, false⟩ : Reader).skipBreaks = ⟨cs, offset, false⟩ :=
  (skipBreaks_of_identifier (h.lexeme_next offset)).1

/-- One newline is passed over. -/
theorem skipBreaks_newline {cs : List Char} (h : EndsBreaks cs) (offset : Nat) (wide : Bool) :
    (⟨'\n' :: cs, offset, wide⟩ : Reader).skipBreaks =
      (⟨cs, offset + 1, wide⟩ : Reader).skipBreaks := by
  have hnext : (⟨'\n' :: cs, offset, wide⟩ : Reader).next =
      (⟨.lineBreaks 1, offset⟩, ⟨cs, offset + 1, wide⟩) := readsAs_lineBreaks wide 0 h offset
  have hbreak : (⟨'\n' :: cs, offset, wide⟩ : Reader).next.1.lexeme = .lineBreaks 1 := by rw [hnext]
  rw [skipBreaks_of_lineBreaks hbreak, hnext]

/-- The directives behind the end of a line. -/
theorem directives_newline {cs : List Char} (h : EndsBreaks cs) (offset : Nat) :
    (⟨'\n' :: cs, offset, false⟩ : Reader).directives =
      (⟨cs, offset + 1, false⟩ : Reader).directives :=
  directives_congr (skipBreaks_newline h offset false)

/-! ## 2. Text for the player -/

/-- A block of text in a line of its own. -/
theorem textBlock_newline {text cs : List Char} (h : IsText text) (hcs : EndsBreaks cs)
    (offset : Nat) :
    (⟨'\n' :: (text ++ '\n' :: '\n' :: cs), offset, false⟩ : Reader).textBlock =
      (String.ofList text, ⟨cs, offset + size text + 3, false⟩) := by
  have hopen := h.opensWord (endsWords_newline true ('\n' :: cs))
  rw [textBlock, skipBreaks_newline (endsBreaks_of_opensWord hopen),
    skipBreaks_of_opensWord hopen]
  simp only [widely, blockLines_plain h.isPlainText hcs, h.tidy_eq]
  rw [show offset + 1 + size text + 2 = offset + size text + 3 by omega]
  rfl

/-- A space before a word is no line break. -/
theorem skipBreaks_blank {cs : List Char} (h : opensWord cs = true) (offset : Nat) :
    (⟨' ' :: cs, offset, false⟩ : Reader).skipBreaks = ⟨' ' :: cs, offset, false⟩ := by
  refine skipBreaks_of_ne_lineBreaks fun count => ?_
  rw [next_blank rfl, ← skipBreaks_of_opensWord h]
  exact lexeme_skipBreaks_ne _ count

/-- A block of text behind a space. -/
theorem textBlock_blank {text cs : List Char} (h : IsPlainText text) (hcs : EndsBreaks cs)
    (offset : Nat) :
    (⟨' ' :: (text ++ '\n' :: '\n' :: cs), offset, false⟩ : Reader).textBlock =
      (String.ofList (tidy text), ⟨cs, offset + size text + 3, false⟩) := by
  obtain ⟨blanks, front, htext, hblanks, hopen⟩ := h.exists_word ('\n' :: cs)
  have hblanks' : ∀ c ∈ ' ' :: blanks, isBlank c = true := List.forall_mem_cons.2 ⟨rfl, hblanks⟩
  have hgap (wide : Bool) := next_blanks hblanks' front offset wide
  rw [List.cons_append, ← htext] at hgap
  obtain ⟨word, hword⟩ := word?_next_of_opensWord hopen (offset + size (' ' :: blanks)) false
  have hskip : (⟨' ' :: (text ++ '\n' :: '\n' :: cs), offset, false⟩ : Reader).skipBreaks =
      ⟨' ' :: (text ++ '\n' :: '\n' :: cs), offset, false⟩ := by
    refine skipBreaks_of_ne_lineBreaks fun count hcount => ?_
    rw [← hgap, hcount] at hword
    cases hword
  obtain ⟨word', hword'⟩ := word?_next_of_opensWord hopen (offset + size (' ' :: blanks)) true
  have hnext := next_blank (c := ' ') rfl (text ++ '\n' :: '\n' :: cs) offset true
  rw [textBlock, hskip]
  simp only [widely, blockLines_congr hnext (by rw [← hnext, hgap]; exact hword'), utf8Size_space,
    blockLines_plain h hcs]
  rw [show offset + 1 + size text + 2 = offset + size text + 3 by omega]
  rfl

/-- A line of text behind a space. -/
theorem textLine_blank {line : List Char} (h : IsTextLine line) (cs : List Char) (offset : Nat) :
    (⟨' ' :: (line ++ '\n' :: cs), offset, false⟩ : Reader).textLine =
      (String.ofList line, ⟨'\n' :: cs, offset + size line + 1, false⟩) := by
  have hopen := h.opensWord (endsWords_newline true cs)
  obtain ⟨lexeme, hread, hword⟩ := h.readsAs (endsWords_newline true cs)
  have hnext := next_blank (c := ' ') rfl (line ++ '\n' :: cs) offset true
  have hwords : (⟨' ' :: (line ++ '\n' :: cs), offset, true⟩ : Reader).words =
      ([String.ofList line], ⟨'\n' :: cs, offset + 1 + size line, true⟩) := by
    rw [words_congr hnext (hread.word?_next hword _), hread.words hword,
      words_of_word?_eq_none (word?_next_newline _ _ _), utf8Size_space]
  rw [textLine, skipBreaks_blank hopen]
  simp only [widely, hwords]
  rw [show offset + 1 + size line = offset + size line + 1 by omega]
  simp

/-! ## 3. The resource table -/

theorem next_kind (kind : ResourceKind) (cs : List Char) (offset : Nat) :
    (⟨kind.name.toList ++ ' ' :: cs, offset, false⟩ : Reader).next =
      (⟨.identifier kind.name, offset⟩,
        ⟨' ' :: cs, offset + size kind.name.toList, false⟩) := by
  cases kind <;> rfl

theorem begins_kind (kind : ResourceKind) (cs : List Char) :
    Begins kind.name (kind.name.toList ++ ' ' :: cs) := by
  refine ⟨?_, fun offset => by rw [next_kind]⟩
  cases kind <;> rintro c ⟨⟩ <;> rfl

theorem ofKeyword?_name (kind : ResourceKind) : ResourceKind.ofKeyword? kind.name = some kind := by
  cases kind <;> decide

/-- The resource as it is kept. -/
def Resource.tidy (resource : Resource) : Resource :=
  { resource with content := String.ofList (Text.tidy resource.content.toList) }

theorem Resource.tidy_of_isText {resource : Resource} (h : IsText resource.content.toList) :
    resource.tidy = resource := by
  rw [Resource.tidy, h.tidy_eq, String.ofList_toList]

/-- No line break stands next. -/
structure Settled (cs : List Char) : Prop where
  endsBreaks : EndsBreaks cs
  skipBreaks : ∀ offset, (⟨cs, offset, false⟩ : Reader).skipBreaks = ⟨cs, offset, false⟩

theorem Begins.settled {word : String} {cs : List Char} (h : Begins word cs) : Settled cs :=
  ⟨h.endsBreaks, h.skipBreaks⟩

theorem settled_nil : Settled [] :=
  ⟨by simp [EndsBreaks], fun _ =>
    skipBreaks_of_ne_lineBreaks (by simp [lexeme_next_of_rest_eq_nil])⟩

/-- Entries begin with a word. -/
theorem settled_entries {cs : List Char} (hcs : Settled cs) (entries : List (Int64 × Resource)) :
    Settled (entries.flatMap (fun entry => entry.2.print entry.1) ++ cs) := by
  cases entries with
  | nil => exact hcs
  | cons entry entries =>
    have hbegins := begins_kind entry.2.kind (':' :: ' ' :: ((Numeral.render entry.1).toList ++
      ' ' :: (entry.2.content.toList ++ '\n' :: '\n' ::
        (entries.flatMap (fun entry => entry.2.print entry.1) ++ cs))))
    simpa [Resource.print] using hbegins.settled

/-- A printed entry is read back, its text made tidy, and the reader goes on behind it. -/
theorem resource?_print {cs : List Char} (hcs : Settled cs) (id : Int64)
    {resource : Resource} (h : IsPlainText resource.content.toList) (offset : Nat) :
    ∃ offset', (⟨resource.print id ++ cs, offset, false⟩ : Reader).resource? =
      .ok (some ((id, resource.tidy), ⟨cs, offset', false⟩)) := by
  have hprint : resource.print id ++ cs = resource.kind.name.toList ++ ' ' :: ':' :: ' ' ::
      ((Numeral.render id).toList ++ ' ' :: (resource.content.toList ++ '\n' :: '\n' :: cs)) := by
    simp [Resource.print]
  have hid := next_blank (c := ' ') rfl ((Numeral.render id).toList ++
    ' ' :: (resource.content.toList ++ '\n' :: '\n' :: cs))
    (offset + size resource.kind.name.toList + 2) false
  rw [readsAs_render id (endsWords_blank _)] at hid
  refine ⟨offset + size resource.kind.name.toList + 2 + 1 + size (Numeral.render id).toList +
    size resource.content.toList + 3, ?_⟩
  rw [resource?, hprint, next_kind]
  simp only [ofKeyword?_name, Reader.resource, onward_expect_scope_of_next (next_scope _ _ false),
    onward_number_of_next hid, bind, Except.bind, textBlock_blank h hcs.endsBreaks, hcs.skipBreaks]
  simp [pure, Except.pure, Except.map, Resource.tidy]

/-- Printed entries are read back, their texts made tidy. -/
theorem resources_print {cs : List Char} (hcs : Settled cs)
    (hnone : ∀ offset, (⟨cs, offset, false⟩ : Reader).resource? = .ok none)
    {entries : List (Int64 × Resource)}
    (h : ∀ entry ∈ entries, IsPlainText entry.2.content.toList) (offset : Nat) :
    ∃ offset', (⟨entries.flatMap (fun entry => entry.2.print entry.1) ++ cs, offset, false⟩ :
      Reader).resources =
        ⟨entries.map fun entry => (entry.1, entry.2.tidy), .ok ⟨cs, offset', false⟩⟩ := by
  induction entries generalizing offset with
  | nil => exact ⟨offset, list_of_none (hnone offset)⟩
  | cons entry entries ih =>
    obtain ⟨offset₁, hentry⟩ :=
      resource?_print (settled_entries hcs entries) entry.1 (h entry List.mem_cons_self) offset
    obtain ⟨offset₂, hentries⟩ := ih (fun e he => h e (List.mem_cons_of_mem _ he)) offset₁
    refine ⟨offset₂, ?_⟩
    rw [resources] at hentries ⊢
    rw [List.flatMap_cons, List.append_assoc, list_of_some hentry, hentries, List.map_cons]

/-- The directive of a printed resource table. -/
theorem directive_print {cs : List Char} (hcs : Settled cs)
    (hnone : ∀ offset, (⟨cs, offset, false⟩ : Reader).resource? = .ok none)
    {entries : List (Int64 × Resource)}
    (h : ∀ entry ∈ entries, IsPlainText entry.2.content.toList) (offset : Nat) :
    (∀ offset, (⟨"qrc :\n".toList ++ (entries.flatMap (fun entry => entry.2.print entry.1) ++ cs),
      offset, false⟩ : Reader).next.1.lexeme = .identifier "qrc") ∧
    ∃ offset', (⟨"qrc :\n".toList ++ (entries.flatMap (fun entry => entry.2.print entry.1) ++ cs),
      offset, false⟩ : Reader).directive =
        ⟨[.resources (entries.map fun entry => (entry.1, entry.2.tidy))],
          .ok ⟨cs, offset', false⟩⟩ := by
  have hbehind := settled_entries hcs entries
  obtain ⟨offset', hentries⟩ := resources_print hcs hnone h (offset + 5 + 1)
  have hword (offset : Nat) : (⟨"qrc :\n".toList ++
      (entries.flatMap (fun entry => entry.2.print entry.1) ++ cs), offset, false⟩ :
      Reader).next = (⟨.identifier "qrc", offset⟩, ⟨' ' :: ':' :: '\n' ::
        (entries.flatMap (fun entry => entry.2.print entry.1) ++ cs), offset + 3, false⟩) := rfl
  have hbody : (⟨'\n' :: (entries.flatMap (fun entry => entry.2.print entry.1) ++ cs),
      offset + 5, false⟩ : Reader).body ⟨"qrc", offset⟩ =
        ⟨[.resources (entries.map fun entry => (entry.1, entry.2.tidy))],
          .ok ⟨cs, offset', false⟩⟩ := by
    simp only [body, show fold "qrc" = "qrc" by decide, skipBreaks_newline hbehind.endsBreaks,
      hbehind.skipBreaks, hentries]
  refine ⟨fun offset => by rw [hword], offset', ?_⟩
  rw [directive_of_heading (hword offset) (by decide) (next_scope _ _ false), hbody]

/-! ## 4. Sections -/

/-- With `q` made of what was read before, the text makes `q'` of it, and the
reader goes on behind the text. -/
def Leads (q : Quest) (text : List Char) (q' : Quest) (cs : List Char) : Prop :=
  ∀ offset, ∃ offset', (⟨text ++ cs, offset, false⟩ : Reader).directives.quest q =
    (⟨cs, offset', false⟩ : Reader).directives.quest q'

section Leads

variable {word : String} {cs : List Char}

theorem leads_nil (q : Quest) (cs : List Char) : Leads q [] q cs :=
  fun offset => ⟨offset, rfl⟩

theorem leads_background (hcs : Begins word cs) (q : Quest) :
    Leads q "+background\n".toList { q with runsInBackground := true } cs := by
  intro offset
  refine ⟨offset + 12, ?_⟩
  have hnext : (⟨"+background\n".toList ++ cs, offset, false⟩ : Reader).next =
      (⟨.identifier "+background", offset⟩, ⟨'\n' :: cs, offset + 11, false⟩) := rfl
  rw [quest_of_flag hnext rfl, directives_newline hcs.endsBreaks]
  rfl

theorem leads_title (hcs : Begins word cs) {line : List Char} (h : IsTextLine line) (q : Quest) :
    Leads q ("title : ".toList ++ line ++ ['\n']) { q with title := String.ofList line } cs := by
  intro offset
  have hprint : "title : ".toList ++ line ++ ['\n'] ++ cs =
      "title :".toList ++ (' ' :: (line ++ '\n' :: cs)) := by
    simp
  have hword : (⟨"title :".toList ++ (' ' :: (line ++ '\n' :: cs)), offset, false⟩ : Reader).next =
      (⟨.identifier "title", offset⟩,
        ⟨' ' :: ':' :: ' ' :: (line ++ '\n' :: cs), offset + 5, false⟩) := rfl
  have hbody : (⟨' ' :: (line ++ '\n' :: cs), offset + 7, false⟩ : Reader).body ⟨"title", offset⟩ =
      ⟨[.title (String.ofList line)], .ok ⟨'\n' :: cs, offset + 7 + size line + 1, false⟩⟩ := by
    simp only [body, show fold "title" = "title" by decide, textLine_blank h]
  refine ⟨offset + 7 + size line + 1 + 1, ?_⟩
  rw [hprint, quest_of_body hword (by decide) (next_scope _ _ false) hbody,
    directives_newline hcs.endsBreaks]
  rfl

theorem leads_briefing (hcs : Begins word cs) {text : List Char} (h : IsText text) (q : Quest) :
    Leads q ("briefing :\n".toList ++ text ++ ['\n', '\n'])
      { q with briefing := String.ofList text } cs := by
  intro offset
  have hprint : "briefing :\n".toList ++ text ++ ['\n', '\n'] ++ cs =
      "briefing :".toList ++ ('\n' :: (text ++ '\n' :: '\n' :: cs)) := by
    simp
  have hword : (⟨"briefing :".toList ++ ('\n' :: (text ++ '\n' :: '\n' :: cs)), offset, false⟩ :
      Reader).next = (⟨.identifier "briefing", offset⟩,
        ⟨' ' :: ':' :: '\n' :: (text ++ '\n' :: '\n' :: cs), offset + 8, false⟩) := rfl
  have hbody : (⟨'\n' :: (text ++ '\n' :: '\n' :: cs), offset + 10, false⟩ : Reader).body
      ⟨"briefing", offset⟩ =
        ⟨[.briefing (String.ofList text)], .ok ⟨cs, offset + 10 + size text + 3, false⟩⟩ := by
    simp only [body, show fold "briefing" = "briefing" by decide,
      textBlock_newline h hcs.endsBreaks]
  refine ⟨offset + 10 + size text + 3, ?_⟩
  rw [hprint, quest_of_body hword (by decide) (next_scope _ _ false) hbody]
  rfl

theorem leads_resources (hcs : Begins word cs) (hkind : ResourceKind.ofKeyword? word = none)
    {table : Table Int64 Resource}
    (h : ∀ entry ∈ table.entries, IsText entry.2.content.toList) (q : Quest) :
    Leads q ("qrc :\n".toList ++ table.entries.flatMap fun entry => entry.2.print entry.1)
      { q with resources := table } cs := by
  intro offset
  have hnone (offset : Nat) : (⟨cs, offset, false⟩ : Reader).resource? = .ok none := by
    simp only [resource?, hcs.lexeme_next, hkind]
  have htidy : (table.entries.map fun entry => (entry.1, entry.2.tidy)) = table.entries :=
    (List.map_congr_left fun entry hentry => by rw [Resource.tidy_of_isText (h entry hentry)]).trans
      (List.map_id' _)
  obtain ⟨hword, offset', hdirective⟩ :=
    directive_print hcs.settled hnone (fun entry hentry => (h entry hentry).isPlainText) offset
  obtain ⟨hskip, hend⟩ := skipBreaks_of_identifier (hword offset)
  refine ⟨offset', ?_⟩
  rw [List.append_assoc, quest_of_directive (by rw [hskip, hend]), hskip, hdirective, htidy]
  simp [Directive.applyTo, Table.ofList_entries]

end Leads

end Questbook
