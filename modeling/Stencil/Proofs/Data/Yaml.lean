import Stencil.Data.Yaml
import Stencil.Proofs.Config.Sheet

/-!
# Sheets as indented settings

A sheet is laid out with one line for each section and each field, the fields indented by any blanks
of their own, and with gaps anywhere: blank lines and comments.  Every line may end with blanks, so
also with a carriage return (`Layout`).

Each such line says what it was laid out for (`ofChars_gap`, `ofChars_header`, `ofChars_row`).
Since only the line of a section ends the section before, however unevenly the fields are indented,
there is never more than one section open (`Outline.addAll_block`), and the text reads as the object
of the sheet (`Layout.read_text`).

The depth of an indentation plays no part in this.  A field is put into the innermost section that
is open, and a line at the left edge closes all of them; so with one section open at a time it is
enough that a field is indented at all (`Row.indented`).
-/

namespace Stencil

/-! ## Trimming -/

namespace Blank

variable {before text after : List Char}

/-- A text without blanks at its ends. -/
structure IsTrimmed (text : List Char) : Prop where
  left : EndsRun isBlank text
  right : EndsRun isBlank text.reverse

lemma IsTrimmed.of_not_blank (h : ∀ c ∈ text, isBlank c = false) : IsTrimmed text where
  left c hc := h c (List.mem_of_mem_head? hc)
  right c hc := h c (List.mem_reverse.1 (List.mem_of_mem_head? hc))

lemma IsTrimmed.endsRun_append (h : IsTrimmed text) (ne : text ≠ []) :
    EndsRun isBlank (text ++ after) := by
  rw [EndsRun, List.head?_append_of_ne_nil _ ne]
  exact h.left

/-- A text is trimmed that begins with a trimmed one and ends with another. -/
lemma IsTrimmed.append {middle : List Char} (first : IsTrimmed before) (last : IsTrimmed after)
    (ne : before ≠ []) (ne' : after ≠ []) : IsTrimmed (before ++ (middle ++ after)) where
  left := first.endsRun_append ne
  right := by
    rw [List.reverse_append, List.reverse_append, List.append_assoc, EndsRun,
      List.head?_append_of_ne_nil _ (List.reverse_ne_nil_iff.2 ne')]
    exact last.right

lemma trimRight_append (h : IsTrimmed text) (blank : ∀ c ∈ after, isBlank c = true) :
    trimRight (text ++ after) = text := by
  rw [trimRight, List.reverse_append,
    dropWhile_run (fun c hc => blank c (List.mem_reverse.1 hc)) h.right, List.reverse_reverse]

/-- What begins a text is not taken off with the blanks at its end. -/
lemma trimRight_cons {c : Char} (h : isBlank c = false) :
    trimRight (c :: text) = c :: trimRight text := by
  rw [trimRight, trimRight, List.reverse_cons, List.dropWhile_append]
  split
  · next none =>
    rw [List.dropWhile_cons_of_neg (ne_true_of_eq_false h), List.isEmpty_iff.1 none]
    rfl
  · rw [List.reverse_append]
    rfl

lemma trimRight_of_trimmed (h : IsTrimmed text) : trimRight text = text := by
  have trimmed : trimRight (text ++ []) = text :=
    trimRight_append h fun c hc => absurd hc List.not_mem_nil
  rwa [List.append_nil] at trimmed

/-- Trimming takes the blanks off around a text. -/
lemma trim_append (h : IsTrimmed text) (ne : text ≠ []) (blank : ∀ c ∈ before, isBlank c = true)
    (blank' : ∀ c ∈ after, isBlank c = true) : trim (before ++ (text ++ after)) = text := by
  rw [trim, trimLeft, dropWhile_run blank (h.endsRun_append ne), trimRight_append h blank']

lemma trim_blanks (blank : ∀ c ∈ text, isBlank c = true) : trim text = [] := by
  have none : (text ++ []).dropWhile isBlank = [] := dropWhile_run blank endsRun_nil
  rw [List.append_nil] at none
  rw [trim, trimLeft, none]
  rfl

end Blank

namespace Yaml

open Sheet

/-! ## Layouts -/

/-- Blanks inside a line. -/
structure Margin where
  chars : List Char
  blank : ∀ c ∈ chars, Blank.isBlank c = true
  inLine : '\n' ∉ chars

/-- A line that says nothing: blanks, and maybe a comment after them. -/
structure Gap where
  margin : Margin
  comment : Option (List Char)
  inLine : ∀ text ∈ comment, '\n' ∉ text

/-- The line of a gap. -/
def Gap.line (g : Gap) : List Char :=
  g.margin.chars ++ g.comment.elim [] ('#' :: ·)

/-- A field in its line, and the gaps after it. -/
structure Row where
  field : Field
  /-- The indentation. -/
  indent : Margin
  indented : indent.chars ≠ []
  /-- What stands between the colon and the value. -/
  middle : Margin
  /-- What stands after the value. -/
  after : Margin
  gaps : List Gap

namespace Row

/-- What the line of a field says, without the blanks around it. -/
def content (r : Row) : List Char :=
  r.field.name.chars ++ (':' :: r.middle.chars ++ r.field.value.chars)

/-- The line of a field. -/
def line (r : Row) : List Char :=
  r.indent.chars ++ (r.content ++ r.after.chars)

/-- The line of a field and those of the gaps after it. -/
def lines (r : Row) : List (List Char) :=
  r.line :: r.gaps.map Gap.line

end Row

/-- A section with its fields. -/
structure Block where
  name : Name
  /-- What stands after the colon. -/
  after : Margin
  gaps : List Gap
  rows : List Row

namespace Block

/-- The section of a block. -/
def sheetSection (b : Block) : Sheet.Section :=
  ⟨b.name, b.rows.map Row.field⟩

/-- The line that begins a section. -/
def header (b : Block) : List Char :=
  b.name.chars ++ [':'] ++ b.after.chars

/-- The lines of a section. -/
def lines (b : Block) : List (List Char) :=
  b.header :: (b.gaps.map Gap.line ++ b.rows.flatMap Row.lines)

end Block

/-- A sheet with its gaps and margins. -/
structure Layout where
  gaps : List Gap
  blocks : List Block

namespace Layout

/-- The sections of a layout. -/
def sections (l : Layout) : List Sheet.Section :=
  l.blocks.map Block.sheetSection

/-- The lines of a layout. -/
def lines (l : Layout) : List (List Char) :=
  l.gaps.map Gap.line ++ l.blocks.flatMap Block.lines

/-- The text of a layout. -/
def text (l : Layout) : String :=
  String.ofList (['\n'].intercalate l.lines)

end Layout

/-! ## Lines -/

lemma lines_of_inLine {line : List Char} (h : '\n' ∉ line) : Yaml.lines line = [line] := by
  induction line with
  | nil => rfl
  | cons c rest ih =>
    rw [List.mem_cons, not_or] at h
    rw [Yaml.lines, if_neg (Ne.symm h.1), ih h.2]

lemma lines_append_newline {line rest : List Char} (h : '\n' ∉ line) :
    Yaml.lines (line ++ '\n' :: rest) = line :: Yaml.lines rest := by
  induction line with
  | nil => rfl
  | cons c line ih =>
    rw [List.mem_cons, not_or] at h
    rw [List.cons_append, Yaml.lines, if_neg (Ne.symm h.1), ih h.2]

/-- A text of some lines has just these. -/
lemma lines_intercalate {ls : List (List Char)} (h : ∀ line ∈ ls, '\n' ∉ line) (ne : ls ≠ []) :
    Yaml.lines (['\n'].intercalate ls) = ls := by
  induction ls with
  | nil => exact absurd rfl ne
  | cons line rest ih =>
    obtain ⟨first, others⟩ := List.forall_mem_cons.1 h
    cases rest with
    | nil =>
      rw [List.intercalate_singleton]
      exact lines_of_inLine first
    | cons next rest =>
      rw [List.intercalate_cons_cons, List.append_assoc, List.singleton_append,
        lines_append_newline first, ih others (List.cons_ne_nil _ _)]

/-! ## Scalars -/

lemma unquote?_quoted (word : List Char) :
    unquote? '\x22' (Quoted.quote :: (word ++ [Quoted.quote])) = some word := by
  have last : (Quoted.quote :: (word ++ [Quoted.quote])).getLast? = some '\x22' := by
    rw [List.getLast?_cons, List.getLast?_concat]
    rfl
  rw [unquote?, if_pos ⟨rfl, last⟩, List.dropLast_concat]

/-- **A value is read back from its characters.** -/
lemma scalar_chars (v : Value) : scalar v.chars = v.data := by
  match v with
  | .truth true | .truth false | .null => rfl
  | .integer negative magnitude =>
    have read := Literal.ofChars?_integer negative magnitude
    -- the text of an integer is none of the words, because no word is a literal
    have apart : ∀ word, Literal.ofChars? word = none →
        Literal.integerChars negative magnitude ≠ word := by
      rintro word unread rfl
      rw [read] at unread
      cases unread
    rw [Value.chars, scalar, if_neg (apart _ rfl), if_neg (apart _ rfl), if_neg (apart _ rfl), read]
    exact congrArg Data.number (Literal.value_integer negative magnitude)
  | .word w =>
    have apart : ∀ word : List Char, word.head? ≠ some Quoted.quote →
        Quoted.quote :: (w.chars ++ [Quoted.quote]) ≠ word := by
      rintro word other rfl
      exact other rfl
    -- a quoted word is no literal either, and its quotation marks are taken off
    have unread : Literal.ofChars? (Quoted.quote :: (w.chars ++ [Quoted.quote])) = none := rfl
    rw [Value.chars, scalar, if_neg (apart _ (by decide)), if_neg (apart _ (by decide)),
      if_neg (apart _ (by decide)), unread]
    show Data.string (String.ofList (((unquote? '\x22' _).or _).getD _)) = _
    rw [unquote?_quoted]
    rfl

/-! ## What a line says -/

/-- A line of blanks says nothing. -/
lemma ofChars_of_blank {line : List Char} (blank : ∀ c ∈ line, Blank.isBlank c = true) :
    Line.ofChars line = .blank := by
  rw [Line.ofChars, Blank.trim_blanks blank]

lemma ofChars_gap (g : Gap) : Line.ofChars g.line = .blank := by
  rw [Gap.line]
  cases g.comment with
  | none =>
    rw [Option.elim_none, List.append_nil]
    exact ofChars_of_blank g.margin.blank
  | some text =>
    have trimmed : Blank.trim (g.margin.chars ++ '#' :: text) = '#' :: Blank.trimRight text := by
      rw [Blank.trim, Blank.trimLeft, dropWhile_run g.margin.blank (endsRun_cons.2 (by decide)),
        Blank.trimRight_cons (by decide)]
    rw [Option.elim_some, Line.ofChars, trimmed]
    rfl

/-- What a line says that has a name, a colon and more after its blanks. -/
lemma ofChars_of_name {line after : List Char} (name : Name)
    (trimmed : Blank.trim line = name.chars ++ ':' :: after) :
    Line.ofChars line =
      match Blank.trim after with
      | [] => .header (line.takeWhile Blank.isBlank).length name.text
      | value => .field (line.takeWhile Blank.isBlank).length name.text (scalar value) := by
  have apart : ∀ c ∈ name.chars, (c != ':') = true := fun c hc =>
    bne_iff_ne.2 (ne_of_isPlain (name.plain c hc) (by decide))
  have ends : EndsRun (· != ':') (':' :: after) := endsRun_cons.2 rfl
  have tight : Blank.IsTrimmed name.chars :=
    .of_not_blank fun c hc => not_blank_of_isPlain (name.plain c hc)
  obtain ⟨first, others, spelled⟩ := List.exists_cons_of_ne_nil name.nonempty
  -- a line is a comment by its first character, which is that of the name here
  have no_comment : first ≠ '#' :=
    ne_of_isPlain (name.plain first (by rw [spelled]; exact List.mem_cons_self)) (by decide)
  rw [Line.ofChars, trimmed, takeWhile_run apart ends, dropWhile_run apart ends,
    Blank.trimRight_of_trimmed tight, Word.text, spelled]
  exact if_neg no_comment

/-- The line of a section begins it at the left edge. -/
lemma ofChars_header (b : Block) : Line.ofChars b.header = .header 0 b.name.text := by
  have content : ∀ c ∈ b.name.chars ++ [':'], Blank.isBlank c = false :=
    List.forall_mem_append.2 ⟨b.name.not_blank, forall_eq_false_of_all (by decide)⟩
  have nonempty : b.name.chars ++ [':'] ≠ [] := List.append_ne_nil_of_right_ne_nil _ (by decide)
  have trimmed : Blank.trim b.header = b.name.chars ++ [':'] := by
    rw [Block.header, ← List.nil_append (b.name.chars ++ [':'] ++ b.after.chars)]
    exact Blank.trim_append (.of_not_blank content) nonempty (fun _ none => nomatch none)
      b.after.blank
  have edge : b.header.takeWhile Blank.isBlank = [] :=
    (Blank.IsTrimmed.endsRun_append (.of_not_blank content) nonempty).takeWhile_eq
  rw [ofChars_of_name b.name trimmed, edge]
  rfl

/-- The line of a field gives it its value. -/
lemma ofChars_row (r : Row) :
    Line.ofChars r.line =
      .field r.indent.chars.length r.field.name.text r.field.value.data := by
  have value := Blank.IsTrimmed.of_not_blank r.field.value.not_blank_of_mem_chars
  have content : Blank.IsTrimmed r.content :=
    .append (.of_not_blank r.field.name.not_blank) value r.field.name.nonempty
      r.field.value.chars_ne_nil
  have nonempty : r.content ≠ [] := List.append_ne_nil_of_left_ne_nil r.field.name.nonempty _
  have trimmed : Blank.trim r.line = r.field.name.chars ++
      ':' :: (r.middle.chars ++ r.field.value.chars) :=
    Blank.trim_append content nonempty r.indent.blank r.after.blank
  have indent : r.line.takeWhile Blank.isBlank = r.indent.chars :=
    takeWhile_run r.indent.blank (content.endsRun_append nonempty)
  have after : Blank.trim (r.middle.chars ++ (r.field.value.chars ++ [])) = r.field.value.chars :=
    Blank.trim_append value r.field.value.chars_ne_nil r.middle.blank (fun _ none => nomatch none)
  rw [List.append_nil] at after
  rw [ofChars_of_name r.field.name trimmed, indent, after, ← scalar_chars]
  -- a value is never blank, so the line cannot be taken for that of a section
  split
  · next none => exact absurd none r.field.value.chars_ne_nil
  · rfl

/-! ## Sections -/

/-- A section with some fields and nothing to fall back on. -/
def Section.plain (own : Keyed Data) : Section :=
  ⟨own, [], false⟩

namespace Section

variable {own inner : Keyed Data} {name : String}

lemma isBase_eq_false (s : Section) (h : name ≠ Data.baseName) : s.isBase name = false := by
  rw [isBase, beq_false_of_ne h, Bool.false_and]

lemma set_plain (h : name ≠ Data.baseName) (value : Data) :
    (plain own).set name value = plain (own.put name value) := by
  rw [set, isBase_eq_false _ h]
  rfl

lemma enclose_plain (h : name ≠ Data.baseName) :
    (plain own).enclose name (plain inner) = plain (own.put name (.record inner)) := by
  rw [enclose, isBase_eq_false _ h, if_neg Bool.false_ne_true, if_neg h]
  rfl

end Section

/-! ## Outlines -/

namespace Outline

variable {o : Outline} {s : OpenSection} {rest : List OpenSection} {outer : Section} {indent : Nat}

/-- The outline after some more lines. -/
def addAll (o : Outline) (lines : List (List Char)) : Outline :=
  (lines.map Line.ofChars).foldl add o

lemma addAll_append (o : Outline) (lines lines' : List (List Char)) :
    o.addAll (lines ++ lines') = (o.addAll lines).addAll lines' := by
  rw [addAll, List.map_append, List.foldl_append, addAll, addAll]

lemma addAll_cons (o : Outline) (line : List Char) (lines : List (List Char)) :
    o.addAll (line :: lines) = (o.add (.ofChars line)).addAll lines :=
  rfl

lemma closeFrom_of_lt (h : s.indent < indent) :
    closeFrom indent ⟨s :: rest, outer⟩ = ⟨s :: rest, outer⟩ := by
  rw [closeFrom]
  exact if_neg (Nat.not_le.2 h)

lemma closeFrom_cons_of_le (h : indent ≤ s.indent) :
    closeFrom indent ⟨s :: rest, outer⟩ =
      closeFrom indent (edit ⟨rest, outer⟩ (·.enclose s.name s.content)) := by
  rw [closeFrom]
  exact if_pos h

lemma closeFrom_nil : closeFrom indent ⟨[], outer⟩ = ⟨[], outer⟩ := by
  rw [closeFrom]

/-- At the left edge every section is closed. -/
lemma inner_closeFrom_zero (o : Outline) : (o.closeFrom 0).inner = [] := by
  fun_induction closeFrom 0 o with
  | case1 o none => exact none
  | case2 o s rest _ _ ih => exact ih
  | case3 o s rest _ further => exact absurd (Nat.zero_le _) further

lemma closeFrom_zero_eq (o : Outline) : o.closeFrom 0 = ⟨[], (o.closeFrom 0).outer⟩ := by
  rw [← o.inner_closeFrom_zero]

/-! ### The lines of a layout -/

lemma addAll_gaps (o : Outline) (gaps : List Gap) : o.addAll (gaps.map Gap.line) = o := by
  induction gaps with
  | nil => rfl
  | cons g rest ih => rw [List.map_cons, addAll_cons, ofChars_gap, add, ih]

/-- A section at the left edge that is open, with some fields, and nothing else open. -/
def within (outer : Section) (name : String) (own : Keyed Data) : Outline :=
  ⟨[⟨0, name, .plain own⟩], outer⟩

variable {name : String} {own : Keyed Data}

/-- A field is put into the open section, however far it is indented. -/
lemma addAll_row (r : Row) :
    (within outer name own).addAll r.lines =
      within outer name (own.put r.field.name.text r.field.value.data) := by
  have inside : (within outer name own).closeFrom r.indent.chars.length = within outer name own :=
    closeFrom_of_lt (List.length_pos_iff.2 r.indented)
  rw [Row.lines, addAll_cons, ofChars_row, add, inside, addAll_gaps]
  show (⟨[⟨0, name, (Section.plain own).set _ _⟩], outer⟩ : Outline) = _
  rw [Section.set_plain r.field.name.text_ne_baseName]
  rfl

lemma addAll_rows (rows : List Row) :
    (within outer name own).addAll (rows.flatMap Row.lines) =
      within outer name
        ((rows.map fun r => r.field.pair).foldl (fun m p => m.put p.1 p.2) own) := by
  induction rows generalizing own with
  | nil => rfl
  | cons r rest ih =>
    rw [List.flatMap_cons, addAll_append, addAll_row, ih]
    rfl

/-- A section closes the one before, and holds its fields. -/
lemma addAll_block (o : Outline) (b : Block) :
    o.addAll b.lines = within (o.closeFrom 0).outer b.name.text
      (Keyed.ofPairs (b.sheetSection.fields.map Field.pair)) := by
  have begun : o.add (.ofChars b.header) = within (o.closeFrom 0).outer b.name.text [] := by
    rw [ofChars_header, add, closeFrom_zero_eq]
    rfl
  rw [Block.lines, addAll_cons, begun, addAll_append, addAll_gaps, addAll_rows, Block.sheetSection,
    List.map_map]
  rfl

/-- **A section is put into the sheet when it ends.** -/
lemma outer_addAll_block {o : Outline} (before : (o.closeFrom 0).outer = .plain own) (b : Block) :
    ((o.addAll b.lines).closeFrom 0).outer =
      .plain (own.put b.name.text (record b.sheetSection.fields)) := by
  rw [addAll_block, within, closeFrom_cons_of_le (Nat.le_refl 0), edit, closeFrom_nil, before]
  exact Section.enclose_plain b.name.text_ne_baseName

lemma outer_addAll_blocks {o : Outline} (before : (o.closeFrom 0).outer = .plain own)
    (blocks : List Block) :
    ((o.addAll (blocks.flatMap Block.lines)).closeFrom 0).outer =
      .plain ((blocks.map fun b => b.sheetSection.pair).foldl (fun m p => m.put p.1 p.2) own) := by
  induction blocks generalizing o own with
  | nil => exact before
  | cons b rest ih =>
    rw [List.flatMap_cons, addAll_append, ih (outer_addAll_block before b)]
    rfl

end Outline

/-! ## Texts -/

namespace Layout

lemma inLine_of_not_blank {text : List Char} (h : ∀ c ∈ text, Blank.isBlank c = false) :
    '\n' ∉ text := by
  intro mem
  exact absurd (h _ mem) (by decide)

lemma inLine_gap (g : Gap) : '\n' ∉ g.line := by
  rw [Gap.line, List.mem_append, not_or]
  refine ⟨g.margin.inLine, ?_⟩
  match h : g.comment with
  | none => exact List.not_mem_nil
  | some text =>
    rw [Option.elim_some, List.mem_cons, not_or]
    exact ⟨by decide, g.inLine text h⟩

lemma inLine_header (b : Block) : '\n' ∉ b.header := by
  rw [Block.header, List.mem_append, List.mem_append, not_or, not_or]
  exact ⟨⟨inLine_of_not_blank b.name.not_blank, by decide⟩, b.after.inLine⟩

lemma inLine_row (r : Row) : '\n' ∉ r.line := by
  have name := inLine_of_not_blank r.field.name.not_blank
  have value := inLine_of_not_blank r.field.value.not_blank_of_mem_chars
  simp [Row.line, Row.content, name, value, r.indent.inLine, r.middle.inLine, r.after.inLine]

/-- No line of a layout is broken. -/
lemma inLine_of_mem_lines (l : Layout) : ∀ line ∈ l.lines, '\n' ∉ line := by
  have gaps : ∀ (gaps : List Gap), ∀ line ∈ gaps.map Gap.line, '\n' ∉ line := by
    intro gaps line h
    obtain ⟨g, _, rfl⟩ := List.mem_map.1 h
    exact inLine_gap g
  refine List.forall_mem_append.2 ⟨gaps l.gaps, fun line h => ?_⟩
  obtain ⟨b, _, h⟩ := List.mem_flatMap.1 h
  rcases List.mem_cons.1 h with rfl | h
  · exact inLine_header b
  rcases List.mem_append.1 h with h | h
  · exact gaps b.gaps line h
  obtain ⟨r, _, h⟩ := List.mem_flatMap.1 h
  rcases List.mem_cons.1 h with rfl | h
  · exact inLine_row r
  · exact gaps r.gaps line h

/-- The lines of the text are those of the layout; a text without lines has a blank one. -/
lemma addAll_lines_text (l : Layout) (o : Outline) :
    o.addAll (Yaml.lines l.text.toList) = o.addAll l.lines := by
  rw [text, String.toList_ofList]
  by_cases none : l.lines = []
  · rw [none]
    rfl
  · rw [lines_intercalate l.inLine_of_mem_lines none]

/-- **A sheet is read back from its layout.** -/
theorem read_text (l : Layout) : Yaml.read l.text = (object l.sections).fields := by
  have fresh : (Outline.empty.closeFrom 0).outer = .plain [] := by
    rw [Outline.empty, Outline.closeFrom_nil]
    rfl
  have settled : ((Outline.empty.addAll l.lines).closeFrom 0).outer =
      .plain (Keyed.ofPairs (l.sections.map Section.pair)) := by
    rw [lines, Outline.addAll_append, Outline.addAll_gaps, Outline.outer_addAll_blocks fresh,
      sections, List.map_map]
    rfl
  show (((Outline.empty.addAll (Yaml.lines l.text.toList)).closeFrom 0).outer).all = _
  rw [addAll_lines_text, settled, Section.all, Section.plain, List.append_nil]
  rfl

end Layout

end Yaml

end Stencil
