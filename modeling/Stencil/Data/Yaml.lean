import Stencil.Data.Basic
import Stencil.Number.Literal
import Stencil.Text.Blank

/-!
# Indented settings

The YAML files that the engine reads hold settings, one a line: a name, a colon and a scalar.
A name without a scalar opens a section, to which the lines below belong that are indented
further.  Blank lines and lines that begin with a hash mark are passed over; a line without a
colon sets nothing, but ends the sections that are not indented less.
-/

namespace Stencil.Yaml

/-! ## Lines -/

/-- What one line says. -/
inductive Line where
  /-- Nothing at all. -/
  | blank
  /-- Nothing, at an indentation. -/
  | bare (indent : Nat)
  /-- A section begins. -/
  | header (indent : Nat) (name : String)
  /-- A field has a value. -/
  | field (indent : Nat) (name : String) (value : Data)

/-- The lines of a text. -/
def lines : List Char → List (List Char)
  | [] => [[]]
  | c :: rest =>
    if c = '\n' then [] :: lines rest
    else
      match lines rest with
      | first :: others => (c :: first) :: others
      | [] => [[c]]

/-- The inside of a text between two marks of the same kind. -/
def unquote? (mark : Char) (text : List Char) : Option (List Char) :=
  match text with
  | [] => none
  | first :: rest =>
    if first = mark ∧ (first :: rest).getLast? = some mark then some rest.dropLast else none

/-- The scalar that a text spells. -/
def scalar (text : List Char) : Data :=
  if text = "true".toList then .boolean true
  else if text = "false".toList then .boolean false
  else if text = "null".toList then .null
  else
    match Literal.ofChars? text with
    | some ⟨negative, whole, fraction, none⟩ =>
      .number (Literal.value ⟨negative, whole, fraction, none⟩)
    | _ =>
      .string (String.ofList
        (((unquote? '\x22' text).or (unquote? '\x27' text)).getD text))

/-- What a line says. -/
def Line.ofChars (line : List Char) : Line :=
  let indent := (line.takeWhile Blank.isBlank).length
  let text := Blank.trim line
  match text with
  | [] => .blank
  | first :: _ =>
    if first = '#' then .blank
    else
      match text.dropWhile (· != ':') with
      | [] => .bare indent
      | _ :: after =>
        let name := String.ofList (Blank.trimRight (text.takeWhile (· != ':')))
        match Blank.trim after with
        | [] => .header indent name
        | value => .field indent name (scalar value)

/-! ## Sections -/

/-- The fields of a section, and those of its base. -/
structure Section where
  own : Keyed Data
  base : Keyed Data
  /-- Whether the base is settled, so that the name of the base is a name like any other. -/
  settled : Bool

namespace Section

/-- The section without fields. -/
def empty : Section :=
  ⟨[], [], false⟩

/-- All fields of a section, its own before those of its base. -/
def all (s : Section) : Keyed Data :=
  s.own ++ s.base

/-- Whether a name gives the base of a section. -/
def isBase (s : Section) (name : String) : Bool :=
  name == Data.baseName && !s.settled

/-- The section with a field set to a scalar.  A scalar is no base; null takes the base away
for good. -/
def set (s : Section) (name : String) (value : Data) : Section :=
  if s.isBase name then
    if value.isNull then { s with base := [], settled := true } else s
  else { s with own := s.own.put name value }

/-- The section with a section set inside it.  A base brings its own base along, and settles
the section when it is settled itself. -/
def enclose (s : Section) (name : String) (inner : Section) : Section :=
  if s.isBase name then { s with base := inner.all, settled := inner.settled }
  else if name = Data.baseName then { s with own := s.own.put name (.record inner.all) }
  else { s with own := s.own.put name (.record inner.own) }

end Section

/-- A section that is still open. -/
structure OpenSection where
  indent : Nat
  name : String
  content : Section

/-- The sections that are open, the innermost first, and the outermost level of all. -/
structure Outline where
  inner : List OpenSection
  outer : Section

namespace Outline

/-- The outline of no lines. -/
def empty : Outline :=
  ⟨[], .empty⟩

/-- The outline with a change made to its innermost section. -/
def edit (o : Outline) (change : Section → Section) : Outline :=
  match o.inner with
  | [] => { o with outer := change o.outer }
  | s :: rest => { o with inner := { s with content := change s.content } :: rest }

/-- The outline with the sections closed that are not indented less than `indent`. -/
def closeFrom (indent : Nat) (o : Outline) : Outline :=
  match _h : o.inner with
  | [] => o
  | s :: rest =>
    if indent ≤ s.indent then
      closeFrom indent (edit ⟨rest, o.outer⟩ (·.enclose s.name s.content))
    else o
termination_by o.inner.length
decreasing_by
  rw [_h]
  unfold edit
  split <;> simp_all

/-- The outline after one more line. -/
def add (o : Outline) : Line → Outline
  | .blank => o
  | .bare indent => o.closeFrom indent
  | .header indent name =>
    let closed := o.closeFrom indent
    { closed with inner := ⟨indent, name, .empty⟩ :: closed.inner }
  | .field indent name value => (o.closeFrom indent).edit (·.set name value)

end Outline

/-- The fields of a text of settings. -/
def read (text : String) : Keyed Data :=
  let outline := ((lines text.toList).map Line.ofChars).foldl Outline.add .empty
  (outline.closeFrom 0).outer.all

end Stencil.Yaml
