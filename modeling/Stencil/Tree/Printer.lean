import Stencil.Tree.Basic
import Stencil.Number.Shortest
import Stencil.Text.Quoted

/-!
# Printed trees

A node is printed on one line: its name, its entries, and its children between braces.
Names are bare where they can be and quoted otherwise; the nodes of a document stand one a
line.
-/

namespace Stencil

/-! ## Names and scalars -/

/-- Whether a character may begin a bare name. -/
def isBareStart (c : Char) : Bool :=
  c.isAlpha || c == '_'

/-- Whether a character may stand inside a bare name. -/
def isBareRest (c : Char) : Bool :=
  c.isAlphanum || c == '_' || c == '-' || c == '.' || c == '/'

/-- The words that are never names when bare. -/
def keywords : List String :=
  ["true", "false", "null"]

/-- Whether a name is printed bare. -/
def isBareName (name : String) : Bool :=
  match name.toList with
  | [] => false
  | c :: rest => isBareStart c && rest.all isBareRest && !keywords.contains name

/-- A name as it is printed. -/
def nameText (name : String) : String :=
  if isBareName name then name else Quoted.text name

/-- A scalar as it is printed.  Numbers that are not finite share one word. -/
def Scalar.text : Scalar → String
  | .null => "null"
  | .boolean true => "true"
  | .boolean false => "false"
  | .number x => if x.isFinite then x.text else "nan"
  | .string s => Quoted.text s

/-- A scalar as it is cited in a message: an infinite number or not-a-number is cited as
null. -/
def Scalar.citation : Scalar → String
  | .number x => if x.isFinite then x.text else "null"
  | value => value.text

/-! ## Entries, nodes and documents -/

/-- An entry as it is printed. -/
def Entry.text (e : Entry) : String :=
  match e.name with
  | some name => nameText name.inner ++ "=" ++ e.value.inner.text
  | none => e.value.inner.text

/-- The texts of entries, each after a blank. -/
def entriesText : List Entry → String
  | [] => ""
  | e :: rest => " " ++ e.text ++ entriesText rest

mutual

/-- A node as it is printed. -/
def Node.text : Node → String
  | ⟨name, entries, [], _⟩ => nameText name.inner ++ entriesText entries
  | ⟨name, entries, first :: rest, _⟩ =>
    nameText name.inner ++ entriesText entries ++
      (" \x7b " ++ first.text ++ siblingsText rest ++ " \x7d")

/-- The texts of further siblings, each after a semicolon. -/
def siblingsText : List Node → String
  | [] => ""
  | n :: rest => "; " ++ n.text ++ siblingsText rest

end

/-- A document as it is printed. -/
def Document.text (d : Document) : String :=
  "\n".intercalate (d.nodes.map Node.text)

end Stencil
