/-!
# Qualified names

A qualified name refers to a template of another file: the file, a slash, and the name
inside the file.  The last slash separates the two, and neither part is empty.
-/

namespace Stencil

/-- The name of a template inside a file. -/
structure QualifiedName where
  file : String
  member : String
deriving DecidableEq

namespace QualifiedName

/-- The text before the last slash and the text after it. -/
def splitLast : List Char → Option (List Char × List Char)
  | [] => none
  | c :: rest =>
    match splitLast rest with
    | some (before, after) => some (c :: before, after)
    | none => if c = '/' then some ([], rest) else none

/-- The qualified name that a text spells. -/
def ofString? (text : String) : Option QualifiedName :=
  match splitLast text.toList with
  | some (c :: file, d :: member) =>
    some ⟨String.ofList (c :: file), String.ofList (d :: member)⟩
  | _ => none

/-- The text of a qualified name. -/
def text (q : QualifiedName) : String :=
  q.file ++ "/" ++ q.member

end QualifiedName

end Stencil
