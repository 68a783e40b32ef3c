import Stencil.Journal
import Stencil.Text.Qualified
import Stencil.Tree.Printer

/-!
# Import requests

An entry of an import directive requests a template of another file by its qualified name.
A property binds the template under the property's name; a bare argument binds it under the
qualified name itself.
-/

namespace Stencil

/-- A request for a template of another file. -/
structure ImportRequest where
  /-- The name under which the template is bound. -/
  localName : String
  file : String
  /-- The name under which the file exports the template. -/
  member : String
  span : Span
deriving DecidableEq

namespace ImportRequest

/-- The qualified name of what is requested. -/
def qualified (r : ImportRequest) : String :=
  QualifiedName.text ⟨r.file, r.member⟩

/-- The request that an entry of a directive makes. -/
def ofEntry (e : Entry) : Except Diagnostic ImportRequest :=
  match e.value.inner with
  | .string target =>
    match QualifiedName.ofString? target with
    | some q =>
      .ok
        { localName := (e.name.map Spanned.inner).getD target
          file := q.file
          member := q.member
          span := e.span }
    | none => .error ((Problem.importNotQualified e.value.inner).reportedAt e.span)
  | value => .error ((Problem.importNotQualified value).reportedAt e.span)

/-- The requests of a directive, and what is wrong with it. -/
def ofDirective (directive : Node) : List ImportRequest × List Diagnostic :=
  let read := directive.entries.map ofEntry
  (read.filterMap Except.toOption,
    read.filterMap (fun
      | .error d => some d
      | .ok _ => none) ++
      if directive.children.isEmpty then []
      else [Problem.importWithChildren.reportedAt directive.span])

/-- The requests of a document, and what is wrong with its directive. -/
def ofDocument (d : Document) : List ImportRequest × List Diagnostic :=
  match d.importDirective? with
  | some directive => ofDirective directive
  | none => ([], [])

end ImportRequest

end Stencil
