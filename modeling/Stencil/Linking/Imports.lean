import Stencil.Linking.Exports
import Stencil.Linking.Request

/-!
# Binding imports

Templates of other files come into a scope in two ways: `Scope.compose` binds a whole export
table under the qualified names of its templates, and `resolveImports` binds just what some
requests ask for.  Either pushes one frame.
-/

namespace Stencil

/-- Where a template binding that is about to be shadowed came from, in words. -/
def originText (file : Option String) : String :=
  match file with
  | some file => "file '" ++ file ++ "'"
  | none => "this document"

/-- The report of a name that is bound again, if what it was bound to is a template. -/
def rebinding (policy : CollisionPolicy) (name : String) (span : Span)
    (previous : Option Binding) : Journal :=
  match previous with
  | some (.template _ _ file _) => .collision policy name span (originText file)
  | _ => .empty

/-! ## Whole tables -/

/-- The bindings of a table's templates under their qualified names. -/
def ExportTable.bindings (table : ExportTable) (file : String) : List (String × Binding) :=
  table.map fun (name, template) =>
    (QualifiedName.text ⟨file, name⟩,
      .template (some template) .imported (some file) template.span)

namespace Scope

/-- The reports of a table's qualified names that are bound already. -/
def composeJournal (c : Config) (s : Scope) (table : ExportTable) (file : String) : Journal :=
  table.foldl
    (fun journal pair =>
      let name := QualifiedName.text ⟨file, pair.1⟩
      journal ++ rebinding c.collisions name pair.2.span (s.lookup name))
    .empty

/-- The scope with every template of a table bound under its qualified name. -/
def compose (c : Config) (s : Scope) (table : ExportTable) (file : String) : Run Scope :=
  .ofJournal (some (s.extend (table.bindings file) .imports)) (s.composeJournal c table file)
    .imports .empty

end Scope

/-! ## Requests -/

/-- What some requests have bound so far, and the journal. -/
structure Resolution where
  bound : Keyed Binding
  journal : Journal

namespace Resolution

/-- The template that a request asks for, among the tables of the files. -/
def find (tables : Keyed ExportTable) (r : ImportRequest) : Except Problem Template :=
  match tables.get? r.file with
  | none => .error (.noSuchFile r.file r.member)
  | some table =>
    match table.get? r.member with
    | none => .error (.notExported r.file r.member)
    | some template => .ok template

/-- A resolution with one more request. -/
def add (c : Config) (tables : Keyed ExportTable) (outer : Scope) (done : Resolution)
    (r : ImportRequest) : Resolution :=
  match find tables r with
  | .error problem =>
    { done with journal := done.journal ++ .report [problem.reportedAt r.span] }
  | .ok template =>
    let previous := (done.bound.get? r.localName).or (outer.lookup r.localName)
    { bound :=
        done.bound.put r.localName (.template (some template) .imported (some r.file) r.span)
      journal := done.journal ++ rebinding c.collisions r.localName r.span previous }

end Resolution

/-- The outer scope with the templates that some requests ask for, and the journal. -/
def resolveOn (c : Config) (requests : List ImportRequest) (tables : Keyed ExportTable)
    (outer : Scope) : Scope × Journal :=
  let done := requests.foldl (Resolution.add c tables outer) ⟨[], .empty⟩
  (outer.extend done.bound .imports,
    done.journal ++
      .line .log ("imported " ++ toString done.bound.length ++ "/" ++
        toString requests.length ++ " templates"))

/-- The outer scope with the templates that some requests ask for. -/
def resolveImports (c : Config) (requests : List ImportRequest) (tables : Keyed ExportTable)
    (outer : Scope) : Run Scope :=
  let (scope, journal) := resolveOn c requests tables outer
  .ofJournal (some scope) journal .imports .empty

/-- The import requests of a document. -/
def Document.importRequests (d : Document) : Run (List ImportRequest) :=
  let (requests, problems) := ImportRequest.ofDocument d
  .ofJournal (some requests) (.report problems) .imports .empty

end Stencil
