import Stencil.Document.Collection
import Stencil.Outcome

/-!
# Export tables

An export table holds the templates that a document offers to others, under their exported
names.  Each template keeps its own home scope, so importing it cannot change what it sees.

A document lists its exports in its terminal node.  Without such a list every node is a
declaration, and each declared name is exported under itself.
-/

namespace Stencil

/-- The templates that a document offers, by exported name. -/
abbrev ExportTable := Keyed Template

namespace ExportTable

/-- The table of every well-formed template that some names are bound to. -/
def ofNames (scope : Scope) (names : List String) : ExportTable :=
  names.filterMap fun name =>
    match scope.lookup name with
    | some (.template (some template) _ _ _) => some (name, template)
    | _ => none

/-- A table with the export that one entry of a list makes, and the problems found.  A
malformed template was reported where it was declared, and is not exported. -/
def addEntry (scope : Scope) (read : ExportTable × List Diagnostic) (e : Entry) :
    ExportTable × List Diagnostic :=
  let (table, problems) := read
  match e.value.inner with
  | .string source =>
    let target := (e.name.map Spanned.inner).getD source
    match scope.lookup source with
    | some (.template template _ _ _) =>
      if table.has target then
        (table, problems ++ [(Problem.exportedTwice target).reportedAt e.span])
      else
        match template with
        | some template => (table.put target template, problems)
        | none => (table, problems)
    | _ => (table, problems ++ [(Problem.unknownTemplate source).reportedAt e.value.span])
  | _ => (table, problems ++ [Problem.exportNotAName.reportedAt e.span])

/-- The table that an export list makes of a scope, and the problems found. -/
def ofList (list : Node) (scope : Scope) : ExportTable × List Diagnostic :=
  let (table, problems) := list.entries.foldl (addEntry scope) ([], [])
  (table, problems ++
    if list.children.isEmpty then []
    else [Problem.exportWithChildren.reportedAt list.span])

end ExportTable

namespace Document

/-- The exports of a document on an outer scope, and the journal. -/
def exportsOn (c : Config) (d : Document) (outer : Scope) : Option ExportTable × Journal :=
  match d.terminal? with
  | none => (none, d.emptyReport)
  | some terminal =>
    if terminal.isExportList then
      let (scope, collected) := collect c.collisions d.declarations outer
      let (table, problems) := ExportTable.ofList terminal scope
      (some table, collected ++ .report problems)
    else
      let (scope, collected) := collect c.collisions d.content outer
      let names := (d.content.map fun n => n.name.inner).eraseDups
      (some (ExportTable.ofNames scope names), collected)

/-- The exports of a definitions-only document on an outer scope. -/
def collectExports (c : Config) (d : Document) (outer : Scope) : Run ExportTable :=
  let (table, journal) := d.exportsOn c outer
  .ofJournal table journal .declaration (.ofJournal c journal)

end Document

end Stencil
