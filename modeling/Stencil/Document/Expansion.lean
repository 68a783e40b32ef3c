import Stencil.Document.Collection
import Stencil.Expansion.Basic
import Stencil.Linking.Request
import Stencil.Outcome

/-!
# Expanding a document

A document with a body expands to one node: its declarations are collected on an outer
scope, and the body is expanded under the result.  All independent problems of the run are
reported together.
-/

namespace Stencil

namespace Document

/-- The node that a body expanded to, and the journal.  An expansion to any other number of
nodes is reported, unless an error explains it. -/
def soleNode (body : Node) (e : Expansion) : Option Node × Journal :=
  match e.nodes with
  | [node] => (some node, e.journal)
  | nodes =>
    (none,
      if e.journal.hasErrors then e.journal
      else e.journal ++ .report [(Problem.bodyCount nodes.length).reportedAt body.span])

/-- The node that a document expands to on an outer scope, after `used` calls of the run, and
the journal. -/
def expandOn (c : Config) (used : Nat) (d : Document) (outer : Scope) :
    Option Node × Journal :=
  match d.terminal? with
  | none => (none, d.emptyReport)
  | some body =>
    if body.isExportList then (none, .report [Problem.exportListAsBody.reportedAt body.span])
    else
      let (scope, collected) := collect c.collisions d.declarations outer
      let (node, journal) := soleNode body (expandNode c used .top scope body)
      (node, collected ++ journal)

/-- Whether a request is already met by a scope, under its local or its qualified name. -/
def isResolved (outer : Scope) (r : ImportRequest) : Bool :=
  [r.localName, r.qualified].any fun name => (outer.lookup name).any Binding.isTemplate

/-- The reports of imports that the outer scope does not already bind. -/
def unresolvedImports (d : Document) (outer : Scope) : List Diagnostic :=
  let (requests, problems) := ImportRequest.ofDocument d
  problems ++
    (requests.filter fun r => !isResolved outer r).map fun r =>
      (Problem.unresolvedImport r.file r.member).reportedAt r.span

/-- The expansion of a document on an outer scope, which must bind its imports. -/
def expand (c : Config) (d : Document) (outer : Scope) : Run Node :=
  let (node, expanded) := d.expandOn c 0 outer
  let journal := .report (d.unresolvedImports outer) ++ expanded
  .ofJournal node journal .expansion (.ofJournal c journal)

end Document

end Stencil
