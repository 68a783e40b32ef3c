import Stencil.Document.Expansion
import Stencil.Linking.Imports
import Stencil.Linking.Order

/-!
# Linking documents

Documents that import from each other are linked in the order of their imports: each is read
with its import directive bound to the export tables of the files before it.  A document that
ends in an export list gives a table, any other one its expanded body.

A file that fails is reported on its own; what others request of it is passed over.
-/

namespace Stencil

/-- A document with the name of its file. -/
structure SourceFile where
  id : String
  document : Document

/-- The result of linking: the tables of the files with an export list, and the bodies of the
others. -/
structure Linked where
  exports : Keyed ExportTable
  nodes : Keyed Node

/-- A file with its import requests. -/
structure LinkUnit where
  document : Document
  requests : List ImportRequest

namespace LinkUnit

/-- The files that a unit imports from, each once. -/
def files (u : LinkUnit) : List String :=
  (u.requests.map ImportRequest.file).eraseDups

end LinkUnit

/-! ## The files -/

/-- The units of some files and the journal, with one more file; a file given again is
refused. -/
def addSource (read : Keyed LinkUnit × Journal) (source : SourceFile) :
    Keyed LinkUnit × Journal :=
  let (units, journal) := read
  if units.has source.id then
    (units, journal ++
      .report [(Problem.fileGivenTwice source.id).reportedAt source.document.span])
  else
    let (requests, problems) := ImportRequest.ofDocument source.document
    (units.put source.id ⟨source.document, requests⟩, journal ++ .report problems)

/-- The units of some files, and the journal. -/
def linkUnits (sources : List SourceFile) : Keyed LinkUnit × Journal :=
  sources.foldl addSource ([], .empty)

/-- The graph of the imports among some units. -/
def importGraph (units : Keyed LinkUnit) : ImportGraph :=
  units.map fun (id, u) => (id, u.files)

/-! ## The linking -/

/-- The state of a linking: what was linked, the files that failed, and the journal. -/
structure Linkage where
  linked : Linked
  failed : List String
  journal : Journal

namespace Linkage

/-- What becomes of a request, given what was linked before. -/
inductive Disposition where
  /-- It is looked up among the tables. -/
  | bindable
  /-- Its file has no export list. -/
  | listless
  /-- Its file failed and was reported. -/
  | passedOver
deriving DecidableEq

/-- What becomes of a request. -/
def disposition (units : Keyed LinkUnit) (l : Linkage) (r : ImportRequest) : Disposition :=
  if !units.has r.file || l.linked.exports.has r.file then .bindable
  else if l.failed.contains r.file then .passedOver
  else .listless

/-- The requests of a unit that are looked up. -/
def bindable (units : Keyed LinkUnit) (l : Linkage) (u : LinkUnit) : List ImportRequest :=
  u.requests.filter fun r => l.disposition units r == .bindable

/-- The reports of a unit's requests to files without an export list. -/
def listless (units : Keyed LinkUnit) (l : Linkage) (u : LinkUnit) : List Diagnostic :=
  (u.requests.filter fun r => l.disposition units r == .listless).map fun r =>
    (Problem.noExportList r.file r.member).reportedAt r.span

/-- Whether a document ends in an export list. -/
def endsInExports (d : Document) : Bool :=
  d.nodes.getLast?.any Node.isExportList

/-- What was linked with one more file, and the file's journal. -/
def read (c : Config) (used : Nat) (linked : Linked) (id : String) (d : Document)
    (scope : Scope) : Linked × Journal :=
  if endsInExports d then
    match d.exportsOn c scope with
    | (some table, journal) =>
      ({ linked with exports := linked.exports.put id table }, journal)
    | (none, journal) => (linked, journal)
  else
    match d.expandOn c used scope with
    | (some node, journal) => ({ linked with nodes := linked.nodes.put id node }, journal)
    | (none, journal) => (linked, journal)

/-- The linkage with one more file.  A file fails when anything about it is reported as an
error. -/
def add (c : Config) (units : Keyed LinkUnit) (outer : Scope) (l : Linkage) (id : String) :
    Linkage :=
  match units.get? id with
  | none => l
  | some u =>
    let (scope, resolved) := resolveOn c (l.bindable units u) l.linked.exports outer
    let (linked, readJournal) := read c l.journal.callCount l.linked id u.document scope
    let own := .report (l.listless units u) ++ resolved ++ readJournal
    { linked
      failed := if own.hasErrors then l.failed ++ [id] else l.failed
      journal := l.journal ++ own }

end Linkage

/-- What some files link to on an outer scope, and the journal. -/
def linkOn (c : Config) (sources : List SourceFile) (outer : Scope) : Option Linked × Journal :=
  let (units, journal) := linkUnits sources
  match (importGraph units).order with
  | .circle files =>
    (none, journal ++ .report [(Problem.importCycle files).diagnostic none])
  | .sorted files =>
    let start : Linkage :=
      ⟨⟨[], []⟩, [], journal ++ .line .log ("link order: " ++ ", ".intercalate files)⟩
    let l := files.foldl (Linkage.add c units outer) start
    (some l.linked, l.journal)

/-- The linking of some files on an outer scope. -/
def link (c : Config) (sources : List SourceFile) (outer : Scope) : Run Linked :=
  let (linked, journal) := linkOn c sources outer
  .ofJournal linked journal .link (.ofJournal c journal)

end Stencil
