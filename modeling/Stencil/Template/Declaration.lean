import Stencil.Diagnostic.Problem
import Stencil.Scope.Basic

/-!
# Reading a declaration

A declaration is a node whose last child is the body of the template.  Its entries declare
value tparameters, all positional or all named; its other children declare node tparameters
and splices.

`Template.ofDeclaration` reads a declaration or lists everything that is wrong with it.
-/

namespace Stencil

namespace Template

/-! ## Value tparameters -/

/-- The tparameter that an entry of a declaration declares. -/
def tparameterOfEntry (template : String) (e : Entry) : Except Diagnostic Tparameter :=
  match e.name with
  | some name => .ok ⟨name.inner, name.span, .named e.value⟩
  | none =>
    match e.value.inner with
    | .string s => .ok ⟨s, e.value.span, .positional⟩
    | value => .error ((Problem.tparameterNotAName template value).reportedAt e.span)

/-- The style of the tparameter that an entry declares, if it declares one. -/
def entryStyle? (e : Entry) : Option DeclarationStyle :=
  match e.name, e.value.inner with
  | some _, _ => some .named
  | none, .string _ => some .positional
  | none, _ => none

/-- The style of a declaration's entries, which the first tparameter settles. -/
def styleOf (entries : List Entry) : DeclarationStyle :=
  (entries.filterMap entryStyle?).head?.getD .none

/-- The first entry that is not of the style of the entries before it. -/
def mixedAt? (entries : List Entry) : Option Entry :=
  entries.find? fun e =>
    match entryStyle? e with
    | some style => style != styleOf entries
    | none => false

/-- The report of a declaration of mixed style. -/
def mixedStyle (template : String) (entries : List Entry) : List Diagnostic :=
  match mixedAt? entries with
  | some e => [(Problem.mixedStyle template).reportedAt e.span]
  | none => []

/-! ## Node tparameters and splices -/

/-- The tparameter that a child of a declaration declares. -/
def tparameterOfChild (template : String) (child : Node) : Except Diagnostic Tparameter :=
  if child.name.inner = expandWord then
    match child.soleString? with
    | some target => .ok ⟨target.inner, target.span, .splice child.children⟩
    | none => .error ((Problem.malformedSplice template).reportedAt child.span)
  else if child.entries ≠ [] then
    .error ((Problem.defaultWithEntries template child.name.inner).reportedAt child.span)
  else
    match child.children with
    | [default] => .ok ⟨child.name.inner, child.name.span, .node default⟩
    | children =>
      .error ((Problem.defaultCount template child.name.inner children.length).reportedAt
        child.span)

/-! ## The declaration -/

/-- What was read. -/
def successes (read : List (Except Diagnostic Tparameter)) : List Tparameter :=
  read.filterMap Except.toOption

/-- What could not be read. -/
def faults (read : List (Except Diagnostic Tparameter)) : List Diagnostic :=
  read.filterMap fun
    | .error d => some d
    | .ok _ => none

/-- The reports of tparameters whose names are among those seen or come again. -/
def repeats (template : String) (seen : List String) : List Tparameter → List Diagnostic
  | [] => []
  | p :: rest =>
    (if seen.contains p.name then
      [(Problem.duplicateTparameter template p.name).reportedAt p.span] else []) ++
      repeats template (p.name :: seen) rest

/-- The template that a node declares under a home scope, or all that is wrong with the
declaration. -/
def ofDeclaration (decl : Node) (home : Scope) : Except (List Diagnostic) Template :=
  let name := decl.name.inner
  let entries := decl.entries.map (tparameterOfEntry name)
  let mixed := mixedStyle name decl.entries
  match decl.children.getLast? with
  | none =>
    .error (faults entries ++ mixed ++ [(Problem.missingBody name).reportedAt decl.span])
  | some body =>
    let children := decl.children.dropLast.map (tparameterOfChild name)
    let tparameters := successes entries ++ successes children
    let problems := faults entries ++ mixed ++ faults children ++ repeats name [] tparameters
    if problems.isEmpty then
      .ok { name, tparameters, body, home, style := styleOf decl.entries, span := decl.span }
    else .error problems

end Template

end Stencil
