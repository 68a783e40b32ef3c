import Stencil.Journal
import Stencil.Template.Declaration
import Stencil.Template.References

/-!
# Collecting the declarations of a document

A document is an optional import directive, declarations, and a terminal node: its body or
its export list.  Declarations are bound one after another, so each is read under a scope
that holds just the ones before it.
-/

namespace Stencil

namespace Document

/-- The last node of a document, unless it is the import directive. -/
def terminal? (d : Document) : Option Node :=
  d.content.getLast?

/-- The nodes between the import directive and the terminal node. -/
def declarations (d : Document) : List Node :=
  d.content.dropLast

/-- The report of a document without nodes. -/
def emptyReport (d : Document) : Journal :=
  .report [Problem.emptyDocument.reportedAt d.span]

end Document

/-! ## Declarations -/

/-- The scope of some declarations, how many of them were well formed, and the journal. -/
structure Collection where
  scope : Scope
  wellFormed : Nat
  journal : Journal

namespace Collection

/-- The report of a declaration whose name an import has taken. -/
def collision (policy : CollisionPolicy) (scope : Scope) (name : Spanned String) : Journal :=
  match scope.lookup name.inner with
  | some (.template _ .imported file _) =>
    .collision policy name.inner name.span ("file '" ++ file.getD "?" ++ "'")
  | _ => .empty

/-- A collection with one more declaration.  A malformed one is bound as well, so that its
name is not taken for an unknown one. -/
def add (policy : CollisionPolicy) (c : Collection) (decl : Node) : Collection :=
  let clash := collision policy c.scope decl.name
  let bound (template : Option Template) : Scope :=
    c.scope.bind decl.name.inner (.template template .declared none decl.name.span) .declaration
  match Template.ofDeclaration decl c.scope with
  | .ok template =>
    { scope := bound (some template)
      wellFormed := c.wellFormed + 1
      journal := c.journal ++ clash ++ .report template.allBadReferences }
  | .error problems =>
    { scope := bound none
      wellFormed := c.wellFormed
      journal := c.journal ++ clash ++ .report problems }

/-- The collection of some declarations on an outer scope. -/
def ofDeclarations (policy : CollisionPolicy) (declarations : List Node) (outer : Scope) :
    Collection :=
  declarations.foldl (add policy)
    ⟨outer.enterDocument (declarations.map fun d => d.name.inner), 0, .empty⟩

end Collection

/-- The scope of some declarations on an outer scope, and the journal. -/
def collect (policy : CollisionPolicy) (declarations : List Node) (outer : Scope) :
    Scope × Journal :=
  let c := Collection.ofDeclarations policy declarations outer
  (c.scope, c.journal ++
    .line .log ("collected " ++ toString c.wellFormed ++ "/" ++
      toString declarations.length ++ " templates"))

end Stencil
