import Stencil.Diagnostic.Basic
import Stencil.Tree.Printer

/-!
# Problems

`Problem` lists what can be wrong with declarations, calls, directives and limits, cause by
cause.  Each cause belongs to a kind of diagnostics and gives the kind's parameters.
-/

namespace Stencil

/-- What can be wrong. -/
inductive Problem where
  /-- A bare entry of a declaration is not a string. -/
  | tparameterNotAName (template : String) (value : Scalar)
  /-- A declaration has no children. -/
  | missingBody (template : String)
  /-- A declared splice does not name just one tparameter. -/
  | malformedSplice (template : String)
  /-- A child that declares a node tparameter has entries. -/
  | defaultWithEntries (template tparameter : String)
  /-- A child that declares a node tparameter has no or several children. -/
  | defaultCount (template tparameter : String) (count : Nat)
  /-- A marker does not name just one tparameter, or has children. -/
  | malformedMarker
  | duplicateTparameter (template name : String)
  | mixedStyle (template : String)
  /-- An export entry is not a string. -/
  | exportNotAName
  | exportedTwice (name : String)
  | exportWithChildren
  /-- An import entry is not a name inside a file. -/
  | importNotQualified (value : Scalar)
  | importWithChildren
  | fileGivenTwice (file : String)
  | emptyDocument
  /-- An export list stands where a body is expected. -/
  | exportListAsBody
  /-- A body expands to no or several nodes. -/
  | bodyCount (count : Nat)
  | unknownTemplate (name : String)
  | unknownTparameter (template name : String)
  | unboundReference (name : String)
  | tooManyTarguments (template : String) (declared : Nat)
  | missingTargument (template name : String)
  | kindMismatch (name expected actual : String)
  | duplicateTargument (template name : String)
  | collision (name : String)
  | noSuchFile (file name : String)
  | notExported (file name : String)
  | unresolvedImport (file name : String)
  | noExportList (file name : String)
  | importCycle (files : List String)
  | limitReached (limit : String) (value : Number)
deriving DecidableEq

namespace Problem

/-- The kind of a problem. -/
def kind : Problem → Kind
  | .tparameterNotAName .. | .missingBody .. | .malformedSplice .. | .defaultWithEntries ..
  | .defaultCount .. | .malformedMarker => .malformedDeclaration
  | .duplicateTparameter .. => .duplicateTparameterName
  | .mixedStyle .. => .mixedDeclarationStyle
  | .exportNotAName | .exportedTwice .. | .exportWithChildren | .importNotQualified ..
  | .importWithChildren | .fileGivenTwice .. => .malformedDirective
  | .emptyDocument => .emptyDocument
  | .exportListAsBody | .bodyCount .. => .notANode
  | .unknownTemplate .. => .unknownTemplate
  | .unknownTparameter .. => .unknownTparameterName
  | .unboundReference .. => .unknownTparameterReference
  | .tooManyTarguments .. | .missingTargument .. => .arityMismatch
  | .kindMismatch .. => .argumentKindMismatch
  | .duplicateTargument .. => .duplicateTargument
  | .collision .. => .importCollision
  | .noSuchFile .. | .notExported .. | .unresolvedImport .. | .noExportList .. => .missingImport
  | .importCycle .. => .importCycle
  | .limitReached .. => .expansionLimit

/-- The parameters of a malformed declaration. -/
def ofDeclaration (name reason : String) : List (String × Parameter) :=
  [("name", .string name), ("reason", .string reason)]

/-- The parameters of a malformed directive. -/
def ofDirective (directive reason : String) : List (String × Parameter) :=
  [("directive", .string directive), ("reason", .string reason)]

/-- The parameters of an import that is missing from a file. -/
def ofImport (file name reason : String) : List (String × Parameter) :=
  [("name", .string (file ++ "/" ++ name)), ("reason", .string reason)]

/-- The parameters that concern one tparameter of a template. -/
def ofTemplate (template name : String) : List (String × Parameter) :=
  [("template", .string template), ("name", .string name)]

/-- The parameters that a problem gives to its kind's wording. -/
def parameters : Problem → List (String × Parameter)
  | .tparameterNotAName template value =>
    ofDeclaration template ("tparameter must be a name, got " ++ value.citation)
  | .missingBody template => ofDeclaration template "template has no body"
  | .malformedSplice template =>
    ofDeclaration template "expand takes exactly one string argument"
  | .defaultWithEntries template tparameter =>
    ofDeclaration template
      ("default of node tparameter '" ++ tparameter ++ "' cannot carry entries")
  | .defaultCount template tparameter count =>
    ofDeclaration template
      ("node tparameter '" ++ tparameter ++ "' needs exactly one default node, got " ++
        toString count)
  | .malformedMarker =>
    ofDeclaration expandWord "expand takes exactly one string argument and no children"
  | .duplicateTparameter template name => ofTemplate template name
  | .mixedStyle template => [("template", .string template)]
  | .exportNotAName => ofDirective exportWord "expected a template name"
  | .exportedTwice name => ofDirective exportWord ("'" ++ name ++ "' is exported twice")
  | .exportWithChildren => ofDirective exportWord "export takes no children"
  | .importNotQualified value =>
    ofDirective importWord ("expected \"file/name\", got " ++ value.citation)
  | .importWithChildren => ofDirective importWord "import takes no children"
  | .fileGivenTwice file => ofDirective "link" ("file '" ++ file ++ "' is given twice")
  | .emptyDocument => []
  | .exportListAsBody => [("actual", .string "an export list")]
  | .bodyCount count => [("actual", .string (toString count ++ " nodes"))]
  | .unknownTemplate name => [("name", .string name)]
  | .unknownTparameter template name => ofTemplate template name
  | .unboundReference name => [("name", .string name)]
  | .tooManyTarguments template declared =>
    [("template", .string template),
      ("reason", .string ("too many targuments, " ++ toString declared ++ " declared"))]
  | .missingTargument template name =>
    [("template", .string template),
      ("reason", .string ("missing targument '" ++ name ++ "'"))]
  | .kindMismatch name expected actual =>
    [("name", .string name), ("expected", .string expected), ("actual", .string actual)]
  | .duplicateTargument template name => ofTemplate template name
  | .collision name => [("name", .string name)]
  | .noSuchFile file name => ofImport file name ("no file '" ++ file ++ "'")
  | .notExported file name =>
    ofImport file name ("file '" ++ file ++ "' does not export it")
  | .unresolvedImport file name =>
    ofImport file name
      "the import directive is not resolved; bind it with resolveImports or linkDocuments"
  | .noExportList file name =>
    ofImport file name ("file '" ++ file ++ "' has no export list")
  | .importCycle files => [("files", .string (", ".intercalate files))]
  | .limitReached limit value => [("limit", .string limit), ("value", .number value)]

/-- The diagnostic of a problem. -/
def diagnostic (p : Problem) (span : Option Span) : Diagnostic :=
  .make p.kind (some p.parameters) span

/-- The diagnostic of a problem found at a span. -/
def reportedAt (p : Problem) (span : Span) : Diagnostic :=
  p.diagnostic (some span)

end Problem

end Stencil
