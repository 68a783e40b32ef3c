/-!
# Kinds of diagnostics

Every problem is of one kind.  A kind has a name, a code and a wording whose placeholders
the diagnostic's parameters fill.
-/

namespace Stencil

/-- How grave a diagnostic is. -/
inductive Severity where
  | error
  | warning
  | info
  | hint
deriving DecidableEq, Repr

namespace Severity

/-- Every severity, the gravest first. -/
def all : List Severity :=
  [.error, .warning, .info, .hint]

/-- The name of a severity. -/
def name : Severity → String
  | .error => "error"
  | .warning => "warning"
  | .info => "info"
  | .hint => "hint"

/-- The severity of a name. -/
def ofName? (name : String) : Option Severity :=
  all.find? fun s => s.name == name

end Severity

/-- The kinds of problems. -/
inductive Kind where
  | malformedDeclaration
  | duplicateTparameterName
  | mixedDeclarationStyle
  | malformedDirective
  | emptyDocument
  | notANode
  | unknownTemplate
  | unknownTparameterName
  | unknownTparameterReference
  | arityMismatch
  | argumentKindMismatch
  | duplicateTargument
  | importCollision
  | missingImport
  | importCycle
  | expansionLimit
deriving DecidableEq, Repr

namespace Kind

/-- The name, code and wording of a kind. -/
structure Entry where
  name : String
  code : String
  wording : String

/-- What is known of each kind. -/
def entry : Kind → Entry
  | .malformedDeclaration =>
    ⟨"MalformedDeclaration", "N0001", "Malformed declaration of '\x7bname\x7d': \x7breason\x7d"⟩
  | .duplicateTparameterName =>
    ⟨"DuplicateTparameterName", "N0002",
      "Template '\x7btemplate\x7d' declares tparameter '\x7bname\x7d' more than once"⟩
  | .mixedDeclarationStyle =>
    ⟨"MixedDeclarationStyle", "N0003",
      "Template '\x7btemplate\x7d' mixes positional and named tparameters"⟩
  | .malformedDirective =>
    ⟨"MalformedDirective", "N0004", "Malformed \x7bdirective\x7d entry: \x7breason\x7d"⟩
  | .emptyDocument => ⟨"EmptyDocument", "N0005", "Document has no nodes"⟩
  | .notANode => ⟨"NotANode", "N0006", "Expected a single node, got \x7bactual\x7d"⟩
  | .unknownTemplate =>
    ⟨"UnknownTemplate", "N0100", "Template '\x7bname\x7d' is not visible here"⟩
  | .unknownTparameterName =>
    ⟨"UnknownTparameterName", "N0101",
      "Template '\x7btemplate\x7d' has no tparameter '\x7bname\x7d'"⟩
  | .unknownTparameterReference =>
    ⟨"UnknownTparameterReference", "N0102", "No tparameter '\x7bname\x7d' is bound here"⟩
  | .arityMismatch =>
    ⟨"ArityMismatch", "N0103",
      "Wrong number of targuments for '\x7btemplate\x7d': \x7breason\x7d"⟩
  | .argumentKindMismatch =>
    ⟨"ArgumentKindMismatch", "N0104",
      "Kind mismatch for '\x7bname\x7d': expected \x7bexpected\x7d, got \x7bactual\x7d"⟩
  | .duplicateTargument =>
    ⟨"DuplicateTargument", "N0105",
      "Tparameter '\x7bname\x7d' of '\x7btemplate\x7d' is bound more than once"⟩
  | .importCollision =>
    ⟨"ImportCollision", "N0200", "Name '\x7bname\x7d' is already bound by an import"⟩
  | .missingImport => ⟨"MissingImport", "N0201", "Cannot import '\x7bname\x7d': \x7breason\x7d"⟩
  | .importCycle => ⟨"ImportCycle", "N0202", "Import cycle between \x7bfiles\x7d"⟩
  | .expansionLimit =>
    ⟨"ExpansionLimit", "N0300", "Expansion limit reached: \x7blimit\x7d = \x7bvalue\x7d"⟩

/-- The name of a kind. -/
def name (k : Kind) : String :=
  k.entry.name

/-- The code of a kind. -/
def code (k : Kind) : String :=
  k.entry.code

/-- The wording of a kind. -/
def wording (k : Kind) : String :=
  k.entry.wording

/-- How grave a diagnostic of a kind is, unless it is lowered. -/
def severity (_ : Kind) : Severity :=
  .error

/-- Every kind, in the order of the codes. -/
def all : List Kind :=
  [.malformedDeclaration, .duplicateTparameterName, .mixedDeclarationStyle,
    .malformedDirective, .emptyDocument, .notANode, .unknownTemplate, .unknownTparameterName,
    .unknownTparameterReference, .arityMismatch, .argumentKindMismatch, .duplicateTargument,
    .importCollision, .missingImport, .importCycle, .expansionLimit]

/-- The kind of a name. -/
def ofName? (name : String) : Option Kind :=
  all.find? fun k => k.name == name

end Kind

end Stencil
