import Stencil.Keyed
import Stencil.Tree.Basic

/-!
# Scopes

A scope is a chain of frames that bind names.  Frames are only ever pushed, so a scope sees
exactly what its chain held when it was made.

A template captures the scope at its declaration, its home, and the arguments of a call
capture the scope of the call.  Scopes, bindings and templates are therefore one inductive
family: a scope can only hold what was made before it, and captured scopes nest to a finite
depth.
-/

namespace Stencil

/-- What a tparameter, a formal parameter of a template, takes, and the default it falls
back on. -/
inductive TparameterForm where
  /-- A required value. -/
  | positional
  /-- A value with a default. -/
  | named (default : Spanned Scalar)
  /-- A node with a default. -/
  | node (default : Node)
  /-- A list of nodes, inserted at an expand marker, with a default. -/
  | splice (default : List Node)

/-- A formal parameter of a template. -/
structure Tparameter where
  name : String
  span : Span
  form : TparameterForm

/-- The style in which a template declares its values. -/
inductive DeclarationStyle where
  | positional
  | named
  | none
deriving DecidableEq, Repr

/-- Where a template binding comes from. -/
inductive Origin where
  /-- A declaration of the document. -/
  | declared
  /-- An import. -/
  | imported
deriving DecidableEq, Repr

/-- What a frame was pushed for. -/
inductive FrameKind where
  | root
  | external
  | imports
  | document
  | declaration
  | call
deriving DecidableEq, Repr

mutual

/-- A chain of frames. -/
inductive Scope where
  /-- The scope that binds nothing. -/
  | root
  /-- A frame of bindings on a parent scope.  `declared` lists the templates that the
  current document declares, anywhere in it. -/
  | frame (parent : Scope) (kind : FrameKind) (bindings : List (String × Binding))
      (declared : Option (List String))

/-- What a name is bound to. -/
inductive Binding where
  /-- A template; absent when its declaration was malformed. -/
  | template (template : Option Template) (origin : Origin) (file : Option String)
      (span : Span)
  /-- A value. -/
  | value (value : Spanned Scalar)
  /-- A node, to be read under its own scope. -/
  | node (node : Node) (scope : Scope)
  /-- Nodes to be inserted at an expand marker, to be read under their own scope. -/
  | splice (nodes : List Node) (scope : Scope)

/-- A declared template. -/
structure Template where
  name : String
  tparameters : List Tparameter
  body : Node
  /-- The scope at the declaration; the body is always read under it. -/
  home : Scope
  style : DeclarationStyle
  span : Span

end

/-! ## Names and descriptions -/

namespace FrameKind

/-- Every frame kind. -/
def all : List FrameKind :=
  [.root, .external, .imports, .document, .declaration, .call]

/-- The name of a frame kind. -/
def name : FrameKind → String
  | .root => "root"
  | .external => "external"
  | .imports => "import"
  | .document => "document"
  | .declaration => "declaration"
  | .call => "call"

/-- The frame kind of a name. -/
def ofName? (name : String) : Option FrameKind :=
  all.find? fun k => k.name == name

end FrameKind

namespace DeclarationStyle

/-- The name of a style. -/
def name : DeclarationStyle → String
  | .positional => "positional"
  | .named => "named"
  | .none => "none"

end DeclarationStyle

namespace Origin

/-- The name of an origin. -/
def name : Origin → String
  | .declared => "local"
  | .imported => "import"

end Origin

namespace TparameterForm

/-- The name of a form. -/
def name : TparameterForm → String
  | .positional => "positional"
  | .named _ => "named"
  | .node _ => "node"
  | .splice _ => "expand"

/-- Whether a tparameter of this form takes a value. -/
def takesValue : TparameterForm → Bool
  | .positional | .named _ => true
  | .node _ | .splice _ => false

/-- What a tparameter of this form expects of a call. -/
def expectation : TparameterForm → String
  | .positional | .named _ => "a single value"
  | .node _ => "a single child node"
  | .splice _ => "children without entries"

end TparameterForm

namespace Binding

/-- What a binding is called in a message. -/
def description : Binding → String
  | .template .. => "template"
  | .value ⟨.string _, _⟩ => "string value"
  | .value _ => "scalar value"
  | .node .. => "node"
  | .splice .. => "expand children"

/-- Whether a binding is a template. -/
def isTemplate : Binding → Bool
  | .template .. => true
  | _ => false

/-- Whether a binding is a template imported from a file. -/
def isImportFrom (file : String) : Binding → Bool
  | .template _ .imported (some other) _ => other == file
  | _ => false

end Binding

namespace Template

/-- The tparameter of a name. -/
def tparameter? (t : Template) (name : String) : Option Tparameter :=
  t.tparameters.find? fun p => p.name == name

end Template

end Stencil
