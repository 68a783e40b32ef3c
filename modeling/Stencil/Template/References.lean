import Stencil.Diagnostic.Problem
import Stencil.Scope.Lookup

/-!
# Checking the references of a template

When a template is declared, its body and defaults are searched for references that can
never be right: names of the document's templates that are not visible at the declaration,
and expand markers that name no tparameter.  So a forward reference fails even where the
template is never called.

The search follows the way a body is read.  The children of a call of a visible template
are holders, whose names are tparameters; only what they hold belongs to the body.  The
children of a node tparameter's name are dropped with it.
-/

namespace Stencil

namespace Template

variable (home : Scope) (tparameters : List Tparameter)

mutual

/-- The bad references of a node, read under a home scope with some tparameters. -/
def badReferences : Node → List Diagnostic
  | ⟨name, entries, children, span⟩ =>
    if name.inner = expandWord then
      match (Node.mk name entries children span).soleString? with
      | some target =>
        if tparameters.any fun p => p.name == target.inner then []
        else [(Problem.unboundReference target.inner).reportedAt target.span]
      | none => []
    else
      match tparameters.find? fun p => p.name == name.inner with
      | some ⟨_, _, .node _⟩ => []
      | some _ => badReferencesOfAll children
      | none =>
        match home.lookup name.inner with
        | some (.template ..) => badReferencesOfHolders children
        | some _ => badReferencesOfAll children
        | none =>
          (if home.declares name.inner then
            [(Problem.unknownTemplate name.inner).reportedAt name.span] else []) ++
            badReferencesOfAll children

/-- The bad references of a list of nodes. -/
def badReferencesOfAll : List Node → List Diagnostic
  | [] => []
  | n :: rest => badReferences n ++ badReferencesOfAll rest

/-- The bad references inside the holders of a call. -/
def badReferencesOfHolders : List Node → List Diagnostic
  | [] => []
  | ⟨_, _, held, _⟩ :: rest => badReferencesOfAll held ++ badReferencesOfHolders rest

end

/-- The bad references of a tparameter's default, which sees no tparameters. -/
def badReferencesOfDefault (p : Tparameter) : List Diagnostic :=
  match p.form with
  | .node default => badReferences home [] default
  | .splice default => badReferencesOfAll home [] default
  | .positional | .named _ => []

/-- The bad references of a template: those of its body, then those of its defaults. -/
def allBadReferences (t : Template) : List Diagnostic :=
  badReferences t.home t.tparameters t.body ++
    t.tparameters.flatMap (badReferencesOfDefault t.home)

end Template

end Stencil
