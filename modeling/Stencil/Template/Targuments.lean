import Stencil.Diagnostic.Problem
import Stencil.Scope.Lookup

/-!
# Binding the targuments of a call

A call gives targuments to the tparameters of a template in three ways: by properties, by
holders, which are the children that bear the name of a tparameter, and by bare arguments,
which fill the tparameters that are still open in the order of their declaration.  Defaults
fill the rest.

`Template.bindCall` pushes the call's frame on the template's home scope, or finds what
keeps the call from being made.
-/

namespace Stencil

/-! ## Values -/

/-- A value as it is read under a scope: a string that is the name of a bound value stands
for that value.  Names of templates do not count, and names of nodes and splices are a
mistake. -/
def Scope.valueOf (s : Scope) (v : Spanned Scalar) : Spanned Scalar × List Diagnostic :=
  match v.inner with
  | .string name =>
    match s.lookup name with
    | none | some (.template ..) => (v, [])
    | some (.value bound) => (bound, [])
    | some b => (v, [(Problem.kindMismatch name "value" b.description).reportedAt v.span])
  | _ => (v, [])

/-- An entry with its value as it is read under a scope. -/
def Scope.entryOf (s : Scope) (e : Entry) : Entry × List Diagnostic :=
  let (value, problems) := s.valueOf e.value
  ({ e with value }, problems)

namespace Template

/-! ## Targuments given by name -/

/-- A targument given by name. -/
inductive Offer where
  /-- It cannot be taken. -/
  | refused (problem : Diagnostic)
  /-- It binds a tparameter, unless that is bound already. -/
  | made (name : String) (binding : Binding) (problems : List Diagnostic) (span : Span)

/-- The offer that an entry makes; a bare one makes none. -/
def offerOfEntry? (t : Template) (scope : Scope) (e : Entry) : Option Offer :=
  match e.name with
  | none => none
  | some name =>
    some <|
      match t.tparameter? name.inner with
      | none => .refused ((Problem.unknownTparameter t.name name.inner).reportedAt name.span)
      | some p =>
        if p.form.takesValue then
          let (value, problems) := scope.valueOf e.value
          .made p.name (.value value) problems e.span
        else
          .refused ((Problem.kindMismatch p.name p.form.expectation "value").reportedAt e.span)

/-- What a holder holds for a tparameter of a form, if its shape is right. -/
def held? (scope : Scope) (form : TparameterForm) (holder : Node) :
    Option (Binding × List Diagnostic) :=
  match form with
  | .positional | .named _ =>
    match holder.entries, holder.children with
    | [⟨none, value, _⟩], [] =>
      let (value, problems) := scope.valueOf value
      some (.value value, problems)
    | _, _ => none
  | .node _ =>
    match holder.entries, holder.children with
    | [], [child] => some (.node child scope, [])
    | _, _ => none
  | .splice _ =>
    match holder.entries with
    | [] => some (.splice holder.children scope, [])
    | _ => none

/-- The shape of a holder, in words. -/
def shape (holder : Node) : String :=
  toString holder.entries.length ++ " entries and " ++ toString holder.children.length ++
    " children"

/-- The offer that a holder makes. -/
def offerOfHolder (t : Template) (scope : Scope) (holder : Node) : Offer :=
  match t.tparameter? holder.name.inner with
  | none =>
    .refused ((Problem.unknownTparameter t.name holder.name.inner).reportedAt holder.name.span)
  | some p =>
    match held? scope p.form holder with
    | some (binding, problems) => .made p.name binding problems holder.span
    | none =>
      .refused
        ((Problem.kindMismatch p.name p.form.expectation (shape holder)).reportedAt holder.span)

/-- The targuments that a call gives by name: its properties, then its holders. -/
def offers (t : Template) (call : Node) (scope : Scope) : List Offer :=
  call.entries.filterMap (t.offerOfEntry? scope) ++ call.children.map (t.offerOfHolder scope)

/-! ## Settling the call -/

/-- The state of a call being bound. -/
structure Settlement where
  bound : Keyed Binding
  problems : List Diagnostic
  /-- Whether nothing so far keeps the call from being made. -/
  sound : Bool

namespace Settlement

/-- The settlement of a call that gives nothing. -/
def empty : Settlement :=
  ⟨[], [], true⟩

/-- The settlement with a problem that keeps the call from being made. -/
def refuse (s : Settlement) (problem : Diagnostic) : Settlement :=
  { s with problems := s.problems ++ [problem], sound := false }

/-- The settlement with a tparameter bound. -/
def take (s : Settlement) (name : String) (binding : Binding) (problems : List Diagnostic) :
    Settlement :=
  { s with bound := s.bound ++ [(name, binding)], problems := s.problems ++ problems }

/-- The settlement after an offer: of two for one tparameter, the first is taken. -/
def settle (template : String) (s : Settlement) : Offer → Settlement
  | .refused problem => s.refuse problem
  | .made name binding problems span =>
    if s.bound.has name then
      { s with problems := s.problems ++ problems }.refuse
        ((Problem.duplicateTargument template name).reportedAt span)
    else s.take name binding problems

end Settlement

/-- The tparameters that a settlement leaves open, in the order of declaration. -/
def openTparameters (t : Template) (s : Settlement) : List Tparameter :=
  t.tparameters.filter fun p => !s.bound.has p.name

/-- The settlement after bare arguments have filled open tparameters one by one. -/
def fillOpen (t : Template) (scope : Scope) :
    List Tparameter → List Entry → Settlement → Settlement
  | _, [], s => s
  | [], e :: rest, s =>
    fillOpen t scope [] rest
      (s.refuse
        ((Problem.tooManyTarguments t.name t.tparameters.length).reportedAt e.span))
  | p :: unfilled, e :: rest, s =>
    fillOpen t scope unfilled rest <|
      if p.form.takesValue then
        let (value, problems) := scope.valueOf e.value
        s.take p.name (.value value) problems
      else
        s.refuse ((Problem.kindMismatch p.name p.form.expectation "value").reportedAt e.span)

/-- The settlement after a tparameter that is still open has taken its default. -/
def fillDefault (t : Template) (call : Node) (s : Settlement) (p : Tparameter) : Settlement :=
  if s.bound.has p.name then s
  else
    match p.form with
    | .positional =>
      s.refuse ((Problem.missingTargument t.name p.name).reportedAt call.span)
    | .named default =>
      let (value, problems) := t.home.valueOf default
      s.take p.name (.value value) problems
    | .node default => s.take p.name (.node default t.home) []
    | .splice default => s.take p.name (.splice default t.home) []

/-- How a call is settled: the targuments given by name, the bare ones, the defaults. -/
def settlement (t : Template) (call : Node) (scope : Scope) : Settlement :=
  let named := (t.offers call scope).foldl (Settlement.settle t.name) .empty
  let filled := fillOpen t scope (t.openTparameters named) call.arguments named
  t.tparameters.foldl (t.fillDefault call) filled

/-- The bindings of a settled call, in the order of the tparameters' declaration. -/
def frameBindings (t : Template) (s : Settlement) : List (String × Binding) :=
  t.tparameters.filterMap fun p => (s.bound.get? p.name).map fun b => (p.name, b)

/-- The scope under which the body of a template is read in a call, if the call can be made,
and the problems found. -/
def bindCall (t : Template) (call : Node) (scope : Scope) : Option Scope × List Diagnostic :=
  let s := t.settlement call scope
  (if s.sound then some (t.home.extend (t.frameBindings s) .call) else none, s.problems)

end Template

end Stencil
