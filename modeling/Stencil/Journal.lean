import Stencil.Config.Basic
import Stencil.Diagnostic.Problem

/-!
# Journals

A journal is what a run of the engine leaves behind beside its result: the diagnostics it
reported, the template calls it made and the lines it logged, each in order.  Journals of
successive runs are joined by appending.

The number of calls and the greatest depth, which the limits are about, are read off the
list of calls.
-/

namespace Stencil

/-- One call of a template. -/
structure Call where
  /-- The name under which the template was called. -/
  template : String
  depth : Int
  /-- The span of the call. -/
  span : Span
deriving DecidableEq

/-- What a run leaves behind beside its result. -/
structure Journal where
  diagnostics : List Diagnostic
  calls : List Call
  log : List LogLine
deriving DecidableEq

namespace Journal

/-- The journal of a run that did nothing. -/
def empty : Journal :=
  ⟨[], [], []⟩

/-- The journal of one run after another. -/
def append (a b : Journal) : Journal :=
  ⟨a.diagnostics ++ b.diagnostics, a.calls ++ b.calls, a.log ++ b.log⟩

instance : Append Journal := ⟨append⟩

/-- The journal that reports some diagnostics. -/
def report (diagnostics : List Diagnostic) : Journal :=
  ⟨diagnostics, [], []⟩

/-- The journal that logs one line. -/
def line (channel : Channel) (text : String) : Journal :=
  ⟨[], [], [⟨channel, text⟩]⟩

/-- The number of errors reported. -/
def errorCount (j : Journal) : Nat :=
  j.diagnostics.countP Diagnostic.isError

/-- Whether an error was reported. -/
def hasErrors (j : Journal) : Bool :=
  j.diagnostics.any Diagnostic.isError

/-- The number of calls made. -/
def callCount (j : Journal) : Nat :=
  j.calls.length

/-- The greatest depth of a call. -/
def peak (j : Journal) : Int :=
  j.calls.foldl (fun depth call => max depth call.depth) 0

/-- The report of a name bound twice across imports, or by an import and a declaration: an
error, or a warning and a logged line, as the policy has it. -/
def collision (policy : CollisionPolicy) (name : String) (span : Span) (previous : String) :
    Journal :=
  let diagnostic := (Problem.collision name).reportedAt span
  match policy with
  | .error => report [diagnostic]
  | .lastWins =>
    report [{ diagnostic with severity := .warning }] ++
      line .warn ("'" ++ name ++ "' now shadows the template from " ++ previous)

/-! ## One journal after another -/

variable {a b : Journal}

@[simp] theorem diagnostics_append : (a ++ b).diagnostics = a.diagnostics ++ b.diagnostics :=
  rfl

@[simp] theorem calls_append : (a ++ b).calls = a.calls ++ b.calls :=
  rfl

@[simp] theorem diagnostics_report (ds : List Diagnostic) : (report ds).diagnostics = ds :=
  rfl

@[simp] theorem calls_report (ds : List Diagnostic) : (report ds).calls = [] :=
  rfl

@[simp] theorem diagnostics_line (channel : Channel) (text : String) :
    (line channel text).diagnostics = [] :=
  rfl

@[simp] theorem calls_line (channel : Channel) (text : String) : (line channel text).calls = [] :=
  rfl

@[simp] theorem diagnostics_empty : empty.diagnostics = [] :=
  rfl

@[simp] theorem calls_empty : empty.calls = [] :=
  rfl

@[simp] theorem hasErrors_append : (a ++ b).hasErrors = (a.hasErrors || b.hasErrors) :=
  List.any_append

/-- A collision makes no call. -/
@[simp] theorem calls_collision (policy : CollisionPolicy) (name : String) (span : Span)
    (previous : String) : (collision policy name span previous).calls = [] := by
  cases policy <;> rfl

end Journal

end Stencil
