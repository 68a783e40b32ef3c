import Stencil.Failure
import Stencil.Journal

/-!
# Outcomes

Every operation ends with an outcome: it is done and has a value, or it fails.  Either way
the outcome carries what else is known of the run: the warnings, the calls used, and the
trace if calls are traced.

An operation fails exactly when an error was reported; `Run.ofJournal` reads the outcome off
the journal of a run.
-/

namespace Stencil

/-- How much of the limits was used. -/
structure Budget where
  calls : Option Int
  depth : Option Int
deriving DecidableEq

/-- One step of a trace: a call with its number in the run. -/
structure Step where
  number : Nat
  call : Call
deriving DecidableEq

/-- What is known of a run beside its value. -/
structure RunInfo where
  span : Option Span
  warnings : List Diagnostic
  budget : Option Budget
  trace : Option (List Step)
deriving DecidableEq

namespace RunInfo

/-- Nothing is known. -/
def empty : RunInfo :=
  ⟨none, [], none, none⟩

/-- The steps of some calls, numbered from one. -/
def steps (calls : List Call) : List Step :=
  calls.zipIdx.map fun (call, i) => ⟨i + 1, call⟩

/-- What a journal tells of its run: the calls used, and the trace if calls are traced. -/
def ofJournal (c : Config) (j : Journal) : RunInfo where
  span := none
  warnings := []
  budget := some ⟨some j.callCount, some j.peak⟩
  trace := if c.trace then some (steps j.calls) else none

end RunInfo

/-- The end of an operation. -/
inductive Outcome (α : Type) where
  | done (value : α) (info : RunInfo)
  | fail (failure : Failure Diagnostic) (info : RunInfo)

namespace Outcome

variable {α β : Type}

/-- Whether an outcome is done. -/
def isDone : Outcome α → Bool
  | .done .. => true
  | .fail .. => false

/-- Whether an outcome is a failure. -/
def isFail (o : Outcome α) : Bool :=
  !o.isDone

/-- The outcome with a function applied to its value. -/
def map (f : α → β) : Outcome α → Outcome β
  | .done value info => .done (f value) info
  | .fail failure info => .fail failure info

/-- The outcome of an operation that goes on from the value of another. -/
def bind (f : α → Outcome β) : Outcome α → Outcome β
  | .done value _ => f value
  | .fail failure info => .fail failure info

/-- The value of an outcome, or its failure. -/
def toExcept : Outcome α → Except (Failure Diagnostic) α
  | .done value _ => .ok value
  | .fail failure _ => .error failure

/-- The value of an outcome, or another value in its place. -/
def getD (o : Outcome α) (default : α) : α :=
  match o with
  | .done value _ => value
  | .fail .. => default

/-- The summary of the errors of a failure. -/
def summary : List Diagnostic → String
  | [] => "no value and no error reported"
  | [d] => d.message
  | d :: rest => toString (rest.length + 1) ++ " errors, first: " ++ d.message

/-- The outcome of some diagnostics: done when none is an error, and otherwise a failure that
carries every error.  The diagnostics that are not errors ride along as warnings. -/
def ofDiagnostics (value : Option α) (diagnostics : List Diagnostic) (reason : FailureReason)
    (info : RunInfo) : Outcome α :=
  let errors := diagnostics.filter Diagnostic.isError
  let info := { info with warnings := diagnostics.filter fun d => !d.isError }
  match errors, value with
  | [], some value => .done value info
  | [], none => .fail (.ofReason .internal (summary []) []) info
  | errors, _ => .fail (.ofReason reason (summary errors) errors) info

end Outcome

/-- A finished operation: its outcome and the lines it logged. -/
structure Run (α : Type) where
  outcome : Outcome α
  log : List LogLine

/-- The run of an operation that left a journal, with repeated diagnostics merged. -/
def Run.ofJournal {α : Type} (value : Option α) (j : Journal) (reason : FailureReason)
    (info : RunInfo) : Run α :=
  ⟨.ofDiagnostics value (Diagnostic.distinct j.diagnostics) reason info, j.log⟩

end Stencil
