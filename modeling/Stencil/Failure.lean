import Stencil.Data.Basic

/-!
# Failures

A failure says why an operation has no result: a reason, a message and diagnostics.  It may
have been caused by another failure.
-/

namespace Stencil

/-- The reasons of failures. -/
inductive FailureReason where
  | declaration
  | expansion
  | imports
  | link
  | config
  | internal
  /-- A reason of the caller's own. -/
  | other (text : String)
deriving DecidableEq

namespace FailureReason

/-- The reasons that the engine gives. -/
def engine : List FailureReason :=
  [.declaration, .expansion, .imports, .link, .config, .internal]

/-- The text of a reason. -/
def text : FailureReason → String
  | .declaration => "declaration-failed"
  | .expansion => "expansion-failed"
  | .imports => "import-failed"
  | .link => "link-failed"
  | .config => "invalid-config"
  | .internal => "internal-error"
  | .other text => text

/-- The reason of a text. -/
def ofText (text : String) : FailureReason :=
  (engine.find? fun r => r.text == text).getD (.other text)

end FailureReason

/-- Why an operation has no result. -/
structure Failure (δ : Type) where
  reason : FailureReason
  message : String
  diagnostics : List δ
  recoverable : Bool
  context : Option Data
  cause : Option (Failure δ)

namespace Failure

variable {δ : Type}

/-- A failure with a reason, a message and some diagnostics only. -/
def ofReason (reason : FailureReason) (message : String) (diagnostics : List δ) : Failure δ :=
  ⟨reason, message, diagnostics, false, none, none⟩

/-- The failure with a function applied to every diagnostic along the chain of causes. -/
def map {ε : Type} (f : δ → ε) : Failure δ → Failure ε
  | ⟨reason, message, diagnostics, recoverable, context, none⟩ =>
    ⟨reason, message, diagnostics.map f, recoverable, context, none⟩
  | ⟨reason, message, diagnostics, recoverable, context, some cause⟩ =>
    ⟨reason, message, diagnostics.map f, recoverable, context, some (cause.map f)⟩

/-- The members of a list that are not among those seen, each once. -/
def unseen [BEq δ] (seen : List δ) : List δ → List δ
  | [] => []
  | d :: rest => if seen.contains d then unseen seen rest else d :: unseen (d :: seen) rest

/-- The diagnostics along the chain of causes that are not among those seen, each once. -/
def diagnosticsFrom [BEq δ] (seen : List δ) : Failure δ → List δ
  | ⟨_, _, diagnostics, _, _, none⟩ => unseen seen diagnostics
  | ⟨_, _, diagnostics, _, _, some cause⟩ =>
    unseen seen diagnostics ++ cause.diagnosticsFrom (diagnostics ++ seen)

/-- The diagnostics along the chain of causes, each once, in order. -/
def allDiagnostics [BEq δ] (f : Failure δ) : List δ :=
  f.diagnosticsFrom []

end Failure

end Stencil
