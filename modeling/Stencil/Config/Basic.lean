import Stencil.Log
import Stencil.Number.Shortest

/-!
# Configuration

A configuration bounds the expansion, says what happens when an import meets a name that is
already a template, and sets the level of the console.  A partial configuration gives some
of the fields; `Config.override` lays it over a full one.
-/

namespace Stencil

/-- What happens when a name is bound twice across imports, or by an import and a
declaration. -/
inductive CollisionPolicy where
  /-- The second binding is an error. -/
  | error
  /-- The second binding shadows the first, with a warning. -/
  | lastWins
deriving DecidableEq, Repr

namespace CollisionPolicy

/-- The name of a policy. -/
def name : CollisionPolicy → String
  | .error => "error"
  | .lastWins => "last-wins"

/-- The policy of a name. -/
def ofName? (name : String) : Option CollisionPolicy :=
  [.error, .lastWins].find? fun p => p.name == name

end CollisionPolicy

/-- The settings of the engine. -/
structure Config where
  /-- The deepest nesting of template calls. -/
  maxDepth : Number
  /-- The most template calls of one run. -/
  maxCalls : Number
  /-- Whether each call is recorded in the trace. -/
  trace : Bool
  collisions : CollisionPolicy
  level : LogLevel
deriving DecidableEq

/-- Some of the settings. -/
structure PartialConfig where
  maxDepth : Option Number
  maxCalls : Option Number
  trace : Option Bool
  collisions : Option CollisionPolicy
  level : Option LogLevel
deriving DecidableEq

/-- The partial configuration that sets nothing. -/
def PartialConfig.empty : PartialConfig :=
  ⟨none, none, none, none, none⟩

namespace Config

/-- The settings where nothing else is said. -/
def default : Config where
  maxDepth := .ofInt 256
  maxCalls := .ofInt 100000
  trace := false
  collisions := .error
  level := .warn

/-- A configuration with the settings of a partial one laid over it. -/
def override (c : Config) (p : PartialConfig) : Config where
  maxDepth := p.maxDepth.getD c.maxDepth
  maxCalls := p.maxCalls.getD c.maxCalls
  trace := p.trace.getD c.trace
  collisions := p.collisions.getD c.collisions
  level := p.level.getD c.level

/-- The defaults with some partial configurations laid over them, one after another. -/
def merge (parts : List PartialConfig) : Config :=
  parts.foldl override default

/-! ## Validation -/

/-- Whether a limit is a positive integer. -/
def isPositiveInteger (x : Number) : Bool :=
  x.isInteger && x.exceeds 0

/-- The errors of a configuration. -/
def errors (c : Config) : List String :=
  (if isPositiveInteger c.maxDepth then []
    else ["expansion.maxDepth must be a positive integer"]) ++
    (if isPositiveInteger c.maxCalls then []
      else ["expansion.maxCalls must be a positive integer"])

/-- The warnings about a configuration. -/
def warnings (c : Config) : List String :=
  (if c.maxDepth.exceeds 10000 then
    ["expansion.maxDepth is very high, deep documents may exhaust the call stack"] else []) ++
    (if c.collisions = .lastWins then
      ["imports.collisions is last-wins: cross-file templates may be shadowed silently"] else [])

/-- Whether a configuration has no errors. -/
def isValid (c : Config) : Bool :=
  c.errors.isEmpty

end Config

end Stencil
