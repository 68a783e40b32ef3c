import Stencil.Diagnostic.Kind
import Stencil.Keyed
import Stencil.Number.Shortest
import Stencil.Span
import Stencil.Text.Placeholder

/-!
# Diagnostics

A diagnostic reports one problem: its kind, a message made of the kind's wording and the
parameters, and usually the span at which the problem was found.

`Diagnostic.distinct` merges repeats.  Two diagnostics are repeats of each other when their
keys agree; the key joins code, span and message to one text.
-/

namespace Stencil

/-- A parameter of a diagnostic. -/
inductive Parameter where
  | string (s : String)
  | number (x : Number)
deriving DecidableEq

/-- A parameter as it stands in a message. -/
def Parameter.text : Parameter → String
  | .string s => s
  | .number x => x.text

/-- A report of one problem. -/
structure Diagnostic where
  kind : Kind
  severity : Severity
  message : String
  span : Option Span
  /-- The parameters, in the order of a record's fields; absent when none were given. -/
  data : Option (Keyed Parameter)
deriving DecidableEq

namespace Diagnostic

/-- A wording with the placeholders of some parameters filled, one after another. -/
def fillAll (wording : String) (parameters : Keyed Parameter) : String :=
  parameters.foldl
    (fun message parameter =>
      String.ofList
        (Placeholder.fill parameter.1.toList parameter.2.text.toList message.toList))
    wording

/-- The diagnostic of a kind with some parameters, given in any order and any number of
times: a name given again keeps its place and takes the later value. -/
def make (kind : Kind) (parameters : Option (List (String × Parameter)))
    (span : Option Span) : Diagnostic :=
  let data := parameters.map Keyed.fieldsOfPairs
  { kind
    severity := kind.severity
    message := fillAll kind.wording (data.getD [])
    span
    data }

/-- The code of a diagnostic. -/
def code (d : Diagnostic) : String :=
  d.kind.code

/-- Whether a diagnostic is an error. -/
def isError (d : Diagnostic) : Bool :=
  d.severity == .error

/-- The text by which repeats are recognised. -/
def key (d : Diagnostic) : String :=
  match d.span with
  | some span =>
    d.code ++ "@" ++ toString span.offset ++ "+" ++ toString span.size ++ ":" ++ d.message
  | none => d.code ++ ":" ++ d.message

/-- The diagnostics whose key is not among those seen, each key once. -/
def distinctFrom (seen : List String) : List Diagnostic → List Diagnostic
  | [] => []
  | d :: rest =>
    if seen.contains d.key then distinctFrom seen rest
    else d :: distinctFrom (d.key :: seen) rest

/-- The diagnostics without their repeats, in the order of first report. -/
def distinct (diagnostics : List Diagnostic) : List Diagnostic :=
  distinctFrom [] diagnostics

end Diagnostic

end Stencil
