import Stencil.Template.Targuments

/-!
# Reading a node

What a node means is settled by its name and the scope that it is read under.  An expand
marker stands for captured nodes.  Any other name is looked up: a template is called, a bound
string renames the node (and may then call a template), a bound node takes the node's place,
and a node with an unbound name stands for itself.
-/

namespace Stencil

/-- What a node means under a scope. -/
inductive Reading where
  /-- Nothing, by mistake. -/
  | nothing
  /-- The node itself: its entries and children are read under the same scope. -/
  | plain (node : Node)
  /-- A call of a template. -/
  | call (template : Template) (node : Node)
  /-- A call of a malformed template, which is kept as it stands. -/
  | kept (node : Node)
  /-- Captured nodes, to be read under their own scope. -/
  | captured (nodes : List Node) (scope : Scope)

namespace Scope

/-- The reading of a call: a malformed template was reported where it was declared. -/
def readCall (template : Option Template) (call : Node) : Reading :=
  match template with
  | some t => .call t call
  | none => .kept call

/-- The reading of an expand marker. -/
def readMarker (s : Scope) (marker : Node) : Reading × List Diagnostic :=
  match marker.soleString?, marker.children with
  | some target, [] =>
    match s.lookup target.inner with
    | some (.splice nodes scope) => (.captured nodes scope, [])
    | some b =>
      (.nothing,
        [(Problem.kindMismatch target.inner "expand children" b.description).reportedAt
          target.span])
    | none => (.nothing, [(Problem.unboundReference target.inner).reportedAt target.span])
  | _, _ => (.nothing, [Problem.malformedMarker.reportedAt marker.span])

/-- The reading of a node whose name is bound to a value. -/
def readRenamed (s : Scope) (n : Node) (value : Spanned Scalar) : Reading × List Diagnostic :=
  match value.inner with
  | .string name =>
    let renamed := n.rename ⟨name, value.span⟩
    match s.lookup name with
    | some (.template template _ _ _) => (readCall template renamed, [])
    | _ => (.plain renamed, [])
  | _ =>
    (.plain n,
      [(Problem.kindMismatch n.name.inner "a name" (Binding.value value).description).reportedAt
        n.name.span])

/-- The report of an unbound name that ought to be a template. -/
def unboundName (s : Scope) (name : Spanned String) : List Diagnostic :=
  if s.declares name.inner || s.lacksImport name.inner then
    [(Problem.unknownTemplate name.inner).reportedAt name.span]
  else []

/-- The reading of a node, and the problems found. -/
def reading (s : Scope) (n : Node) : Reading × List Diagnostic :=
  if n.name.inner = expandWord then s.readMarker n
  else
    match s.lookup n.name.inner with
    | none => (.plain n, s.unboundName n.name)
    | some (.template template _ _ _) => (readCall template n, [])
    | some (.value value) => s.readRenamed n value
    | some (.node node scope) => (.captured [node] scope, [])
    | some (.splice nodes scope) =>
      (.nothing,
        [(Problem.kindMismatch n.name.inner "a node"
          ((Binding.splice nodes scope).description ++ " (use `expand \"" ++ n.name.inner ++
            "\"`)")).reportedAt n.name.span])

end Scope

end Stencil
