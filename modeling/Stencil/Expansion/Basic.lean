import Stencil.Depth
import Stencil.Expansion.Descent
import Stencil.Journal

/-!
# Expansion

Expanding a node replaces every call inside it by the body of the template called, with the
targuments in place of the tparameters.  One node may expand to several, since a template
whose body is an expand marker inserts all the captured nodes.

An expansion is a result and a journal.  Of what ran before it, it sees only the number of
calls already made, for the limit on calls.  No limit is needed for it to end: every step
descends in cost.
-/

namespace Stencil

/-- The result of expanding nodes. -/
structure Expansion where
  nodes : List Node
  journal : Journal

namespace Expansion

/-- The expansion to no nodes. -/
def nothing (diagnostics : List Diagnostic) : Expansion :=
  ⟨[], .report diagnostics⟩

/-- The expansion of siblings from those of the first and of the rest. -/
def append (a b : Expansion) : Expansion :=
  ⟨a.nodes ++ b.nodes, a.journal ++ b.journal⟩

instance : Append Expansion := ⟨append⟩

@[simp] theorem nodes_append {a b : Expansion} : (a ++ b).nodes = a.nodes ++ b.nodes :=
  rfl

@[simp] theorem journal_append {a b : Expansion} : (a ++ b).journal = a.journal ++ b.journal :=
  rfl

@[simp] theorem nodes_nothing (diagnostics : List Diagnostic) :
    (nothing diagnostics).nodes = [] :=
  rfl

@[simp] theorem journal_nothing (diagnostics : List Diagnostic) :
    (nothing diagnostics).journal = .report diagnostics :=
  rfl

end Expansion

/-- Entries with their values as they are read under a scope. -/
def Scope.entriesOf (s : Scope) (entries : List Entry) : List Entry × List Diagnostic :=
  let read := entries.map s.entryOf
  (read.map Prod.fst, read.flatMap Prod.snd)

namespace Config

/-- The limit that forbids a call at a depth, after `used` calls, if one does. -/
def exceededLimit? (c : Config) (depth : Depth) (used : Nat) : Option Problem :=
  if c.maxDepth.atMost depth.value then some (.limitReached "maxDepth" c.maxDepth)
  else if c.maxCalls.atMost used then some (.limitReached "maxCalls" c.maxCalls)
  else none

/-- The journal of one call, which is logged when calls are traced. -/
def callJournal (c : Config) (number : Nat) (call : Call) : Journal :=
  { diagnostics := []
    calls := [call]
    log :=
      if c.trace then
        [⟨.log, "call #" ++ toString number ++ " " ++ call.template ++ " at depth " ++
          toString call.depth⟩]
      else [] }

end Config

mutual

/-- The expansion of a node that is read under a scope, at a depth of calls, after `used`
calls of the run. -/
def expandNode (c : Config) (used : Nat) (depth : Depth) (s : Scope) (n : Node) : Expansion :=
  match _h : s.reading n with
  | (.nothing, problems) => .nothing problems
  | (.kept call, problems) => ⟨[call], .report problems⟩
  | (.plain m, problems) =>
    let (entries, unread) := s.entriesOf m.entries
    let children := expandNodes c used depth s m.children
    ⟨[m.rebuild entries children.nodes], .report (problems ++ unread) ++ children.journal⟩
  | (.captured nodes scope, _) => expandNodes c used depth scope nodes
  | (.call t call, _) =>
    match c.exceededLimit? depth used with
    | some limit => .nothing [limit.reportedAt call.span]
    | none =>
      match _hb : t.bindCall call s with
      | (none, problems) => .nothing problems
      | (some frame, problems) =>
        let body := expandNode c (used + 1) depth.next frame t.body
        let made : Call := ⟨call.name.inner, depth.next.value, call.span⟩
        ⟨body.nodes, .report problems ++ c.callJournal (used + 1) made ++ body.journal⟩
termination_by 2 * s.cost n.count
decreasing_by
  · exact Scope.cost_children_lt (by rw [_h])
  · exact Scope.cost_captured_lt (by rw [_h])
  · exact Scope.cost_body_lt (by rw [_h]) (by rw [_hb])

/-- The expansion of siblings, each after the calls of those before it. -/
def expandNodes (c : Config) (used : Nat) (depth : Depth) (s : Scope) :
    List Node → Expansion
  | [] => .nothing []
  | n :: rest =>
    let first := expandNode c used depth s n
    first ++ expandNodes c (used + first.journal.callCount) depth s rest
termination_by nodes => 2 * s.cost (Node.countAll nodes) + 1
decreasing_by
  · exact Scope.cost_first_lt rest
  · exact Scope.cost_rest_lt rest

end

end Stencil
