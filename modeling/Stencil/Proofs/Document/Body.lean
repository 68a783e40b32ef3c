import Stencil.Proofs.Expansion.Limits

/-!
# A document and its body

A document that expands to a node is a body read under the scope of the declarations.  Collecting
those neither makes calls nor looks at limits, so all that two runs of a document can differ in
goes back to the expansion of the body.
-/

namespace Stencil

namespace Collection

variable {p : CollisionPolicy}

lemma calls_collision (scope : Scope) (name : Spanned String) :
    (collision p scope name).calls = [] := by
  unfold collision
  split <;> simp

lemma calls_add {c : Collection} (h : c.journal.calls = []) (decl : Node) :
    (c.add p decl).journal.calls = [] := by
  unfold add
  dsimp only
  split <;> simp [h, calls_collision]

end Collection

/-- Collecting declarations makes no call. -/
@[simp] lemma calls_collect (p : CollisionPolicy) (declarations : List Node) (outer : Scope) :
    (collect p declarations outer).2.calls = [] := by
  have : (Collection.ofDeclarations p declarations outer).journal.calls = [] := by
    refine List.foldlRecOn (motive := fun c => c.journal.calls = []) declarations
      (Collection.add p) ?_ fun _ h decl _ => Collection.calls_add h decl
    rfl
  simp [collect, this]

namespace Document

section Parts

variable {d : Document} {last : Node}

/-- A document is its import directive and its content. -/
lemma nodes_eq (d : Document) : d.nodes = d.importDirective?.toList ++ d.content := by
  unfold content importDirective?
  rcases d.nodes with _ | ⟨first, rest⟩
  · rfl
  · dsimp only
    split <;> rfl

lemma content_eq (terminal : d.terminal? = some last) : d.content = d.declarations ++ [last] := by
  obtain ⟨before, content⟩ := List.getLast?_eq_some_iff.1 terminal
  rw [declarations, content, List.dropLast_concat]

lemma importDirective?_eq_some_iff {first : Node} :
    d.importDirective? = some first ↔
      d.nodes.head? = some first ∧ first.name.inner = importWord := by
  unfold importDirective?
  rcases d.nodes with _ | ⟨other, rest⟩
  · simp
  · rw [List.head?_cons, Option.some.injEq]
    dsimp only
    split
    · next reserved =>
      rw [Option.some.injEq]
      exact ⟨fun same => ⟨same, same ▸ reserved⟩, And.left⟩
    · next ordinary =>
      refine iff_of_false nofun ?_
      rintro ⟨rfl, reserved⟩
      exact ordinary reserved

lemma importDirective?_eq_none_iff :
    d.importDirective? = none ↔ ∀ first ∈ d.nodes.head?, first.name.inner ≠ importWord := by
  unfold importDirective?
  rcases d.nodes with _ | ⟨first, rest⟩ <;> simp

end Parts

/-- The expansion of a node as the body of a document, after `used` calls of the run. -/
def bodyExpansion (c : Config) (used : Nat) (d : Document) (outer : Scope) (body : Node) :
    Expansion :=
  expandNode c used .top (collect c.collisions d.declarations outer).1 body

lemma exists_expands_body (c : Config) (used : Nat) (d : Document) (outer : Scope) (body : Node) :
    ∃ k, Expands c used .top (collect c.collisions d.declarations outer).1 (.node body)
      (d.bodyExpansion c used outer body) k :=
  exists_expands c used .top (collect c.collisions d.declarations outer).1 (.node body)

variable {c : Config} {used : Nat} {d : Document} {outer : Scope} {v : Node} {j : Journal}

lemma soleNode_eq_some_iff {body : Node} {e : Expansion} :
    soleNode body e = (some v, j) ↔ e.nodes = [v] ∧ j = e.journal := by
  unfold soleNode
  split
  · next node heq =>
    rw [heq]
    simp [eq_comm]
  · next ne =>
    simp only [Prod.mk.injEq, reduceCtorEq, false_and, false_iff, not_and]
    exact fun heq => absurd heq (ne v)

lemma mem_diagnostics_soleNode {e : Expansion} {r : Diagnostic}
    (h : r ∈ e.journal.diagnostics) (body : Node) : r ∈ (soleNode body e).2.diagnostics := by
  unfold soleNode
  split
  · exact h
  · dsimp only
    split
    · exact h
    · simp [h]

lemma expandOn_of_body {body : Node} (ht : d.terminal? = some body)
    (hx : body.isExportList = false) :
    d.expandOn c used outer =
      ((soleNode body (d.bodyExpansion c used outer body)).1,
        (collect c.collisions d.declarations outer).2 ++
          (soleNode body (d.bodyExpansion c used outer body)).2) := by
  simp [expandOn, ht, hx, bodyExpansion]

@[simp] lemma calls_soleNode (body : Node) (e : Expansion) :
    (soleNode body e).2.calls = e.journal.calls := by
  unfold soleNode
  split
  · rfl
  · dsimp only
    split <;> simp

/-- A document without a body says so, whatever it is expanded on and under which settings. -/
lemma exists_body_or_report (d : Document) :
    (∃ body, d.terminal? = some body ∧ body.isExportList = false) ∨
      ∃ problem, ∀ c used outer, d.expandOn c used outer = (none, .report [problem]) := by
  rcases ht : d.terminal? with _ | body
  · refine .inr ⟨Problem.emptyDocument.reportedAt d.span, fun c used outer => ?_⟩
    simp [expandOn, ht, emptyReport]
  · rcases hx : body.isExportList with _ | _
    · exact .inl ⟨body, rfl, hx⟩
    · refine .inr ⟨Problem.exportListAsBody.reportedAt body.span, fun c used outer => ?_⟩
      simp [expandOn, ht, hx]

/-- A document expands to a node exactly if it has a body and that is what the body expands
to. -/
lemma expandOn_eq_some_iff :
    d.expandOn c used outer = (some v, j) ↔
      ∃ body, d.terminal? = some body ∧ body.isExportList = false ∧
        (d.bodyExpansion c used outer body).nodes = [v] ∧
        j = (collect c.collisions d.declarations outer).2 ++
          (d.bodyExpansion c used outer body).journal := by
  constructor
  · intro h
    rcases ht : d.terminal? with _ | body
    · simp [expandOn, ht] at h
    · rcases hx : body.isExportList with _ | _
      · rw [expandOn_of_body ht hx, Prod.mk.injEq] at h
        obtain ⟨nodes, journal⟩ := soleNode_eq_some_iff.1 (Prod.ext h.1 rfl)
        exact ⟨body, rfl, hx, nodes, h.2.symm.trans (congrArg _ journal)⟩
      · simp [expandOn, ht, hx] at h
  · rintro ⟨body, ht, hx, nodes, rfl⟩
    rw [expandOn_of_body ht hx, soleNode_eq_some_iff.2 ⟨nodes, rfl⟩]

end Document

end Stencil
