import Stencil.Proofs.Expansion.Unplaced
import Stencil.Proofs.Outcome.Faithful

/-!
# Places do not matter

Two documents whose nodes are alike differ in nothing but the places that they were read from.
They expand to alike nodes with the same budget, or both fail with the same budget, and report the
same problems in the same order (`expand_ignores_places`).  Repeats are merged by their places, so
the one failure can carry more diagnostics than the other; what was reported before the merge is the
same.

The proof says of each step of an expansion that it does without places what it does with them.  The
two documents are the same without their places, and whether there are errors, how many calls were
made and how deep can be read off without places.

The statement is about a document's nodes: where the document itself begins and ends is no part of
being alike.  The record of the run is compared by its budget, since the warnings carry spans.
-/

namespace Stencil

variable {policy : CollisionPolicy} {c : Config} {outer : Scope}

/-! ## Declarations -/

namespace Collection

/-- A collection without its places. -/
def unplaced (c : Collection) : Collection :=
  ⟨c.scope.unplaced, c.wellFormed, c.journal.unplaced⟩

lemma unplaced_collision (scope : Scope) (name : Spanned String) :
    (collision policy scope name).unplaced = collision policy scope.unplaced name.unplaced := by
  unfold collision
  rw [Spanned.inner_unplaced, Scope.lookup_unplaced]
  rcases scope.lookup name.inner with _ | ⟨_ | _, _ | _, file, _⟩ | _ | _ | _ <;>
    first | rfl | exact Journal.unplaced_collision ..

lemma unplaced_add (c : Collection) (decl : Node) :
    (c.add policy decl).unplaced = c.unplaced.add policy decl.unplaced := by
  unfold add
  simp only [unplaced, Template.ofDeclaration_unplaced, Node.name_unplaced,
    Spanned.inner_unplaced, ← unplaced_collision]
  rcases Template.ofDeclaration decl c.scope with problems | t
  · simp only [Template.unplacedDeclaration, Scope.bind, Scope.unplaced_extend,
      Journal.unplaced_append, Journal.unplaced_report]
    rfl
  · simp only [Template.unplacedDeclaration, Scope.bind, Scope.unplaced_extend,
      Journal.unplaced_append, Journal.unplaced_report, Template.allBadReferences_unplaced]
    rfl

lemma unplaced_foldl_add (declarations : List Node) (c : Collection) :
    (declarations.foldl (add policy) c).unplaced =
      (declarations.map Node.unplaced).foldl (add policy) c.unplaced := by
  induction declarations generalizing c with
  | nil => rfl
  | cons decl rest ih => rw [List.foldl_cons, ih, unplaced_add, List.map_cons, List.foldl_cons]

lemma unplaced_ofDeclarations (declarations : List Node) :
    (ofDeclarations policy declarations outer).unplaced =
      ofDeclarations policy (declarations.map Node.unplaced) outer.unplaced := by
  rw [ofDeclarations, ofDeclarations, unplaced_foldl_add, unplaced, Scope.unplaced_enterDocument,
    Journal.unplaced_empty, List.map_map]
  congr 3
  simp [Function.comp_def]

end Collection

lemma collect_unplaced (declarations : List Node) :
    collect policy (declarations.map Node.unplaced) outer.unplaced =
      ((collect policy declarations outer).1.unplaced,
        (collect policy declarations outer).2.unplaced) := by
  unfold collect
  dsimp only
  rw [← Collection.unplaced_ofDeclarations, List.length_map, Journal.unplaced_append]
  rfl

/-! ## Import requests -/

namespace ImportRequest

/-- A request without its place. -/
def unplaced (r : ImportRequest) : ImportRequest :=
  { r with span := .none }

/-- What an entry of a directive requests, or what is wrong with it, without places. -/
def unplacedEntry : Except Diagnostic ImportRequest → Except Diagnostic ImportRequest
  | .ok r => .ok r.unplaced
  | .error d => .error d.unplaced

lemma ofEntry_unplaced (e : Entry) : ofEntry e.unplaced = unplacedEntry (ofEntry e) := by
  rcases e with ⟨name, ⟨_ | _ | _ | target, place⟩, span⟩
  case string =>
    simp only [ofEntry, Entry.unplaced, Spanned.unplaced]
    rcases QualifiedName.ofString? target with _ | q
    · rfl
    · cases name <;> rfl
  all_goals rfl

lemma ofDirective_unplaced (directive : Node) :
    ofDirective directive.unplaced =
      ((ofDirective directive).1.map unplaced,
        (ofDirective directive).2.map Diagnostic.unplaced) := by
  simp only [ofDirective, Node.entries_unplaced, Node.children_unplaced, Node.span_unplaced,
    List.map_map, List.filterMap_map, List.map_append, List.map_filterMap, Function.comp_def,
    ofEntry_unplaced, List.isEmpty_map]
  rw [Prod.mk.injEq]
  refine ⟨?_, congrArg₂ (· ++ ·) ?_ ?_⟩
  · congr 1
    funext e
    cases ofEntry e <;> rfl
  · congr 1
    funext e
    cases ofEntry e <;> rfl
  · split <;> rfl

end ImportRequest

/-! ## Documents -/

namespace Document

variable {d d' : Document}

/-- A document without its places. -/
def unplaced (d : Document) : Document :=
  ⟨d.nodes.map Node.unplaced, .none⟩

lemma importDirective?_unplaced :
    d.unplaced.importDirective? = d.importDirective?.map Node.unplaced := by
  rcases d with ⟨_ | ⟨first, rest⟩, span⟩
  · rfl
  · simp only [importDirective?, unplaced, List.map_cons, Node.name_unplaced,
      Spanned.inner_unplaced]
    split <;> rfl

lemma content_unplaced : d.unplaced.content = d.content.map Node.unplaced := by
  unfold content
  rw [importDirective?_unplaced]
  rcases d.importDirective? with _ | directive
  · rfl
  · exact List.map_tail.symm

lemma terminal?_unplaced : d.unplaced.terminal? = d.terminal?.map Node.unplaced := by
  rw [terminal?, terminal?, content_unplaced, List.getLast?_map]

lemma declarations_unplaced : d.unplaced.declarations = d.declarations.map Node.unplaced := by
  rw [declarations, declarations, content_unplaced, List.map_dropLast]

lemma ofDocument_unplaced :
    ImportRequest.ofDocument d.unplaced =
      ((ImportRequest.ofDocument d).1.map ImportRequest.unplaced,
        (ImportRequest.ofDocument d).2.map Diagnostic.unplaced) := by
  unfold ImportRequest.ofDocument
  rw [importDirective?_unplaced]
  rcases d.importDirective? with _ | directive
  · rfl
  · exact ImportRequest.ofDirective_unplaced directive

lemma isResolved_unplaced (r : ImportRequest) :
    isResolved outer.unplaced r.unplaced = isResolved outer r := by
  have found : ∀ name, (outer.unplaced.lookup name).any Binding.isTemplate =
      (outer.lookup name).any Binding.isTemplate := by
    intro name
    rw [Scope.lookup_unplaced, Option.any_map]
    simp only [Binding.isTemplate_unplaced]
  simp only [isResolved, found]
  rfl

lemma unresolvedImports_unplaced :
    d.unplaced.unresolvedImports outer.unplaced =
      (d.unresolvedImports outer).map Diagnostic.unplaced := by
  simp only [unresolvedImports, ofDocument_unplaced, List.map_append, List.filter_map,
    List.map_map, Function.comp_def, isResolved_unplaced]
  rfl

lemma soleNode_unplaced (body : Node) (e : Expansion) :
    soleNode body.unplaced e.unplaced =
      ((soleNode body e).1.map Node.unplaced, (soleNode body e).2.unplaced) := by
  rcases e with ⟨_ | ⟨node, _ | ⟨_, _⟩⟩, journal⟩
  case cons.nil => rfl
  all_goals
    simp only [soleNode, Expansion.unplaced, List.map_cons, List.map_nil,
      Journal.hasErrors_unplaced, List.length_cons, List.length_map, Node.span_unplaced]
    split <;> simp

lemma expandOn_unplaced (used : Nat) :
    d.unplaced.expandOn c used outer.unplaced =
      ((d.expandOn c used outer).1.map Node.unplaced, (d.expandOn c used outer).2.unplaced) := by
  unfold expandOn
  rw [terminal?_unplaced]
  rcases d.terminal? with _ | body
  · rfl
  · have list : body.unplaced.isExportList = body.isExportList := by
      simp [Node.isExportList]
    simp only [Option.map_some, list, declarations_unplaced, collect_unplaced,
      expandNode_unplaced, soleNode_unplaced, Node.span_unplaced]
    split
    · rfl
    · simp

/-- **A document is expanded in the same way without places.** -/
theorem expandJournal_unplaced :
    d.unplaced.expandJournal c outer.unplaced = (d.expandJournal c outer).unplaced := by
  rw [expandJournal, expandJournal, unresolvedImports_unplaced, expandOn_unplaced,
    Journal.unplaced_append, Journal.unplaced_report]

/-- Documents whose nodes are alike are the same without their places. -/
lemma unplaced_eq_of_alike (alike : Node.allAlike d.nodes d'.nodes = true) :
    d.unplaced = d'.unplaced := by
  rw [unplaced, unplaced, (Node.allAlike_iff_unplaced_eq _).1 alike]

/-- A document is done with the node it expands to, or fails, as there are no errors or some. -/
lemma expand_outcome (c : Config) (d : Document) (outer : Scope) :
    (∃ v, (d.expandJournal c outer).hasErrors = false ∧ (d.expandOn c 0 outer).1 = some v ∧
      (d.expand c outer).outcome = .done v
        ((RunInfo.ofJournal c (d.expandJournal c outer)).withWarnings (d.expandJournal c outer))) ∨
    ∃ failure, (d.expandJournal c outer).hasErrors = true ∧
      (d.expand c outer).outcome = .fail failure
        ((RunInfo.ofJournal c (d.expandJournal c outer)).withWarnings
          (d.expandJournal c outer)) := by
  rw [expand_eq]
  -- without errors there is a node: a document that comes to none has reported why
  rcases errors : (d.expandJournal c outer).hasErrors with _ | _
  · have clean := errors
    rw [expandJournal, Journal.hasErrors_append, Bool.or_eq_false_iff] at clean
    obtain ⟨v, node⟩ := exists_expandOn clean.2
    rw [node]
    exact .inl ⟨v, rfl, rfl, Run.done_of_clean errors⟩
  · exact .inr ⟨_, rfl, Run.fail_of_errors graded_expandJournal errors⟩

end Document

open Document in
/-- **Places do not matter.**  Two documents whose nodes are alike are both done or both fail, on
any outer scope, with the same budget; if they are done, then with alike nodes; and what they
report, before repeats are merged, has the same kinds, severities and messages in the same order. -/
theorem expand_ignores_places (c : Config) (outer : Scope) {d d' : Document}
    (alike : Node.allAlike d.nodes d'.nodes = true) :
    (d.expand c outer).outcome.isDone = (d'.expand c outer).outcome.isDone ∧
      (d.expand c outer).outcome.info.budget = (d'.expand c outer).outcome.info.budget ∧
      (∀ v i v' i', (d.expand c outer).outcome = .done v i →
        (d'.expand c outer).outcome = .done v' i' → v.alike v' = true) ∧
      (d.expandJournal c outer).diagnostics.map (fun r => (r.kind, r.severity, r.message)) =
        (d'.expandJournal c outer).diagnostics.map fun r => (r.kind, r.severity, r.message) := by
  -- both documents are the same without places, and so are their runs; what is left is to read
  -- each part of the outcome off a run without places
  have same := unplaced_eq_of_alike alike
  have journals : (d.expandJournal c outer).unplaced = (d'.expandJournal c outer).unplaced := by
    rw [← expandJournal_unplaced, ← expandJournal_unplaced, same]
  have nodes : (d.expandOn c 0 outer).1.map Node.unplaced =
      (d'.expandOn c 0 outer).1.map Node.unplaced := by
    have both := congrArg Prod.fst (congrArg (fun d => d.expandOn c 0 outer.unplaced) same)
    rwa [expandOn_unplaced, expandOn_unplaced] at both
  have errors : (d.expandJournal c outer).hasErrors = (d'.expandJournal c outer).hasErrors := by
    rw [← Journal.hasErrors_unplaced, journals, Journal.hasErrors_unplaced]
  have calls : (d.expandJournal c outer).callCount = (d'.expandJournal c outer).callCount := by
    rw [← Journal.callCount_unplaced, journals, Journal.callCount_unplaced]
  have peak : (d.expandJournal c outer).peak = (d'.expandJournal c outer).peak := by
    rw [← Journal.peak_unplaced, journals, Journal.peak_unplaced]
  have reports : (d.expandJournal c outer).diagnostics.map
        (fun r => (r.kind, r.severity, r.message)) =
      (d'.expandJournal c outer).diagnostics.map fun r => (r.kind, r.severity, r.message) := by
    have unplaced := congrArg
      (fun j => j.diagnostics.map fun r => (r.kind, r.severity, r.message)) journals
    simpa only [Journal.unplaced, List.map_map, Function.comp_def, Diagnostic.unplaced] using
      unplaced
  have budget : (RunInfo.ofJournal c (d.expandJournal c outer)).budget =
      (RunInfo.ofJournal c (d'.expandJournal c outer)).budget := by
    rw [RunInfo.ofJournal, RunInfo.ofJournal, calls, peak]
  -- both are done or both fail, since they have errors together
  rcases expand_outcome c d outer with ⟨v, clean, node, done⟩ | ⟨_, faulty, failed⟩
  · rcases expand_outcome c d' outer with ⟨v', _, node', done'⟩ | ⟨_, faulty', _⟩
    · rw [done, done']
      refine ⟨rfl, budget, ?_, reports⟩
      rintro _ _ _ _ ⟨⟩ ⟨⟩
      rw [node, node', Option.map_some, Option.map_some, Option.some.injEq] at nodes
      exact (Node.alike_iff_unplaced_eq v).2 nodes
    · rw [clean, faulty'] at errors
      cases errors
  · rcases expand_outcome c d' outer with ⟨_, clean', _⟩ | ⟨_, _, failed'⟩
    · rw [faulty, clean'] at errors
      cases errors
    · rw [failed, failed']
      refine ⟨rfl, budget, ?_, reports⟩
      rintro _ _ _ _ ⟨⟩

/-- Two calls of a card with what it does not take, at the given places. -/
def Document.twoCards (first second : Span) : Document where
  nodes := [.bare "card" [.bare "box" []],
    .bare "page" [⟨⟨"card", .none⟩, [], [⟨⟨"border", first⟩, [], [], .none⟩], .none⟩,
      ⟨⟨"card", .none⟩, [], [⟨⟨"border", second⟩, [], [], .none⟩], .none⟩]]
  span := .none

/-- The two cards report the same, at one place or at two. -/
theorem two_cards_report_alike :
    ((Document.twoCards ⟨0, 6⟩ ⟨0, 6⟩).expandJournal .default .root).diagnostics.map
        (fun r => (r.kind, r.severity, r.message)) =
      ((Document.twoCards ⟨0, 6⟩ ⟨9, 6⟩).expandJournal .default .root).diagnostics.map
        (fun r => (r.kind, r.severity, r.message)) ∧
    ((Document.twoCards ⟨0, 6⟩ ⟨0, 6⟩).expandJournal .default .root).diagnostics.map
      (fun r => (r.kind, r.span)) =
        [(.unknownTparameterName, some ⟨0, 6⟩), (.unknownTparameterName, some ⟨0, 6⟩)] ∧
    ((Document.twoCards ⟨0, 6⟩ ⟨9, 6⟩).expandJournal .default .root).diagnostics.map
      (fun r => (r.kind, r.span)) =
        [(.unknownTparameterName, some ⟨0, 6⟩), (.unknownTparameterName, some ⟨9, 6⟩)] := by
  have alike : Node.allAlike (Document.twoCards ⟨0, 6⟩ ⟨0, 6⟩).nodes
      (Document.twoCards ⟨0, 6⟩ ⟨9, 6⟩).nodes = true := by
    decide
  exact ⟨(expand_ignores_places .default .root alike).2.2.2, by decide +kernel, by decide +kernel⟩

end Stencil
