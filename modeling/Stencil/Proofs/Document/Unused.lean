import Stencil.Proofs.Document.Names
import Stencil.Proofs.Expansion.Concurrence

/-!
# Unused declarations

A declaration that is collected without a report, under a name that nothing around it bears or
writes, changes nothing: the document with it and the document without it expand alike, or fail
alike, on every outer scope (`unused_declaration_is_inert`).

The two documents are collected under scopes that concur on all words but the name: they declare the
same words, the declarations before and after the inserted one are bound to templates whose homes
concur, and the inserted one is hidden.  The body speaks no other words, so it expands alike.  Only
the log can tell how many templates were collected.

That the inserted declaration is collected without a report is assumed where it stands: a malformed
one would be reported, and so would one that refers to what comes after it.  `IsUnused` also asks
that the outer scope does not have the name for a value, since a node could be renamed to it.
-/

namespace Stencil

open Journal

variable {V : String → Prop} {policy : CollisionPolicy} {outer : Scope}

/-! ## Collecting -/

namespace Collection

variable {c c' : Collection} {decl : Node}

/-- Collections whose scopes concur, with the same reports. -/
structure Concurs (V : String → Prop) (c c' : Collection) : Prop where
  scope : c.scope.Concurs V c'.scope
  diagnostics : c.journal.diagnostics = c'.journal.diagnostics

lemma collision_concurs {s s' : Scope} (h : s.Concurs V s') {name : Spanned String}
    (spoken : V name.inner) : collision policy s name = collision policy s' name := by
  unfold collision
  generalize s.lookup name.inner = a, s'.lookup name.inner = a', h.lookup spoken = related
  cases related with
  | none => rfl
  | some bindings =>
    cases bindings with
    | template _ _ _ origin => cases origin <;> rfl
    | _ => rfl

/-- Collections that concur do so with one more declaration that speaks the vocabulary. -/
lemma Concurs.add (h : c.Concurs V c') (spoken : decl.SpokenIn V) :
    (c.add policy decl).Concurs V (c'.add policy decl) := by
  have clash : collision policy c.scope decl.name = collision policy c'.scope decl.name :=
    collision_concurs h.scope spoken.name
  have read' := Template.ofDeclaration_rehome decl c.scope c'.scope
  -- the declaration is malformed on both sides or on neither, since reading it does not look at
  -- the scope
  rcases read : Template.ofDeclaration decl c.scope with problems | t
  · rw [read] at read'
    simp only [Collection.add, read, read', Except.map, clash]
    exact ⟨h.scope.bind _ (.malformed ..) _, by simp [h.diagnostics]⟩
  · have home := (Template.declares_of_ofDeclaration read).home
    have homes : t.home.Concurs V c'.scope := home ▸ h.scope
    have speaks := Template.spokenIn_of_ofDeclaration spoken read
    rw [read] at read'
    simp only [Collection.add, read, read', Except.map, clash,
      Template.allBadReferences_rehome homes speaks]
    refine ⟨h.scope.bind _ (.template (fun _ word => word) homes speaks ..) _, ?_⟩
    simp [h.diagnostics]

lemma Concurs.foldl_add (policy : CollisionPolicy) {declarations : List Node} (h : c.Concurs V c')
    (spoken : Node.AllSpokenIn V declarations) :
    (declarations.foldl (Collection.add policy) c).Concurs V
      (declarations.foldl (Collection.add policy) c') :=
  List.foldl_rel h fun _ mem _ _ related => related.add (spoken.of_mem mem)

/-- A declaration that is collected without a report, under a new name from outside the vocabulary,
is hidden. -/
lemma Concurs.hide (h : c.Concurs V c') (unspoken : ¬V decl.name.inner)
    (unbound : c'.scope.lookup decl.name.inner = none)
    (silent : (c'.add policy decl).journal.diagnostics = c'.journal.diagnostics) :
    c.Concurs V (c'.add policy decl) := by
  obtain ⟨template, scope, _⟩ := exists_add policy c' decl
  refine ⟨?_, h.diagnostics.trans silent.symm⟩
  rw [scope]
  exact h.scope.hide unspoken unbound (fun _ => rfl) .declaration

end Collection

/-! ## Documents -/

namespace Document

/-- The declarations of a document with one more among them, after the first `i`. -/
def declarationsWith (d : Document) (i : Nat) (decl : Node) : List Node :=
  d.declarations.take i ++ decl :: d.declarations.drop i

/-- The document with one more declaration, after its import directive and the first `i` of its
declarations and before its terminal node. -/
def insertDeclaration (d : Document) (i : Nat) (decl : Node) : Document :=
  { d with nodes := d.importDirective?.toList ++ d.declarationsWith i decl ++ d.terminal?.toList }

/-- The inserted declaration is collected without a report, where it stands. -/
def CollectsSilently (policy : CollisionPolicy) (d : Document) (i : Nat) (decl : Node)
    (outer : Scope) : Prop :=
  let names := (d.declarationsWith i decl).map fun d => d.name.inner
  let before := (d.declarations.take i).foldl (Collection.add policy)
    ⟨outer.enterDocument names, 0, .empty⟩
  (before.add policy decl).journal.diagnostics = before.journal.diagnostics

/-- A name that a document and its outer scope do not use: it is not reserved for imports, no node
of the document bears it and no value is it, and the outer scope neither binds it nor has it for a
value. -/
structure IsUnused (d : Document) (outer : Scope) (name : String) : Prop where
  unreserved : name ≠ importWord
  unnamed : name ∉ Node.namesAll d.nodes
  unwritten : name ∉ Node.stringsAll d.nodes
  unbound : outer.lookup name = none
  unvalued : ∀ other v, outer.lookup other = some (.value v) → v.inner ≠ .string name

variable {c : Config} {d : Document} {decl last : Node} {i : Nat}

section Inserted

variable (terminal : d.terminal? = some last) (unreserved : decl.name.inner ≠ importWord)
include terminal

lemma nodes_insertDeclaration (i : Nat) (decl : Node) :
    (d.insertDeclaration i decl).nodes =
      d.importDirective?.toList ++ (d.declarationsWith i decl ++ [last]) := by
  rw [insertDeclaration, terminal, Option.toList_some, List.append_assoc]

include unreserved

lemma importDirective?_insertDeclaration :
    (d.insertDeclaration i decl).importDirective? = d.importDirective? := by
  have nodes := nodes_insertDeclaration terminal i decl
  -- without a directive the first node must not become one; a directive stays first
  rcases directive : d.importDirective? with _ | first
  · rw [directive, Option.toList_none, List.nil_append] at nodes
    refine importDirective?_eq_none_iff.2 fun first head => ?_
    rw [nodes, declarationsWith] at head
    rcases before : d.declarations.take i with _ | ⟨other, rest⟩
    · rw [before] at head
      obtain rfl := Option.some.inj head
      exact unreserved
    · -- the first declaration is first in both documents
      rw [before] at head
      refine importDirective?_eq_none_iff.1 directive first ?_
      rw [d.nodes_eq, directive, content_eq terminal, ← List.take_append_drop i d.declarations,
        before]
      exact head
  · rw [directive] at nodes
    refine importDirective?_eq_some_iff.2 ⟨?_, (importDirective?_eq_some_iff.1 directive).2⟩
    rw [nodes]
    rfl

lemma content_insertDeclaration :
    (d.insertDeclaration i decl).content = d.declarationsWith i decl ++ [last] := by
  have nodes := nodes_insertDeclaration terminal i decl
  rw [nodes_eq, importDirective?_insertDeclaration terminal unreserved] at nodes
  exact List.append_cancel_left nodes

lemma terminal?_insertDeclaration : (d.insertDeclaration i decl).terminal? = d.terminal? := by
  rw [terminal?, content_insertDeclaration terminal unreserved, List.getLast?_concat, terminal]

lemma declarations_insertDeclaration :
    (d.insertDeclaration i decl).declarations = d.declarationsWith i decl := by
  rw [declarations, content_insertDeclaration terminal unreserved, List.dropLast_concat]

lemma unresolvedImports_insertDeclaration :
    (d.insertDeclaration i decl).unresolvedImports outer = d.unresolvedImports outer := by
  unfold unresolvedImports ImportRequest.ofDocument
  rw [importDirective?_insertDeclaration terminal unreserved]

end Inserted

section Unused

variable (unused : d.IsUnused outer decl.name.inner)
include unused

lemma IsUnused.spokenIn {nodes : List Node} (inside : nodes ⊆ d.nodes) :
    Node.AllSpokenIn (· ≠ decl.name.inner) nodes := by
  have spoken : Node.AllSpokenIn (· ≠ decl.name.inner) d.nodes := by
    rintro w (named | written) rfl
    · exact unused.unnamed named
    · exact unused.unwritten written
  exact Node.allSpokenIn_iff.2 fun n mem => spoken.of_mem (inside mem)

/-- The outer scope concurs with itself, also where one more name is declared. -/
lemma IsUnused.enterDocument_concurs (i : Nat) :
    (outer.enterDocument (d.declarations.map fun d => d.name.inner)).Concurs
      (· ≠ decl.name.inner)
      (outer.enterDocument ((d.declarationsWith i decl).map fun d => d.name.inner)) := by
  refine (Scope.Concurs.self fun other v x found string => ?_).enterDocument fun w other => ?_
  · rintro rfl
    exact unused.unvalued other v found string
  · rw [declarationsWith, List.map_append, List.map_cons, List.mem_append, List.mem_cons,
      or_iff_right other, ← List.mem_append, ← List.map_append, List.take_append_drop]

/-- **The declarations with and without one that is not used make collections that concur** on all
words but its name. -/
theorem ofDeclarations_concurs (silent : d.CollectsSilently policy i decl outer) :
    (Collection.ofDeclarations policy d.declarations outer).Concurs (· ≠ decl.name.inner)
      (Collection.ofDeclarations policy (d.declarationsWith i decl) outer) := by
  have inside : d.declarations ⊆ d.nodes :=
    List.Subset.trans (List.dropLast_subset _) d.content_subset_nodes
  have earlier := unused.spokenIn (List.Subset.trans (List.take_subset i _) inside)
  have later := unused.spokenIn (List.Subset.trans (List.drop_subset i _) inside)
  have start : Collection.Concurs (· ≠ decl.name.inner)
      ⟨outer.enterDocument (d.declarations.map fun d => d.name.inner), 0, .empty⟩
      ⟨outer.enterDocument ((d.declarationsWith i decl).map fun d => d.name.inner), 0, .empty⟩ :=
    ⟨unused.enterDocument_concurs i, rfl⟩
  have undeclared : decl.name.inner ∉ (d.declarations.take i).map fun d => d.name.inner := by
    intro mem
    obtain ⟨other, ho, same⟩ := List.mem_map.1 mem
    exact (earlier.of_mem ho).name same
  -- three steps: the declarations before it, itself on one side only, and those after it
  have before := start.foldl_add policy earlier
  have hidden := before.hide (fun other => other rfl)
    ((Collection.lookup_foldl_add_of_not_mem undeclared).trans
      ((Scope.lookup_enterDocument ..).trans unused.unbound)) silent
  have after := hidden.foldl_add policy later
  rw [← List.foldl_append, List.take_append_drop] at after
  have folded : ∀ k : Collection, (d.declarationsWith i decl).foldl (Collection.add policy) k =
      (d.declarations.drop i).foldl (Collection.add policy)
        (((d.declarations.take i).foldl (Collection.add policy) k).add policy decl) := by
    intro k
    rw [declarationsWith, List.foldl_append, List.foldl_cons]
  rwa [Collection.ofDeclarations, Collection.ofDeclarations, folded]

end Unused

/-- With an unused declaration, a document expands to the same node with a journal that agrees. -/
lemma expandOn_insertDeclaration (terminal : d.terminal? = some last)
    (unused : d.IsUnused outer decl.name.inner)
    (silent : d.CollectsSilently c.collisions i decl outer) (used : Nat) :
    ((d.insertDeclaration i decl).expandOn c used outer).1 = (d.expandOn c used outer).1 ∧
      ((d.insertDeclaration i decl).expandOn c used outer).2.Agrees
        (d.expandOn c used outer).2 := by
  have unreserved := unused.unreserved
  have terminal' := (terminal?_insertDeclaration (i := i) terminal unreserved).trans terminal
  rcases list : last.isExportList with _ | _
  · -- the scopes of the declarations concur in the words of the document, and the body speaks no
    -- others
    have collections := ofDeclarations_concurs unused silent
    have inside : [last] ⊆ d.nodes := List.cons_subset.2
      ⟨d.content_subset_nodes (List.mem_of_getLast? terminal), List.nil_subset _⟩
    have spoken := (unused.spokenIn inside).of_mem (List.mem_singleton_self last)
    have body : (d.insertDeclaration i decl).bodyExpansion c used outer last =
        d.bodyExpansion c used outer last := by
      unfold bodyExpansion collect
      rw [declarations_insertDeclaration terminal unreserved]
      exact (collections.scope.expandNode_eq spoken c used .top).symm
    have collected : (collect c.collisions (d.insertDeclaration i decl).declarations outer).2.Agrees
        (collect c.collisions d.declarations outer).2 := by
      refine ⟨?_, by rw [calls_collect, calls_collect]⟩
      rw [declarations_insertDeclaration terminal unreserved]
      simp [collect, collections.diagnostics]
    rw [expandOn_of_body terminal' list, expandOn_of_body terminal list, body]
    exact ⟨rfl, collected.append (.refl _)⟩
  · -- a list of exports is no body, so neither document gets as far as its declarations
    have none : ∀ d : Document, d.terminal? = some last → d.expandOn c used outer =
        (none, .report [Problem.exportListAsBody.reportedAt last.span]) := by
      intro d terminal
      simp [expandOn, terminal, list]
    rw [none _ terminal', none d terminal]
    exact ⟨rfl, .refl _⟩

end Document

/-- Runs whose journals agree have the same outcome. -/
lemma Run.outcome_congr {α : Type} {value : Option α} {c : Config} {j j' : Journal}
    {reason : FailureReason} (h : j.Agrees j') :
    (Run.ofJournal value j reason (.ofJournal c j)).outcome =
      (Run.ofJournal value j' reason (.ofJournal c j')).outcome := by
  simp only [Run.ofJournal, RunInfo.ofJournal, h.diagnostics, h.calls, h.callCount_eq, h.peak_eq]

open Document in
/-- **An unused declaration is inert.**  A declaration whose name the document and its outer scope
do not use, and which is collected without a report at its place among the declarations, changes
nothing in the outcome: the same node or the same failure with the same diagnostics in the same
order, and the same record of the run, under every configuration. -/
theorem unused_declaration_is_inert (c : Config) {d : Document} {outer : Scope} {decl last : Node}
    (i : Nat) (terminal : d.terminal? = some last) (unused : d.IsUnused outer decl.name.inner)
    (silent : d.CollectsSilently c.collisions i decl outer) :
    ((d.insertDeclaration i decl).expand c outer).outcome = (d.expand c outer).outcome := by
  obtain ⟨node, journal⟩ := expandOn_insertDeclaration terminal unused silent 0
  have agrees : ((d.insertDeclaration i decl).expandJournal c outer).Agrees
      (d.expandJournal c outer) := by
    unfold expandJournal
    rw [unresolvedImports_insertDeclaration terminal unused.unreserved]
    exact (Agrees.refl _).append journal
  rw [expand_eq, expand_eq, node]
  exact Run.outcome_congr agrees

/-- An outer scope with a value that is a name. -/
def Scope.accented : Scope :=
  Scope.root.bind "accent" (.value ⟨.string "red", .none⟩) .external

/-- A page of badges and cards: a badge is a card with the outer value for a node. -/
def Document.badgePage : Document where
  nodes := [
    .bare "card" [.naming "expand" "content", .bare "box" [.naming "expand" "content"]],
    .bare "badge" [.bare "card" [.bare "content" [.bare "accent" []]]],
    .bare "page" [.bare "badge" [], .bare "card" [.bare "content" [.bare "badge" []]]]]
  span := .none

/-- A further template that calls the card. -/
def Node.spareCard : Node :=
  .bare "spare" [.bare "card" [.bare "content" [.bare "dot" []]]]

/-- The page makes its five calls whether or not a spare card is declared between card and badge. -/
theorem spareCard_is_inert :
    ((Document.badgePage.insertDeclaration 1 .spareCard).expand .default .accented).outcome =
        (Document.badgePage.expand .default .accented).outcome ∧
      (Document.badgePage.expand .default .accented).outcome.isDone = true ∧
      (Document.badgePage.expandJournal .default .accented).callCount = 5 := by
  have unvalued : ∀ other v, Scope.accented.lookup other = some (.value v) →
      v.inner ≠ .string "spare" := by
    intro other v found
    rw [Scope.accented, Scope.lookup_bind] at found
    split at found
    · obtain rfl := Binding.value.inj (Option.some.inj found)
      decide
    · cases found
  have unused : Document.badgePage.IsUnused .accented "spare" :=
    ⟨by decide, by decide, by decide, rfl, unvalued⟩
  have silent : Document.badgePage.CollectsSilently .error 1 .spareCard .accented := by
    unfold Document.CollectsSilently
    decide +kernel
  exact ⟨unused_declaration_is_inert .default 1 rfl unused silent, by decide +kernel,
    by decide +kernel⟩

end Stencil
