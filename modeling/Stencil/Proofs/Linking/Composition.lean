import Stencil.Proofs.Document.Again
import Stencil.Proofs.Document.Unused
import Stencil.Proofs.Scope.Alike

/-!
# Composing tables in another order

Export tables are composed on a scope one after another, and each pushes a frame of its own.  When
every collision is an error, the order of the tables makes no difference (`composeAll_perm`): they
can be composed in one order if and only if they can in any other, and every document expands alike
under the scopes that result.

Two tables that come one after the other can both be composed exactly if the scope below them
binds none of their names to a template and they have no name in common, which does not ask for
their order.  Their frames then commute (`Scope.Alike.swap`), and neither the tables composed later
nor a document can tell the difference.

The policy on collisions matters: where a collision is no error, a table that is composed later
hides what an earlier one has bound, so the order decides which template a name has.  That every
collision is an error is assumed of the configuration that composes, not of the one that expands.

The proof is an induction on the permutation.  Its one real case is the exchange of two neighbours;
when the two cannot both be composed, both orders fail, perhaps with different reports, which is
why the statement only compares scopes.
-/

namespace Stencil

variable {c : Config} {s s' s'' : Scope} {d : Document}

/-! ## Documents on scopes alike -/

namespace Scope.Alike

variable (h : s.Alike s')
include h

lemma ofDeclarations (policy : CollisionPolicy) (declarations : List Node) :
    (Collection.ofDeclarations policy declarations s).Concurs (fun _ => True)
      (Collection.ofDeclarations policy declarations s') := by
  have start : Collection.Concurs (fun _ => True)
      ⟨s.enterDocument (declarations.map fun d => d.name.inner), 0, .empty⟩
      ⟨s'.enterDocument (declarations.map fun d => d.name.inner), 0, .empty⟩ :=
    ⟨h.concurs.enterDocument fun _ _ => Iff.rfl, rfl⟩
  exact start.foldl_add policy fun _ _ => trivial

lemma unresolvedImports_eq (d : Document) : d.unresolvedImports s = d.unresolvedImports s' := by
  simp only [Document.unresolvedImports, Document.isResolved, h.lookup]

lemma expandOn (c : Config) (used : Nat) (d : Document) :
    (d.expandOn c used s).1 = (d.expandOn c used s').1 ∧
      (d.expandOn c used s).2.Agrees (d.expandOn c used s').2 := by
  have collections := h.ofDeclarations c.collisions d.declarations
  have collected : (collect c.collisions d.declarations s).2.Agrees
      (collect c.collisions d.declarations s').2 :=
    ⟨by simp [collect, collections.diagnostics], by rw [calls_collect, calls_collect]⟩
  rcases d.exists_body_or_report with ⟨body, terminal, list⟩ | ⟨_, report⟩
  · have same : d.bodyExpansion c used s body = d.bodyExpansion c used s' body :=
      collections.scope.expandNode_eq (fun _ _ => trivial) c used .top
    rw [Document.expandOn_of_body terminal list, Document.expandOn_of_body terminal list, same]
    exact ⟨rfl, collected.append (.refl _)⟩
  · rw [report, report]
    exact ⟨rfl, .refl _⟩

/-- **A document expands alike on scopes that are alike.** -/
theorem expand_outcome (c : Config) (d : Document) :
    (d.expand c s).outcome = (d.expand c s').outcome := by
  obtain ⟨node, journal⟩ := h.expandOn c 0 d
  have agrees : (d.expandJournal c s).Agrees (d.expandJournal c s') := by
    unfold Document.expandJournal
    rw [h.unresolvedImports_eq d]
    exact (Journal.Agrees.refl _).append journal
  rw [Document.expand_eq, Document.expand_eq, node]
  exact Run.outcome_congr agrees

end Scope.Alike

/-! ## Composing one table -/

namespace Scope

/-- None of some names is bound to a template. -/
def IsFree (s : Scope) (names : List String) : Prop :=
  ∀ name ∈ names, (s.lookup name).any Binding.isTemplate = false

lemma Alike.isFree_iff (h : s.Alike s') {names : List String} :
    s.IsFree names ↔ s'.IsFree names := by
  simp only [IsFree, h.lookup]

/-- What is free under the frame of a table is not in the table, and free below. -/
lemma isFree_extend_iff {table : ExportTable} {file : String} {names : List String} :
    (s.extend (table.bindings file) .imports).IsFree names ↔
      List.Disjoint (Keyed.names (table.bindings file)) names ∧ s.IsFree names := by
  -- name by name: the frame on top binds templates to the table's names, and for other names it is
  -- not there
  have own : ∀ name, ((s.extend (table.bindings file) .imports).lookup name).any
        Binding.isTemplate = false ↔
      name ∉ Keyed.names (table.bindings file) ∧
        (s.lookup name).any Binding.isTemplate = false := by
    intro name
    rw [lookup_extend]
    rcases found : (Keyed.ofPairs (table.bindings file)).get? name with _ | b
    · rw [Option.none_or, and_iff_right (Keyed.get?_ofPairs_eq_none_iff.1 found)]
    · have mem := Keyed.mem_of_mem_ofPairs (Keyed.mem_of_get? found)
      have named : name ∈ Keyed.names (table.bindings file) :=
        List.mem_map_of_mem (f := Prod.fst) mem
      obtain ⟨_, _, same⟩ := List.mem_map.1 mem
      obtain rfl := (Prod.mk.inj same).2
      simp [named, Binding.isTemplate]
  unfold IsFree
  simp only [own]
  constructor
  · exact fun free => ⟨fun name bound mem => (free name mem).1 bound, fun name mem =>
      (free name mem).2⟩
  · exact fun ⟨apart, free⟩ name mem => ⟨fun bound => apart bound mem, free name mem⟩

/-- Two tables that can be composed on a scope in either order: their names are free, and none of
them is in both. -/
structure Admits (s : Scope) (x y : String × ExportTable) : Prop where
  first : s.IsFree (Keyed.names (x.2.bindings x.1))
  second : s.IsFree (Keyed.names (y.2.bindings y.1))
  apart : List.Disjoint (Keyed.names (x.2.bindings x.1)) (Keyed.names (y.2.bindings y.1))

lemma Admits.symm {x y : String × ExportTable} (h : s.Admits x y) : s.Admits y x :=
  ⟨h.second, h.first, fun _ mem mem' => h.apart mem' mem⟩

end Scope

lemma hasErrors_rebinding (name : String) (span : Span) (previous : Option Binding) :
    (rebinding .error name span previous).hasErrors = previous.any Binding.isTemplate := by
  unfold rebinding
  split
  · rfl
  · next other =>
    rcases previous with _ | b
    · rfl
    · cases b with
      | template => exact absurd rfl (other _ _ _ _)
      | _ => rfl

namespace Scope

/-- The scope with some tables composed on it, one after another, or the first failure. -/
def composeAll (c : Config) : List (String × ExportTable) → Scope → Outcome Scope
  | [], s => .done s .empty
  | (file, table) :: rest, s => (s.compose c table file).outcome.bind (composeAll c rest)

/-- Two ends of a composition that no document can tell apart: scopes that are alike, or two
failures. -/
inductive Matches : Outcome Scope → Outcome Scope → Prop
  | done {s s' : Scope} {i i' : RunInfo} (alike : s.Alike s') : Matches (.done s i) (.done s' i')
  | fail {f f' : Failure Diagnostic} {i i' : RunInfo} : Matches (.fail f i) (.fail f' i')

lemma Matches.trans {o o' o'' : Outcome Scope} (h : Matches o o') (h' : Matches o' o'') :
    Matches o o'' := by
  cases h with
  | done alike =>
    cases h' with
    | done alike' => exact .done (alike.trans alike')
  | fail =>
    cases h' with
    | fail => exact .fail

lemma Matches.of_fails {o o' : Outcome Scope} (h : ∃ f i, o = .fail f i)
    (h' : ∃ f i, o' = .fail f i) : Matches o o' := by
  obtain ⟨_, _, rfl⟩ := h
  obtain ⟨_, _, rfl⟩ := h'
  exact .fail

end Scope

section Strict

variable (policy : c.collisions = .error) {file : String} {table : ExportTable}
include policy

/-- A table collides with nothing if its qualified names are free. -/
lemma hasErrors_composeJournal_iff :
    (s.composeJournal c table file).hasErrors = false ↔
      s.IsFree (Keyed.names (table.bindings file)) := by
  induction table with
  | nil => exact iff_of_true rfl fun _ h => absurd h List.not_mem_nil
  | cons pair rest ih =>
    rw [composeJournal_cons, Journal.hasErrors_append, Bool.or_eq_false_iff, ih, policy,
      hasErrors_rebinding]
    simp [Scope.IsFree, ExportTable.bindings, Keyed.names]

namespace Scope

lemma composeAll_of_free (rest : List (String × ExportTable))
    (free : s.IsFree (Keyed.names (table.bindings file))) :
    composeAll c ((file, table) :: rest) s =
      composeAll c rest (s.extend (table.bindings file) .imports) := by
  have done := compose_done_iff.2
    ⟨rfl, (hasErrors_composeJournal_iff policy).2 free, rfl⟩
  rw [composeAll, done]
  rfl

lemma exists_fail_composeAll (rest : List (String × ExportTable))
    (taken : ¬s.IsFree (Keyed.names (table.bindings file))) :
    ∃ f i, composeAll c ((file, table) :: rest) s = .fail f i := by
  rw [composeAll]
  rcases composed : (s.compose c table file).outcome with ⟨s', i⟩ | ⟨f, i⟩
  · obtain ⟨_, clean, _⟩ := compose_done_iff.1 composed
    exact absurd ((hasErrors_composeJournal_iff policy).1 clean) taken
  · exact ⟨f, i, rfl⟩

/-- One table before others that are composed alike on top of it. -/
lemma matches_cons (h : s.Alike s') {rest rest' : List (String × ExportTable)}
    (above : Matches (composeAll c rest (s.extend (table.bindings file) .imports))
      (composeAll c rest' (s'.extend (table.bindings file) .imports))) :
    Matches (composeAll c ((file, table) :: rest) s)
      (composeAll c ((file, table) :: rest') s') := by
  by_cases free : s.IsFree (Keyed.names (table.bindings file))
  · rwa [composeAll_of_free policy rest free, composeAll_of_free policy rest' (h.isFree_iff.1 free)]
  · exact .of_fails (exists_fail_composeAll policy rest free)
      (exists_fail_composeAll policy rest' (mt h.isFree_iff.2 free))

/-- Tables are composed alike on scopes that are alike. -/
lemma Alike.composeAll (h : s.Alike s') (imports : List (String × ExportTable)) :
    Matches (composeAll c imports s) (composeAll c imports s') := by
  induction imports generalizing s s' with
  | nil => exact .done h
  | cons pair rest ih => exact matches_cons policy h (ih (h.extend _ _))

lemma composeAll_of_admits {x y : String × ExportTable} (rest : List (String × ExportTable))
    (h : s.Admits x y) : composeAll c (x :: y :: rest) s = composeAll c rest
      ((s.extend (x.2.bindings x.1) .imports).extend (y.2.bindings y.1) .imports) := by
  have second := isFree_extend_iff.2 ⟨h.apart, h.second⟩
  rw [composeAll_of_free policy _ h.first, composeAll_of_free policy _ second]

lemma exists_fail_of_not_admits {x y : String × ExportTable} (rest : List (String × ExportTable))
    (h : ¬s.Admits x y) : ∃ f i, composeAll c (x :: y :: rest) s = .fail f i := by
  by_cases first : s.IsFree (Keyed.names (x.2.bindings x.1))
  · rw [composeAll_of_free policy _ first]
    refine exists_fail_composeAll policy rest fun free => h ?_
    obtain ⟨apart, second⟩ := isFree_extend_iff.1 free
    exact ⟨first, second, apart⟩
  · exact exists_fail_composeAll policy _ first

/-- **Tables in another order are composed alike.** -/
theorem matches_of_perm {imports imports' : List (String × ExportTable)}
    (perm : imports.Perm imports') (s : Scope) :
    Matches (composeAll c imports s) (composeAll c imports' s) := by
  induction perm generalizing s with
  | nil => exact .done (.refl s)
  | cons pair _ ih => exact matches_cons policy (.refl s) (ih _)
  -- either both orders compose the two tables, onto scopes that only differ in the order of two
  -- frames, or both fail
  | swap x y rest =>
    by_cases both : s.Admits y x
    · rw [composeAll_of_admits policy rest both, composeAll_of_admits policy rest both.symm]
      exact (Alike.swap s both.apart).composeAll policy rest
    · exact .of_fails (exists_fail_of_not_admits policy rest both)
        (exists_fail_of_not_admits policy rest (mt Admits.symm both))
  | trans _ _ ih₁ ih₂ => exact (ih₁ s).trans (ih₂ s)

/-- **The order of composed tables makes no difference** when every collision is an error.  Tables
in another order are composed on a scope if and only if they are in the first one, and then every
document has the same outcome under the two scopes, by every configuration. -/
theorem composeAll_perm {imports imports' : List (String × ExportTable)}
    (perm : imports.Perm imports') (s : Scope) :
    (composeAll c imports s).isDone = (composeAll c imports' s).isDone ∧
      ∀ s₁ i₁ s₂ i₂, composeAll c imports s = .done s₁ i₁ →
        composeAll c imports' s = .done s₂ i₂ →
        ∀ (c' : Config) (d : Document), (d.expand c' s₁).outcome = (d.expand c' s₂).outcome := by
  have same := matches_of_perm policy perm s
  constructor
  · generalize composeAll c imports s = o, composeAll c imports' s = o' at same
    cases same <;> rfl
  · intro s₁ i₁ s₂ i₂ done done' c' d
    rw [done, done'] at same
    cases same with
    | done alike => exact alike.expand_outcome c' d

end Scope

end Strict

/-- Shapes and forms are composed in either order, and the page of the box is the same. -/
theorem shapes_before_or_after_forms : ∃ s₁ i₁ s₂ i₂,
    Scope.composeAll .default [("shapes", [("box", .box)]), ("forms", [("box", .box)])] .root =
        .done s₁ i₁ ∧
      Scope.composeAll .default [("forms", [("box", .box)]), ("shapes", [("box", .box)])] .root =
        .done s₂ i₂ ∧
      (SourceFile.page.document.expand .default s₁).outcome =
        (SourceFile.page.document.expand .default s₂).outcome := by
  have swap : [("shapes", [("box", Template.box)]), ("forms", [("box", .box)])].Perm
      [("forms", [("box", .box)]), ("shapes", [("box", .box)])] := List.Perm.swap _ _ []
  obtain ⟨_, same⟩ := Scope.composeAll_perm (c := .default) rfl swap .root
  exact ⟨_, _, _, _, rfl, rfl, same _ _ _ _ rfl rfl .default SourceFile.page.document⟩

end Stencil
