import Stencil.Proofs.Document.Names
import Stencil.Proofs.Expansion.References

/-!
# References are found before they are called

A document reports its bad references when its declarations are collected, whether or not its
templates are called.  Are those all?  Calls bind tparameters, capture nodes with the scope that
they are made under, fall back on defaults and rename nodes, and each of these could lead to a
reference that was not seen.

None does, as long as no string is the name of a template and the body inserts nothing
(`references_are_found`).  Collecting binds one template after another, each checked at its
declaration, so the scope that it ends with vets all that it comes to; and it binds every declared
name, so that the body misses nothing by itself.

Each of the hypotheses is used.  A string that names a template turns a renamed node into a call
that no check has seen, and a marker in the body is outside of every template, so nothing has
checked it either.  The outer scope is empty, because a bound template from elsewhere was checked by
another document, if at all.
-/

namespace Stencil

open Diagnostic

/-! ## One declaration -/

namespace Template

variable {decl : Node} {s : Scope} {t : Template}

/-- The tparameters of a well-formed declaration have different names. -/
lemma nodup_of_ofDeclaration (h : ofDeclaration decl s = .ok t) :
    (t.tparameters.map Tparameter.name).Nodup := by
  obtain ⟨is, declared⟩ := ofDeclaration_eq_ok_iff.1 h
  obtain ⟨values, contents, declares, tparameters⟩ := declared.tparameters
  have distinct := is.distinct
  rwa [namesDeclared_of_declares declares, readable_of_declares declares, ← tparameters] at distinct

end Template

/-! ## Collecting -/

variable {policy : CollisionPolicy} {declarations : List Node} {found : List Diagnostic}

namespace Collection

variable {names : List String} {c : Collection}

/-- What a collection has bound is vetted, relative to all that it reports or more.  The reports are
a lower bound and not fixed, so that what is vetted stays so when later declarations report more. -/
structure Vetted (names : List String) (c : Collection) : Prop where
  vets : ∀ found, c.journal.diagnostics ⊆ found → c.scope.Throughout (Scope.Vets names found)
  templates : ∀ name b, c.scope.lookup name = some b → b.isTemplate = true
  declares : ∀ name, c.scope.declares name = names.contains name

/-- What a declaration is bound to is vetted, if its strings are no names of templates. -/
lemma Vetted.binding (h : c.Vetted names) {decl : Node} (named : decl.name.inner ∈ names)
    (apart : ∀ w ∈ decl.strings, w ∉ names) {t : Option Template}
    (read : ∀ made ∈ t, Template.ofDeclaration decl c.scope = .ok made ∧
      made.allBadReferences ⊆ found) :
    (Binding.template t .declared none decl.name.span).Vetted names found decl.name.inner where
  unwritten w hw := by
    rcases t with _ | made
    · cases hw
    · exact apart w ((Template.declares_of_ofDeclaration (read made rfl).1).strings hw)
  captured inner _ := by simp [Binding.nodes, Scope.missingOfAll]
  declared := by
    rintro _ _ _ _ ⟨⟩
    refine ⟨named, rfl, fun made mem => ?_⟩
    obtain ⟨wellFormed, reported⟩ := read made mem
    have home := (Template.declares_of_ofDeclaration wellFormed).home
    exact ⟨Template.nodup_of_ofDeclaration wellFormed, reported, home ▸ h.templates⟩

/-- A vetted collection stays so with one more declaration, if its strings are no names of
templates. -/
lemma Vetted.add (h : c.Vetted names) {decl : Node} (named : decl.name.inner ∈ names)
    (apart : ∀ w ∈ decl.strings, w ∉ names) : (c.add policy decl).Vetted names := by
  obtain ⟨t, scope, reported, read⟩ := exists_add policy c decl
  refine ⟨fun found inside => ?_, fun name b bound => ?_, fun name => ?_⟩
  · -- what is found has to contain this declaration's reports as well as the earlier ones
    have before := h.vets found (List.Subset.trans reported inside)
    rw [scope]
    refine before.extend ⟨before.here.proper.extend _ _, fun name b bound => ?_⟩ ?_
    · have bound : (c.scope.bind decl.name.inner _ .declaration).lookup name = some b := bound
      rw [Scope.lookup_bind] at bound
      split at bound
      · next same =>
        -- the new name: its template was checked just now, under the scope that is its home
        obtain rfl := Option.some.inj bound
        refine same ▸ h.binding named apart fun made mem => ?_
        exact (read made mem).imp_right fun reported => List.Subset.trans reported inside
      · exact before.here.binds name b bound
    · intro pair hp inner captured
      obtain rfl := List.mem_singleton.1 hp
      -- the new frame comes to one other scope, the home of the template, which is the scope
      -- before it
      rcases t with _ | made
      · cases captured
      · obtain rfl := Option.some.inj captured
        rw [(Template.declares_of_ofDeclaration (read made rfl).1).home]
        exact before
  · rw [scope, Scope.lookup_bind] at bound
    split at bound
    · obtain rfl := Option.some.inj bound
      rfl
    · exact h.templates name b bound
  · rw [scope]
    exact h.declares name

lemma vetted_foldl (h : c.Vetted names) (named : ∀ decl ∈ declarations, decl.name.inner ∈ names)
    (apart : ∀ w ∈ Node.stringsAll declarations, w ∉ names) :
    (declarations.foldl (add policy) c).Vetted names :=
  List.foldlRecOn declarations _ h fun _ vetted decl mem =>
    vetted.add (named decl mem) fun w hw => apart w (Node.strings_subset_stringsAll mem hw)

/-- What is not bound after some declarations is none of them. -/
lemma not_mem_of_lookup_foldl {name : String}
    (unbound : (declarations.foldl (add policy) c).scope.lookup name = none) :
    c.scope.lookup name = none ∧ name ∉ declarations.map fun d => d.name.inner := by
  have undeclared : name ∉ declarations.map fun d => d.name.inner := by
    intro declared
    obtain ⟨_, _, found⟩ := Scope.exists_lookup_bindDeclarations c.scope declared
    rw [scope_foldl_add, found] at unbound
    cases unbound
  exact ⟨lookup_foldl_add_of_not_mem undeclared ▸ unbound, undeclared⟩

/-- Declarations on the empty scope make a vetted collection, if no string of theirs is the name of
one. -/
lemma vetted_ofDeclarations (policy : CollisionPolicy)
    (apart : ∀ decl ∈ declarations, decl.name.inner ∉ Node.stringsAll declarations) :
    (ofDeclarations policy declarations .root).Vetted
      (declarations.map fun d => d.name.inner) := by
  refine vetted_foldl ⟨fun found _ => ?_, nofun, fun name => rfl⟩ ?_ ?_
  · have nothing : Scope.root.Throughout
        (Scope.Vets (declarations.map fun d => d.name.inner) found) :=
      ⟨⟨trivial, nofun⟩, fun _ _ reached => absurd reached Scope.not_reaches_root⟩
    exact nothing.enterDocument ⟨nothing.here.proper.enterDocument _, nofun⟩
  · exact fun decl mem => List.mem_map.2 ⟨decl, mem, rfl⟩
  · intro w written declared
    obtain ⟨decl, mem, rfl⟩ := List.mem_map.1 declared
    exact apart decl mem written

end Collection

namespace Document

variable {c : Config} {d : Document} {body : Node}

/-- **The check of the declarations finds every bad reference that calling could find.**  If no
string of a document is the name of one of its templates, and its body contains no marker, then
every unknown template and every unbound tparameter that is reported while the body expands on the
empty scope has been reported while its declarations were collected. -/
theorem references_are_found (terminal : d.terminal? = some body)
    (apart : ∀ decl ∈ d.declarations, decl.name.inner ∉ Node.stringsAll d.nodes)
    (unmarked : expandWord ∉ body.names) (used : Nat) (depth : Depth) :
    ∀ r ∈ (expandNode c used depth
        (collect c.collisions d.declarations .root).1 body).journal.diagnostics,
      r.kind = .unknownTemplate ∨ r.kind = .unknownTparameterReference →
        r ∈ (collect c.collisions d.declarations .root).2.diagnostics := by
  have inside : d.declarations ⊆ d.nodes :=
    List.Subset.trans (List.dropLast_subset _) d.content_subset_nodes
  have last : body ∈ d.nodes := d.content_subset_nodes (List.mem_of_getLast? terminal)
  have vetted := Collection.vetted_ofDeclarations c.collisions fun decl mem written =>
    apart decl mem (Node.stringsAll_mono inside written)
  have unwritten : ∀ w ∈ body.strings, w ∉ d.declarations.map fun d => d.name.inner := by
    intro w written declared
    obtain ⟨decl, mem, rfl⟩ := List.mem_map.1 declared
    exact apart decl mem (Node.strings_subset_stringsAll last written)
  -- all declarations are bound by now, so no name is declared later
  have bound : ∀ w, (collect c.collisions d.declarations .root).1.lookup w = none →
      (collect c.collisions d.declarations .root).1.declares w = false := by
    intro w unbound
    have undeclared := (Collection.not_mem_of_lookup_foldl unbound).2
    exact (vetted.declares w).trans (by simpa using undeclared)
  -- the body by itself misses nothing: what it could miss is a marker's target or a name that is
  -- declared later
  have missing := Scope.missing_eq_nil bound body unmarked
  have vets : (collect c.collisions d.declarations .root).1.Throughout (Scope.Vets _ _) :=
    vetted.vets (collect c.collisions d.declarations .root).2.diagnostics (by simp [collect])
  obtain ⟨_, run⟩ := exists_expands c used depth _ (.node body)
  have subset := run.references_subset vets unwritten (by rw [Subject.missing, missing]; simp)
  intro r reported kind
  exact subset (List.mem_filter.2 ⟨reported, by simpa [isReference] using kind⟩)

/-- A page with two cards and a line. -/
def cardPage : Node :=
  .bare "page" [.bare "card" [], .bare "line" [], .bare "card" []]

/-- A document whose card calls a box with a line that is declared too late and with a marker that
names no tparameter. -/
def earlyCard : Document where
  nodes := [
    .bare "box" [.bare "content" [.bare "empty" []], .bare "frame" [.bare "content" []]],
    .bare "card" [.bare "box" [.bare "content" [.bare "group" [.bare "line" [],
      .naming "expand" "rest"]]]],
    .bare "line" [.bare "rect" []], cardPage]
  span := .none

/-- Each call of the card reports the line and the marker, which were found at its declaration. -/
theorem earlyCard_references :
    (expandNode .default 0 .top (collect .error earlyCard.declarations .root).1
      cardPage).journal.diagnostics.map Diagnostic.kind =
        [.unknownTemplate, .unknownTparameterReference, .unknownTemplate,
          .unknownTparameterReference] ∧
    ∀ r ∈ (expandNode .default 0 .top (collect .error earlyCard.declarations .root).1
      cardPage).journal.diagnostics,
        r ∈ (collect .error earlyCard.declarations .root).2.diagnostics := by
  have kinds : (expandNode .default 0 .top (collect .error earlyCard.declarations .root).1
      cardPage).journal.diagnostics.map Diagnostic.kind =
        [.unknownTemplate, .unknownTparameterReference, .unknownTemplate,
          .unknownTparameterReference] := by decide +kernel
  refine ⟨kinds, fun r reported => ?_⟩
  refine references_are_found (c := .default) rfl (by decide) (by decide) 0 .top r reported ?_
  have mem := List.mem_map_of_mem (f := Diagnostic.kind) reported
  rw [kinds] at mem
  simp only [List.mem_cons, List.not_mem_nil, or_false] at mem
  rcases mem with kind | kind | kind | kind <;> simp [kind]

end Document

end Stencil
