import Stencil.Proofs.Scope.Reach
import Stencil.Proofs.Template.Grammar

/-!
# Declarations that are collected

Collecting binds one declaration after another (`Scope.bindDeclaration`), whatever it reports.

Declarations that are collected without an error are all well formed, and none takes the name of an
imported template where that is an error.  `collect_induction` turns this into the induction by
which later modules follow a scope through the declarations of a document: each one is read under
the scope so far and then bound on it.

Whether a declaration is well formed is decided under the scope so far, and a malformed one binds
its name all the same, to no template.  So which names are bound after the declarations does not
depend on what was reported, but only on the names declared (`scope_foldl_add`); it takes the clean
journal to know that they are bound to templates.
-/

namespace Stencil

open Journal

namespace Template

variable {decl : Node} {s : Scope} {t : Template}

/-- What is read successfully is among what is read. -/
lemma mem_successes {read : List (Except Diagnostic Tparameter)} {p : Tparameter} :
    p ∈ successes read ↔ Except.ok p ∈ read := by
  rw [successes, List.mem_filterMap]
  constructor
  · rintro ⟨_ | _, mem, same⟩
    · cases same
    · obtain rfl := Option.some.inj same
      exact mem
  · intro mem
    exact ⟨_, mem, rfl⟩

/-- A tparameter of an entry has its default from the entry. -/
lemma strings_of_tparameterOfEntry {name : String} {e : Entry} {p : Tparameter}
    (h : tparameterOfEntry name e = .ok p) : p.form.strings ⊆ e.value.inner.string?.toList := by
  unfold tparameterOfEntry at h
  split at h
  · obtain rfl := Except.ok.inj h
    exact List.Subset.refl _
  · split at h
    · obtain rfl := Except.ok.inj h
      exact List.nil_subset _
    · cases h

/-- A tparameter of a child has its default from the child. -/
lemma strings_of_tparameterOfChild {name : String} {child : Node} {p : Tparameter}
    (h : tparameterOfChild name child = .ok p) : p.form.strings ⊆ child.strings := by
  unfold tparameterOfChild at h
  split at h
  · split at h
    · obtain rfl := Except.ok.inj h
      exact child.children_subset_strings
    · cases h
  · split at h
    · cases h
    · split at h
      · next default children =>
        obtain rfl := Except.ok.inj h
        refine List.Subset.trans ?_ child.children_subset_strings
        exact Node.strings_subset_stringsAll (by rw [children]; exact List.mem_cons_self)
      · cases h

/-- What is well formed declares a template under its own name at the scope it is read under, and
has no strings but those of the declaration. -/
structure Declares (decl : Node) (s : Scope) (t : Template) : Prop where
  name : t.name = decl.name.inner
  home : t.home = s
  body : t.body.strings ⊆ decl.strings
  defaults : ∀ p ∈ t.tparameters, p.form.strings ⊆ decl.strings

/-- A well-formed declaration is read off its parts: the body is a child, and each tparameter is
declared by an entry or by a child. -/
lemma parts_of_ofDeclaration (h : ofDeclaration decl s = .ok t) :
    t.name = decl.name.inner ∧ t.home = s ∧ t.body ∈ decl.children ∧
      ∀ p ∈ t.tparameters,
        (∃ e ∈ decl.entries, tparameterOfEntry decl.name.inner e = .ok p) ∨
          ∃ child ∈ decl.children, tparameterOfChild decl.name.inner child = .ok p := by
  obtain ⟨_, declared⟩ := ofDeclaration_eq_ok_iff.1 h
  obtain ⟨values, contents, declares, tparameters⟩ := declared.tparameters
  refine ⟨declared.name, declared.home, List.mem_of_getLast? declared.body, fun p hp => ?_⟩
  rw [tparameters, ← readable_of_declares declares] at hp
  rcases List.mem_append.1 hp with hp | hp
  · exact .inl (List.mem_map.1 (mem_successes.1 hp))
  · obtain ⟨child, hc, read⟩ := List.mem_map.1 (mem_successes.1 hp)
    exact .inr ⟨child, List.dropLast_subset _ hc, read⟩

/-- A declaration that is well formed declares the template that is read of it. -/
lemma declares_of_ofDeclaration (h : ofDeclaration decl s = .ok t) : Declares decl s t := by
  obtain ⟨name, home, body, tparameters⟩ := parts_of_ofDeclaration h
  refine ⟨name, home, ?_, fun p hp => ?_⟩
  · exact List.Subset.trans (Node.strings_subset_stringsAll body) decl.children_subset_strings
  · rcases tparameters p hp with ⟨e, he, read⟩ | ⟨child, hc, read⟩
    · refine List.Subset.trans (strings_of_tparameterOfEntry read) ?_
      intro x hx
      exact decl.entries_subset_strings (Entry.mem_strings he (Scalar.mem_string?.1 hx))
    · exact List.Subset.trans (strings_of_tparameterOfChild read) (List.Subset.trans
        (Node.strings_subset_stringsAll hc) decl.children_subset_strings)

lemma Declares.strings (h : Declares decl s t) {origin : Origin} {file : Option String}
    {span : Span} : (Binding.template (some t) origin file span).strings ⊆ decl.strings := by
  rw [Binding.strings]
  intro x hx
  rcases List.mem_append.1 hx with hx | hx
  · exact h.body hx
  · obtain ⟨p, hp, hx⟩ := List.mem_flatMap.1 hx
    exact h.defaults p hp hx

end Template

/-- The binding of a declaration that is well formed. -/
def Template.declared (t : Template) (decl : Node) : Binding :=
  .template (some t) .declared none decl.name.span

/-! ## Binding declarations -/

namespace Scope

variable {name : String} {declarations : List Node}

/-- The scope with a declaration bound on it, which is read under it. -/
def bindDeclaration (s : Scope) (decl : Node) : Scope :=
  s.bind decl.name.inner
    (.template (Template.ofDeclaration decl s).toOption .declared none decl.name.span) .declaration

/-- Binding a declaration changes the lookup of its own name only. -/
lemma lookup_bindDeclaration (s : Scope) (decl : Node) (name : String) :
    (s.bindDeclaration decl).lookup name =
      if decl.name.inner = name then
        some (.template (Template.ofDeclaration decl s).toOption .declared none decl.name.span)
      else s.lookup name :=
  lookup_bind ..

/-- What is not declared is looked up below the declarations. -/
lemma lookup_bindDeclarations_of_not_mem (s : Scope)
    (undeclared : name ∉ declarations.map fun d => d.name.inner) :
    (declarations.foldl bindDeclaration s).lookup name = s.lookup name := by
  refine List.foldlRecOn (motive := fun made : Scope => made.lookup name = s.lookup name)
    declarations _ rfl fun made same decl mem => ?_
  have other : decl.name.inner ≠ name := fun same => undeclared (List.mem_map.2 ⟨decl, mem, same⟩)
  rw [lookup_bindDeclaration, if_neg other, same]

/-- What is declared is bound to templates of the document. -/
lemma exists_lookup_bindDeclarations (s : Scope)
    (declared : name ∈ declarations.map fun d => d.name.inner) :
    ∃ template span, (declarations.foldl bindDeclaration s).lookup name =
      some (.template template .declared none span) := by
  induction declarations using List.reverseRecOn with
  | nil => exact absurd declared List.not_mem_nil
  | append_singleton earlier decl ih =>
    rw [List.map_append, List.mem_append, List.map_singleton, List.mem_singleton] at declared
    rw [List.foldl_append, List.foldl_cons, List.foldl_nil, lookup_bindDeclaration]
    by_cases same : decl.name.inner = name
    · rw [if_pos same]
      exact ⟨_, _, rfl⟩
    · rw [if_neg same]
      exact ih (declared.resolve_right (Ne.symm same))

end Scope

namespace Collection

/-- Collecting binds what is read, whatever has been reported. -/
lemma scope_add (policy : CollisionPolicy) (c : Collection) (decl : Node) :
    (c.add policy decl).scope = c.scope.bindDeclaration decl := by
  unfold add Scope.bindDeclaration
  dsimp only
  rcases Template.ofDeclaration decl c.scope with problems | t <;> rfl

/-- Collecting declarations binds them one after another. -/
lemma scope_foldl_add (policy : CollisionPolicy) (c : Collection) (declarations : List Node) :
    (declarations.foldl (add policy) c).scope =
      declarations.foldl Scope.bindDeclaration c.scope :=
  (List.foldl_hom Collection.scope fun c decl => (scope_add policy c decl).symm).symm

/-- One more declaration binds its name to a template: one that was read and whose bad references
are reported, or none. -/
lemma exists_add (policy : CollisionPolicy) (c : Collection) (decl : Node) :
    ∃ t : Option Template,
      (c.add policy decl).scope = c.scope.bind decl.name.inner
        (.template t .declared none decl.name.span) .declaration ∧
      c.journal.diagnostics ⊆ (c.add policy decl).journal.diagnostics ∧
      ∀ made ∈ t, Template.ofDeclaration decl c.scope = .ok made ∧
        made.allBadReferences ⊆ (c.add policy decl).journal.diagnostics := by
  refine ⟨_, scope_add policy c decl, ?_⟩
  rcases read : Template.ofDeclaration decl c.scope with problems | made
  · exact ⟨by simp [add, read], nofun⟩
  · refine ⟨by simp [add, read], ?_⟩
    rintro _ ⟨⟩
    exact ⟨rfl, by simp [add, read]⟩

/-- What is not declared is looked up below the declarations. -/
lemma lookup_foldl_add_of_not_mem {policy : CollisionPolicy} {c : Collection}
    {declarations : List Node} {name : String} (h : name ∉ declarations.map fun d => d.name.inner) :
    (declarations.foldl (add policy) c).scope.lookup name = c.scope.lookup name := by
  rw [scope_foldl_add, Scope.lookup_bindDeclarations_of_not_mem c.scope h]

end Collection

variable {policy : CollisionPolicy} {declarations : List Node} {outer : Scope}

/-- **Induction along declarations** that are collected without an error: what holds of the scope
that they start on, and passes from a scope to the one with a further declaration bound on it,
holds of the scope of them all. -/
theorem collect_induction {P : Scope → Prop}
    (clean : (collect policy declarations outer).2.hasErrors = false)
    (start : P (outer.enterDocument (declarations.map fun d => d.name.inner)))
    (step : ∀ s, ∀ decl ∈ declarations, ∀ t, P s → Template.ofDeclaration decl s = .ok t →
      (Collection.collision policy s decl.name).hasErrors = false →
      P (s.bind decl.name.inner (t.declared decl) .declaration)) :
    P (collect policy declarations outer).1 := by
  -- an error that is reported stays, so a journal that is clean in the end was clean after each
  -- declaration
  have all : (Collection.ofDeclarations policy declarations outer).journal.hasErrors = false →
      P (Collection.ofDeclarations policy declarations outer).scope := by
    refine List.foldlRecOn
      (motive := fun c : Collection => c.journal.hasErrors = false → P c.scope) declarations
      (Collection.add policy) (fun _ => start) ?_
    intro c ih decl mem clean
    rcases read : Template.ofDeclaration decl c.scope with problems | t
    · -- a malformed declaration would have been reported
      simp only [Collection.add, read, hasErrors_append, Bool.or_eq_false_iff] at clean
      have faults := (Template.areOwnFaults_ofDeclaration read).areFaults
      have silent := (hasErrors_report_eq_false_iff faults).1 clean.2
      exact absurd silent (Template.ne_nil_of_ofDeclaration_error read)
    · simp only [Collection.add, read, hasErrors_append, Bool.or_eq_false_iff] at clean ⊢
      exact step c.scope decl mem t (ih clean.1.1) read clean.1.2
  refine all ?_
  simp only [collect, hasErrors_append, Bool.or_eq_false_iff] at clean
  exact clean.1

/-! ## What the scope of declarations answers -/

section Answers

variable {name : String} {b : Binding}

/-- Names that are not declared are looked up around the declarations. -/
lemma lookup_collect_of_not_mem (h : name ∉ declarations.map fun d => d.name.inner) :
    (collect policy declarations outer).1.lookup name = outer.lookup name :=
  (Collection.lookup_foldl_add_of_not_mem h).trans (Scope.lookup_enterDocument _ _ _)

/-- The names that a document declares are those of its declarations. -/
lemma declares_collect (clean : (collect policy declarations outer).2.hasErrors = false) :
    (collect policy declarations outer).1.declares name =
      (declarations.map fun d => d.name.inner).contains name :=
  collect_induction (P := fun s => s.declares name =
    (declarations.map fun d => d.name.inner).contains name) clean rfl
    fun _ _ _ _ same _ _ => same

/-- Where it is an error, declarations do not shadow imports, and they are none. -/
lemma lookup_import_collect {file : String}
    (clean : (collect .error declarations outer).2.hasErrors = false)
    (imported : b.isImportFrom file = true) :
    (collect .error declarations outer).1.lookup name = some b ↔ outer.lookup name = some b := by
  refine collect_induction
    (P := fun s => s.lookup name = some b ↔ outer.lookup name = some b) clean ?_ ?_
  · rw [Scope.lookup_enterDocument]
  · intro s decl _ t same _ unclashed
    rw [Scope.lookup_bind, ← same]
    split
    · next shadows =>
      -- an import of this name would have clashed with the declaration
      refine iff_of_false ?_ fun found => ?_
      · rintro ⟨⟩
        cases imported
      · unfold Binding.isImportFrom at imported
        split at imported
        · rw [Collection.collision, shadows, found] at unclashed
          simp [Journal.collision] at unclashed
        · cases imported
    · exact Iff.rfl

end Answers

end Stencil
