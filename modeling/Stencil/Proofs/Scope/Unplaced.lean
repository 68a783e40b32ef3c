import Stencil.Proofs.Keyed
import Stencil.Proofs.Tree.Unplaced
import Stencil.Scope.Lookup

/-!
# Scopes without their places

A scope without the places of what it binds, in its own frames and in every captured scope, gives
the answers of the scope without their places: no lookup looks at a place.

Scopes, bindings and templates hold each other, so their places are taken away by one mutual
recursion; the lemmas below say what it comes to for each of them, after which it need not be opened
again.
-/

namespace Stencil

/-- A form of a tparameter without the places of its default. -/
def TparameterForm.unplaced : TparameterForm → TparameterForm
  | .positional => .positional
  | .named default => .named default.unplaced
  | .node default => .node default.unplaced
  | .splice default => .splice (default.map Node.unplaced)

@[simp] lemma TparameterForm.takesValue_unplaced (form : TparameterForm) :
    form.unplaced.takesValue = form.takesValue := by
  cases form <;> rfl

@[simp] lemma TparameterForm.expectation_unplaced (form : TparameterForm) :
    form.unplaced.expectation = form.expectation := by
  cases form <;> rfl

/-- A tparameter without its places. -/
def Tparameter.unplaced (p : Tparameter) : Tparameter :=
  ⟨p.name, .none, p.form.unplaced⟩

mutual

/-- A scope without the places of what it binds. -/
def Scope.unplaced : Scope → Scope
  | .root => .root
  | .frame parent kind bindings declared =>
    .frame parent.unplaced kind (Binding.unplacedAll bindings) declared

/-- Some bindings without their places. -/
def Binding.unplacedAll : List (String × Binding) → List (String × Binding)
  | [] => []
  | (name, b) :: rest => (name, b.unplaced) :: Binding.unplacedAll rest

/-- A binding without its places. -/
def Binding.unplaced : Binding → Binding
  | .template none origin file _ => .template none origin file .none
  | .template (some t) origin file _ => .template (some t.unplaced) origin file .none
  | .value v => .value v.unplaced
  | .node node scope => .node node.unplaced scope.unplaced
  | .splice nodes scope => .splice (nodes.map Node.unplaced) scope.unplaced

/-- A template without its places. -/
def Template.unplaced : Template → Template
  | ⟨name, tparameters, body, home, style, _⟩ =>
    ⟨name, tparameters.map Tparameter.unplaced, body.unplaced, home.unplaced, style, .none⟩

end

namespace Binding

lemma unplacedAll_eq_map (bs : List (String × Binding)) :
    unplacedAll bs = bs.map fun pair => (pair.1, pair.2.unplaced) := by
  induction bs with
  | nil => rw [unplacedAll, List.map_nil]
  | cons pair rest ih => rw [unplacedAll, ih, List.map_cons]

lemma unplaced_template (template : Option Template) (origin : Origin) (file : Option String)
    (span : Span) : (Binding.template template origin file span).unplaced =
      .template (template.map Template.unplaced) origin file .none := by
  cases template <;> rfl

@[simp] lemma isTemplate_unplaced (b : Binding) : b.unplaced.isTemplate = b.isTemplate := by
  rcases b with ⟨_ | t, _, _, _⟩ | _ | _ | _ <;> rfl

@[simp] lemma isImportFrom_unplaced (file : String) (b : Binding) :
    b.unplaced.isImportFrom file = b.isImportFrom file := by
  rcases b with ⟨_ | t, _ | _, _ | other, _⟩ | _ | _ | _ <;> rfl

end Binding

namespace Template

variable {t : Template}

lemma unplaced_eq (t : Template) :
    t.unplaced = ⟨t.name, t.tparameters.map Tparameter.unplaced, t.body.unplaced,
      t.home.unplaced, t.style, .none⟩ := by
  cases t
  rw [unplaced]

@[simp] lemma name_unplaced : t.unplaced.name = t.name := by
  rw [unplaced_eq]

@[simp] lemma tparameters_unplaced :
    t.unplaced.tparameters = t.tparameters.map Tparameter.unplaced := by
  rw [unplaced_eq]

@[simp] lemma body_unplaced : t.unplaced.body = t.body.unplaced := by
  rw [unplaced_eq]

@[simp] lemma home_unplaced : t.unplaced.home = t.home.unplaced := by
  rw [unplaced_eq]

lemma tparameter?_unplaced (name : String) :
    t.unplaced.tparameter? name = (t.tparameter? name).map Tparameter.unplaced := by
  rw [tparameter?, tparameter?, tparameters_unplaced, List.find?_map]
  rfl

end Template

namespace Scope

variable (s : Scope)

@[simp] lemma declared?_unplaced : s.unplaced.declared? = s.declared? := by
  cases s with
  | root => rfl
  | frame => rw [unplaced]; rfl

@[simp] lemma declares_unplaced (name : String) : s.unplaced.declares name = s.declares name := by
  rw [declares, declares, declared?_unplaced]

@[simp] lemma unplaced_extend (bs : List (String × Binding)) (kind : FrameKind) :
    (s.extend bs kind).unplaced =
      s.unplaced.extend (bs.map fun pair => (pair.1, pair.2.unplaced)) kind := by
  rw [extend, extend, unplaced, Binding.unplacedAll_eq_map, Keyed.ofPairs_map, declared?_unplaced]

@[simp] lemma unplaced_enterDocument (names : List String) :
    (s.enterDocument names).unplaced = s.unplaced.enterDocument names := by
  rw [enterDocument, unplaced]
  rfl

/-- A name is bound to the same, but for its places. -/
lemma lookup_unplaced : (s : Scope) → ∀ name : String,
    s.unplaced.lookup name = (s.lookup name).map Binding.unplaced
  | .root, _ => rfl
  | .frame parent kind bindings declared, name => by
    rw [unplaced, lookup, lookup, Binding.unplacedAll_eq_map, Keyed.get?_map,
      lookup_unplaced parent]
    cases Keyed.get? bindings name <;> rfl

lemma visibleFrom_unplaced : (s : Scope) → ∀ seen : List String,
    s.unplaced.visibleFrom seen = (s.visibleFrom seen).map fun pair => (pair.1, pair.2.unplaced)
  | .root, _ => rfl
  | .frame parent kind bindings declared, seen => by
    rw [unplaced, visibleFrom, visibleFrom, Binding.unplacedAll_eq_map, List.map_append,
      List.filter_map, visibleFrom_unplaced parent, List.map_map]
    rfl

@[simp] lemma lacksImport_unplaced (name : String) :
    s.unplaced.lacksImport name = s.lacksImport name := by
  unfold lacksImport visible
  rw [visibleFrom_unplaced]
  simp [Function.comp_def]

end Scope

end Stencil
