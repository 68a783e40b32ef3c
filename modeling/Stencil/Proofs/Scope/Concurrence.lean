import Stencil.Proofs.Expansion.Simulation
import Stencil.Proofs.Scope.Visible

/-!
# Scopes that concur

Can a scope bind one more name, deep in the homes of its templates, without anyone's noticing?  What
is looked up under the two scopes is then not the same: their templates have different homes, and
their arguments have captured different scopes.  But what they look up answers in turn the same
questions.

`Scope.Concurs` says this of the words of a vocabulary: two scopes bind the same of them, and bind
them to the same values and nodes and to the same templates, save for the scopes that these have
captured, which concur again.  The vocabulary of a captured scope is its own.  A scope concurs with
itself, frames of what concurs concur, and a binding that no word of the vocabulary asks for can be
pushed on one side only (`Scope.Concurs.hide`).

The definition is inductive and mutual, since scopes capture scopes.  It says of imports only from
which files there are some: that is all that is asked of them beside their bindings.
-/

namespace Stencil

/-! ## What templates speak -/

/-- The default of a tparameter is spoken in a vocabulary. -/
def TparameterForm.SpokenIn (V : String → Prop) : TparameterForm → Prop
  | .positional => True
  | .named default => ∀ x, default.inner = .string x → V x
  | .node default => default.SpokenIn V
  | .splice default => Node.AllSpokenIn V default

namespace Template

/-- The body and the defaults of a template are spoken in a vocabulary. -/
structure SpokenIn (V : String → Prop) (t : Template) : Prop where
  body : t.body.SpokenIn V
  defaults : ∀ p ∈ t.tparameters, p.form.SpokenIn V

/-- The template with another home. -/
def rehome (t : Template) (home : Scope) : Template :=
  { t with home }

lemma rehome_home (t : Template) : t.rehome t.home = t := by
  cases t
  rfl

end Template

/-- Every tree is spoken in the vocabulary of all words. -/
lemma TparameterForm.spokenIn_of_all {V : String → Prop} (all : ∀ w, V w) (form : TparameterForm) :
    form.SpokenIn V := by
  cases form with
  | positional => trivial
  | named default => exact fun x _ => all x
  | node default => exact fun w _ => all w
  | splice default => exact fun w _ => all w

lemma Template.spokenIn_of_all {V : String → Prop} (all : ∀ w, V w) (t : Template) :
    t.SpokenIn V :=
  ⟨fun w _ => all w, fun p _ => p.form.spokenIn_of_all all⟩

/-! ## Concurring -/

mutual

/-- Scopes that answer the words of a vocabulary alike, save for what is captured there. -/
inductive Scope.Concurs : (String → Prop) → Scope → Scope → Prop
  | same {V : String → Prop} (all : ∀ w, V w) (s : Scope) : Scope.Concurs V s s
  | intro {V : String → Prop} {s s' : Scope}
      (has : ∀ w, V w → s.has w = s'.has w)
      (bindings : ∀ w b b', V w → s.lookup w = some b → s'.lookup w = some b' →
        Binding.Concurs V b b')
      (declares : ∀ w, V w → s.declares w = s'.declares w)
      (imports : ∀ seen file, (s.visibleFrom seen).any (fun pair => pair.2.isImportFrom file) =
        (s'.visibleFrom seen).any fun pair => pair.2.isImportFrom file) : Scope.Concurs V s s'

/-- Bindings that are the same, save for the scopes that they have captured, and that bring no word
from outside a vocabulary to those who speak it. -/
inductive Binding.Concurs : (String → Prop) → Binding → Binding → Prop
  | malformed {V : String → Prop} (origin : Origin) (file : Option String) (span : Span) :
      Binding.Concurs V (.template none origin file span) (.template none origin file span)
  /-- A template can know more words than those who call it. -/
  | template {V W : String → Prop} {t : Template} {home : Scope} (knows : ∀ w, V w → W w)
      (homes : Scope.Concurs W t.home home) (spoken : t.SpokenIn W) (origin : Origin)
      (file : Option String) (span : Span) :
      Binding.Concurs V (.template (some t) origin file span)
        (.template (some (t.rehome home)) origin file span)
  | value {V : String → Prop} {v : Spanned Scalar} (spoken : ∀ x, v.inner = .string x → V x) :
      Binding.Concurs V (.value v) (.value v)
  | node {V W : String → Prop} {n : Node} {s s' : Scope} (scopes : Scope.Concurs W s s')
      (spoken : n.SpokenIn W) : Binding.Concurs V (.node n s) (.node n s')
  | splice {V W : String → Prop} {nodes : List Node} {s s' : Scope}
      (scopes : Scope.Concurs W s s') (spoken : Node.AllSpokenIn W nodes) :
      Binding.Concurs V (.splice nodes s) (.splice nodes s')

end

variable {V W : String → Prop} {s s' : Scope} {w : String}

namespace Binding

/-- A binding concurs with itself, if it brings no value from outside the vocabulary. -/
lemma Concurs.self {b : Binding}
    (spoken : ∀ v x, b = .value v → v.inner = .string x → V x) : b.Concurs V b := by
  have all : ∀ w : String, (fun _ => True) w := fun _ => trivial
  cases b with
  | template t origin file span =>
    cases t with
    | none => exact .malformed origin file span
    | some t =>
      have concurs : (Binding.template (some t) origin file span).Concurs V
          (.template (some (t.rehome t.home)) origin file span) :=
        .template (fun w _ => all w) (.same all t.home) (t.spokenIn_of_all all) origin file span
      rwa [t.rehome_home] at concurs
  | value v => exact .value fun x string => spoken v x rfl string
  | node n inner => exact .node (.same all inner) fun w _ => all w
  | splice nodes inner => exact .splice (.same all inner) fun w _ => all w

lemma Concurs.isImportFrom_eq {b b' : Binding} (h : b.Concurs V b') (file : String) :
    b.isImportFrom file = b'.isImportFrom file := by
  cases h with
  | template _ _ _ origin source => rcases origin with _ | _ <;> cases source <;> rfl
  | _ => rfl

/-- What speaks few words concurs for those who know more. -/
lemma Concurs.mono {b b' : Binding} (h : b.Concurs V b') (captured : b.isTemplate = false)
    (knows : ∀ w, V w → W w) : b.Concurs W b' := by
  cases h with
  | malformed => cases captured
  | template => cases captured
  | value spoken => exact .value fun x string => knows x (spoken x string)
  | node scopes spoken => exact .node scopes spoken
  | splice scopes spoken => exact .splice scopes spoken

end Binding

namespace Scope.Concurs

/-! ### Asking scopes that concur -/

/-- Words of the vocabulary are bound to what concurs, or not at all. -/
lemma lookup (h : s.Concurs V s') (spoken : V w) :
    Option.Rel (Binding.Concurs V) (s.lookup w) (s'.lookup w) := by
  cases h with
  | intro has bindings =>
    have both := has w spoken
    rcases found : s.lookup w with _ | b <;> rcases found' : s'.lookup w with _ | b'
    · exact .none
    · simp [Scope.has, found, found'] at both
    · simp [Scope.has, found, found'] at both
    · exact .some (bindings w b b' spoken found found')
  | same all =>
    rcases s.lookup w with _ | b
    · exact .none
    · exact .some (.self fun _ x _ _ => all x)

lemma declares_eq (h : s.Concurs V s') (spoken : V w) : s.declares w = s'.declares w := by
  cases h with
  | intro _ _ declares => exact declares w spoken
  | same => rfl

lemma imports_eq (h : s.Concurs V s') (seen : List String) (file : String) :
    (s.visibleFrom seen).any (fun pair => pair.2.isImportFrom file) =
      (s'.visibleFrom seen).any fun pair => pair.2.isImportFrom file := by
  cases h with
  | intro _ _ _ imports => exact imports seen file
  | same => rfl

lemma unboundName_eq (h : s.Concurs V s') {name : Spanned String} (spoken : V name.inner) :
    s.unboundName name = s'.unboundName name := by
  have lacks : s.lacksImport name.inner = s'.lacksImport name.inner := by
    unfold lacksImport
    rcases QualifiedName.ofString? name.inner with _ | q
    · rfl
    · exact h.imports_eq [] q.file
  unfold unboundName
  rw [h.declares_eq spoken, lacks]

/-! ### Making scopes that concur -/

lemma of_lookup (lookup : ∀ w, V w → Option.Rel (Binding.Concurs V) (s.lookup w) (s'.lookup w))
    (declares : ∀ w, V w → s.declares w = s'.declares w)
    (imports : ∀ seen file, (s.visibleFrom seen).any (fun pair => pair.2.isImportFrom file) =
      (s'.visibleFrom seen).any fun pair => pair.2.isImportFrom file) : s.Concurs V s' := by
  refine .intro (fun w spoken => ?_) (fun w b b' spoken found found' => ?_) declares imports
  · unfold Scope.has
    generalize s.lookup w = a, s'.lookup w = a', lookup w spoken = related
    cases related <;> rfl
  · have related := lookup w spoken
    rw [found, found'] at related
    cases related with
    | some bindings => exact bindings

/-- A scope concurs with itself, if it binds no value from outside the vocabulary. -/
lemma self (closed : ∀ w v x, s.lookup w = some (.value v) → v.inner = .string x → V x) :
    s.Concurs V s := by
  refine of_lookup (fun w _ => ?_) (fun _ _ => rfl) fun _ _ => rfl
  rcases found : s.lookup w with _ | b
  · exact .none
  · refine .some (.self ?_)
    rintro v x rfl string
    exact closed w v x found string

/-- Frames of bindings that concur, on scopes that concur. -/
lemma extend (h : s.Concurs V s') {bs bs' : Keyed Binding}
    (related : Keyed.Related (Binding.Concurs V) bs bs') (kind : FrameKind) :
    (s.extend bs kind).Concurs V (s'.extend bs' kind) := by
  refine of_lookup (fun w spoken => ?_) (fun w spoken => h.declares_eq spoken) fun seen file => ?_
  · rw [lookup_extend, lookup_extend]
    rcases related.ofPairs.get? w with ⟨none, none'⟩ | ⟨b, b', found, found', bindings⟩
    · rw [none, none']
      exact h.lookup spoken
    · rw [found, found']
      exact .some bindings
  · -- what is visible of imports is that of the frame and that of the rest without the frame's
    -- names, which are the same
    have names : (Keyed.ofPairs bs).map Prod.fst = (Keyed.ofPairs bs').map Prod.fst :=
      related.ofPairs.names_eq
    simp only [Scope.extend, visibleFrom, List.any_append, names, h.imports_eq,
      related.ofPairs.any_filter_eq (fun _ _ bindings => bindings.isImportFrom_eq file)
        fun name => !seen.contains name]

lemma bind (h : s.Concurs V s') (name : String) {b b' : Binding} (bindings : b.Concurs V b')
    (kind : FrameKind) : (s.bind name b kind).Concurs V (s'.bind name b' kind) :=
  h.extend (.cons bindings .nil) kind

/-- Marks of documents that declare the same words of the vocabulary. -/
lemma enterDocument (h : s.Concurs V s') {names names' : List String}
    (same : ∀ w, V w → (w ∈ names ↔ w ∈ names')) :
    (s.enterDocument names).Concurs V (s'.enterDocument names') := by
  refine of_lookup (fun w spoken => ?_) (fun w spoken => ?_) fun seen file => h.imports_eq seen file
  · rw [lookup_enterDocument, lookup_enterDocument]
    exact h.lookup spoken
  · rw [declares_enterDocument, declares_enterDocument, Bool.eq_iff_iff, List.contains_iff_mem,
      List.contains_iff_mem]
    exact same w spoken

/-- **A binding that no word of the vocabulary asks for is not noticed**, if it shadows nothing and
is no import. -/
lemma hide (h : s.Concurs V s') {name : String} (unspoken : ¬V name)
    (unbound : s'.lookup name = none) {b : Binding} (ordinary : ∀ file, b.isImportFrom file = false)
    (kind : FrameKind) : s.Concurs V (s'.bind name b kind) := by
  refine of_lookup (fun w spoken => ?_) (fun w spoken => h.declares_eq spoken) fun seen file => ?_
  · have other : name ≠ w := fun same => unspoken (same ▸ spoken)
    rw [lookup_bind, if_neg other]
    exact h.lookup spoken
  · have pushed : (s'.bind name b kind).visibleFrom seen =
        [(name, b)].filter (fun pair => !seen.contains pair.1) ++
          s'.visibleFrom (name :: seen) := rfl
    -- the name is taken for seen below its frame, where it is not bound
    have below : s'.visibleFrom (name :: seen) = s'.visibleFrom seen := by
      refine visibleFrom_congr s' fun other bound => ?_
      rw [List.mem_cons, or_iff_right]
      rintro rfl
      exact bound unbound
    rw [pushed, below, List.any_append, h.imports_eq seen file]
    simp [ordinary]

end Scope.Concurs

end Stencil
