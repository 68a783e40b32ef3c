import Stencil.Proofs.Template.Frame
import Stencil.Proofs.Tree.Words

/-!
# What a scope comes to

A scope binds names, and what it binds has captured scopes in turn: a template its home, an
argument the scope of its call.  `Scope.Reaches` follows both, so it finds every declaration and
every argument that reading a node under the scope can ever bring in.

A property of all that a scope comes to passes to every captured scope (`Reaches.within`) and to
the scope with a frame pushed on it, if the frame's own bindings have it (`reaches_extend`).

`Throughout` turns this around for the proofs: what is to be carried along a run is a property of
the scope and of every scope captured in it, and a call takes the home of a template out of the
scope and pushes a frame on it.  Both steps keep the property (`Throughout.of_lookup`,
`Throughout.extend`).
-/

namespace Stencil

/-! ## Captured scopes and strings -/

/-- The strings of a tparameter's default. -/
def TparameterForm.strings : TparameterForm → List String
  | .positional => []
  | .named default => default.inner.string?.toList
  | .node default => default.strings
  | .splice default => Node.stringsAll default

namespace Binding

/-- The scope that a binding has captured. -/
def scope? : Binding → Option Scope
  | .template (some t) _ _ _ => some t.home
  | .template none _ _ _ => none
  | .value _ => none
  | .node _ s => some s
  | .splice _ s => some s

/-- The strings that a binding brings in: those of the body and the defaults of a template, of a
value, or of captured nodes. -/
def strings : Binding → List String
  | .template (some t) _ _ _ =>
    t.body.strings ++ t.tparameters.flatMap fun p => p.form.strings
  | .template none _ _ _ => []
  | .value v => v.inner.string?.toList
  | .node n _ => n.strings
  | .splice nodes _ => Node.stringsAll nodes

/-- The nodes that a binding holds for the name it is bound to. -/
def nodes : Binding → List Node
  | .template .. => []
  | .value _ => []
  | .node n _ => [n]
  | .splice nodes _ => nodes

/-- Whether a binding is the template of a malformed declaration. -/
def isMalformed : Binding → Bool
  | .template none _ _ _ => true
  | _ => false

lemma nodes_subset_strings (b : Binding) : Node.stringsAll b.nodes ⊆ b.strings := by
  cases b <;> simp [nodes, strings]

end Binding

lemma Scalar.mem_string? {v : Scalar} {x : String} : x ∈ v.string?.toList ↔ v = .string x := by
  cases v <;> simp [Scalar.string?, eq_comm]

/-- The value that a string reads as is the string or a bound value. -/
lemma Scope.valueOf_eq_or_bound (s : Scope) (v : Spanned Scalar) :
    (s.valueOf v).1 = v ∨ ∃ name, s.lookup name = some (.value (s.valueOf v).1) := by
  unfold valueOf
  split
  · split
    · exact .inl rfl
    · exact .inl rfl
    · next found => exact .inr ⟨_, found⟩
    · exact .inl rfl
  · exact .inl rfl

/-! ## What a call binds -/

namespace Template.BindsAlike

variable {t : Template} {call : Node} {s : Scope} {b b' : Binding}

/-- A call binds no templates. -/
lemma isTemplate_eq_false (h : t.BindsAlike call s s b b') : b.isTemplate = false := by
  cases h with
  | value => rfl
  | node => rfl
  | splice => rfl
  | fallback _ default =>
    unfold fallback? at default
    split at default
    · cases default
    all_goals
      obtain rfl := Option.some.inj default
      rfl

/-- What a call binds has captured the scope of the call or the home of the template. -/
lemma eq_of_scope? (h : t.BindsAlike call s s b b') {inner : Scope}
    (captured : b.scope? = some inner) : inner = s ∨ inner = t.home := by
  cases h with
  | value => cases captured
  | node => exact .inl (Option.some.inj captured).symm
  | splice => exact .inl (Option.some.inj captured).symm
  | fallback _ default =>
    unfold fallback? at default
    split at default
    · cases default
    all_goals
      obtain rfl := Option.some.inj default
      cases captured
      try exact .inr rfl

/-- A string that a call binds is one of the call's or of the template's defaults, or the scope of
the call or the home of the template binds it. -/
lemma mem_strings (h : t.BindsAlike call s s b b') {x : String} (hx : x ∈ b.strings) :
    x ∈ call.strings ∨ (∃ p ∈ t.tparameters, x ∈ p.form.strings) ∨
      ∃ name v, (s.lookup name = some (.value v) ∨ t.home.lookup name = some (.value v)) ∧
        v.inner = .string x := by
  -- one case for each way in which a call binds: a value, a held node, held nodes, or a default
  cases h with
  | @value v written =>
    have string := Scalar.mem_string?.1 hx
    rcases s.valueOf_eq_or_bound v with same | ⟨name, found⟩
    · rw [same] at string
      exact .inl (written.mem_strings string)
    · exact .inr (.inr ⟨name, _, .inl found, string⟩)
  | @node holder child holds held =>
    exact .inl (call.children_subset_strings (Node.strings_subset_stringsAll holds
      (holder.children_subset_strings (Node.strings_subset_stringsAll held hx))))
  | @splice holder holds =>
    exact .inl (call.children_subset_strings (Node.strings_subset_stringsAll holds
      (holder.children_subset_strings hx)))
  | @fallback p _ declared default =>
    right
    unfold fallback? at default
    split at default
    · cases default
    · next v form =>
      -- a default value is read at home, where a string can be the name of a bound value
      obtain rfl := Option.some.inj default
      have string := Scalar.mem_string?.1 hx
      rcases t.home.valueOf_eq_or_bound v with same | ⟨name, found⟩
      · rw [same] at string
        exact .inl ⟨p, declared, by rw [form]; exact Scalar.mem_string?.2 string⟩
      · exact .inr ⟨name, _, .inr found, string⟩
    all_goals
      next form =>
      obtain rfl := Option.some.inj default
      exact .inl ⟨p, declared, by rw [form]; exact hx⟩

end Template.BindsAlike

namespace Scope

/-- A scope comes to a binding: it binds it to a name, or something that it binds has captured a
scope that comes to it. -/
inductive Reaches : Scope → Binding → Prop
  | bound {s : Scope} {name : String} {b : Binding} (h : s.lookup name = some b) : s.Reaches b
  | within {s inner : Scope} {name : String} {b b' : Binding} (h : s.lookup name = some b)
      (captured : b.scope? = some inner) (further : inner.Reaches b') : s.Reaches b'

variable {s inner : Scope} {name : String} {b b' : Binding} {bs : List (String × Binding)}

/-! ## Pushed frames -/

lemma lookup_extend (s : Scope) (bs : List (String × Binding)) (kind : FrameKind)
    (name : String) :
    (s.extend bs kind).lookup name = ((Keyed.ofPairs bs).get? name).or (s.lookup name) := by
  rw [extend, lookup]
  cases (Keyed.ofPairs bs).get? name <;> rfl

lemma lookup_bind (s : Scope) (name : String) (b : Binding) (kind : FrameKind) (other : String) :
    (s.bind name b kind).lookup other = if name = other then some b else s.lookup other := by
  have pairs : Keyed.ofPairs [(name, b)] = [(name, b)] := rfl
  rw [bind, lookup_extend, pairs, Keyed.get?_cons]
  split <;> rfl

@[simp] lemma lookup_enterDocument (s : Scope) (names : List String) (name : String) :
    (s.enterDocument names).lookup name = s.lookup name := by
  rw [enterDocument, lookup]
  rfl

@[simp] lemma declares_extend (s : Scope) (bs : List (String × Binding)) (kind : FrameKind)
    (name : String) : (s.extend bs kind).declares name = s.declares name :=
  rfl

@[simp] lemma declares_enterDocument (s : Scope) (names : List String) (name : String) :
    (s.enterDocument names).declares name = names.contains name :=
  rfl

/-- A frame brings in its own bindings and what they have captured, and nothing else. -/
lemma reaches_extend {kind : FrameKind} (h : (s.extend bs kind).Reaches b) :
    s.Reaches b ∨ ∃ pair ∈ bs, pair.2 = b ∨ ∃ inner, pair.2.scope? = some inner ∧
      inner.Reaches b := by
  have split_lookup : ∀ {name c}, (s.extend bs kind).lookup name = some c →
      (name, c) ∈ bs ∨ s.lookup name = some c := by
    intro name c found
    rw [lookup_extend, Option.or_eq_some_iff] at found
    rcases found with found | ⟨_, found⟩
    · exact .inl (Keyed.mem_of_mem_ofPairs (Keyed.mem_of_get? found))
    · exact .inr found
  cases h with
  | bound found =>
    rcases split_lookup found with mem | found
    · exact .inr ⟨_, mem, .inl rfl⟩
    · exact .inl (.bound found)
  | within found captured further =>
    rcases split_lookup found with mem | found
    · exact .inr ⟨_, mem, .inr ⟨_, captured, further⟩⟩
    · exact .inl (.within found captured further)

/-- Frames over related bindings answer every lookup with related bindings. -/
lemma lookup_related {R : Binding → Binding → Prop} {bs bs' : Keyed Binding} (refl : ∀ b, R b b)
    (related : Keyed.Related R bs bs') (parent : Scope) (kind : FrameKind)
    (declared : Option (List String)) (name : String) :
    Option.Rel R ((frame parent kind bs declared).lookup name)
      ((frame parent kind bs' declared).lookup name) := by
  rw [lookup, lookup]
  rcases related.get? name with ⟨none, none'⟩ | ⟨b, b', found, found', bound⟩
  · rw [none, none']
    rcases parent.lookup name with _ | b
    · exact .none
    · exact .some (refl b)
  · rw [found, found']
    exact .some bound

/-- Frames over bindings that are imported from the same files lack the same imports. -/
lemma lacksImport_related {R : Binding → Binding → Prop} {bs bs' : Keyed Binding}
    (imports : ∀ b b', R b b' → ∀ file, b.isImportFrom file = b'.isImportFrom file)
    (related : Keyed.Related R bs bs') (parent : Scope) (kind : FrameKind)
    (declared : Option (List String)) (name : String) :
    (frame parent kind bs declared).lacksImport name =
      (frame parent kind bs' declared).lacksImport name := by
  have names : bs.map Prod.fst = bs'.map Prod.fst := related.names_eq
  have shown : ∀ file,
      (frame parent kind bs declared).visible.any (fun p => p.2.isImportFrom file) =
        (frame parent kind bs' declared).visible.any fun p => p.2.isImportFrom file := by
    intro file
    simp only [visible, visibleFrom, List.any_append, names,
      related.any_filter_eq (fun _ _ bound => imports _ _ bound file)
        fun name => !([] : List String).contains name]
  unfold lacksImport
  rcases QualifiedName.ofString? name with _ | q
  · rfl
  · exact shown q.file

lemma reaches_enterDocument {names : List String} (h : (s.enterDocument names).Reaches b) :
    s.Reaches b := by
  cases h with
  | bound found => exact .bound (by simpa using found)
  | within found captured further => exact .within (by simpa using found) captured further

/-! ## Properties of captured scopes -/

/-- A property holds throughout a scope: of the scope and of every captured scope that it comes
to. -/
structure Throughout (P : Scope → Prop) (s : Scope) : Prop where
  here : P s
  captured : ∀ b inner, s.Reaches b → b.scope? = some inner → P inner

namespace Throughout

variable {P : Scope → Prop}

lemma of_lookup (h : s.Throughout P) (found : s.lookup name = some b)
    (captured : b.scope? = some inner) : inner.Throughout P where
  here := h.captured b inner (.bound found) captured
  captured _ _ further := h.captured _ _ (.within found captured further)

lemma extend {kind : FrameKind} (h : s.Throughout P) (here : P (s.extend bs kind))
    (binds : ∀ pair ∈ bs, ∀ inner, pair.2.scope? = some inner → inner.Throughout P) :
    (s.extend bs kind).Throughout P where
  here := here
  captured b inner reached captured := by
    rcases reaches_extend reached with reached | ⟨pair, hp, rfl | ⟨scope, held, further⟩⟩
    · exact h.captured b inner reached captured
    · exact (binds pair hp inner captured).here
    · exact (binds pair hp scope held).captured b inner further captured

lemma enterDocument {names : List String} (h : s.Throughout P) (here : P (s.enterDocument names)) :
    (s.enterDocument names).Throughout P where
  here := here
  captured b inner reached captured := h.captured b inner (reaches_enterDocument reached) captured

/-- What holds throughout a scope of the bindings of each scope holds of all that it comes to. -/
lemma of_reaches {Q : Binding → Prop}
    (h : s.Throughout fun s => ∀ name b, s.lookup name = some b → Q b) (reached : s.Reaches b) :
    Q b := by
  induction reached with
  | bound found => exact h.here _ _ found
  | within found captured _ ih => exact ih (h.of_lookup found captured)

end Throughout

lemma not_reaches_root : ¬root.Reaches b := by
  intro h
  cases h with
  | bound found => cases found
  | within found _ _ => cases found

end Scope

end Stencil
