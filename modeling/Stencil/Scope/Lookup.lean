import Stencil.Scope.Basic
import Stencil.Text.Qualified

/-!
# Pushing frames and looking up names

Frames are pushed by `Scope.extend` and its special cases.  A scope is asked by `lookup`,
which takes the innermost binding of a name, by `declares`, which knows the templates of the
current document, and by `lacksImport`, which recognises references to templates that an
imported file does not provide.
-/

namespace Stencil

namespace Scope

/-! ## Pushing frames -/

/-- The names that the current document declares; absent outside a document. -/
def declared? : Scope → Option (List String)
  | .root => none
  | .frame _ _ _ declared => declared

/-- The scope with a frame pushed on it; a later binding of a name in the frame replaces an
earlier one. -/
def extend (s : Scope) (bindings : List (String × Binding)) (kind : FrameKind) : Scope :=
  .frame s kind (Keyed.ofPairs bindings) s.declared?

/-- The scope with a frame of one binding pushed on it. -/
def bind (s : Scope) (name : String) (binding : Binding) (kind : FrameKind) : Scope :=
  s.extend [(name, binding)] kind

/-- The scope with the mark of a document pushed on it, which names every template that the
document declares. -/
def enterDocument (s : Scope) (names : List String) : Scope :=
  .frame s .document [] (some names)

/-- The scope with external values pushed on it, in the order of a record's fields. -/
def withValues (s : Scope) (values : List (String × Scalar)) : Scope :=
  s.extend
    ((Keyed.fieldsOfPairs values).map fun pair => (pair.1, .value ⟨pair.2, Span.none⟩))
    .external

/-! ## Asking a scope -/

/-- The innermost binding of a name. -/
def lookup : Scope → String → Option Binding
  | .root, _ => none
  | .frame parent _ bindings _, name =>
    match Keyed.get? bindings name with
    | some b => some b
    | none => parent.lookup name

/-- Whether a name is bound. -/
def has (s : Scope) (name : String) : Bool :=
  (s.lookup name).isSome

/-- Whether a name is a template of the current document, declared anywhere in it. -/
def declares (s : Scope) (name : String) : Bool :=
  match s.declared? with
  | some names => names.contains name
  | none => false

/-- The bindings under names not yet seen, innermost frame first. -/
def visibleFrom (seen : List String) : Scope → Keyed Binding
  | .root => []
  | .frame parent _ bindings _ =>
    (bindings.filter fun pair => !seen.contains pair.1) ++
      parent.visibleFrom (bindings.map Prod.fst ++ seen)

/-- Every binding that is not shadowed, innermost frame first. -/
def visible (s : Scope) : Keyed Binding :=
  s.visibleFrom []

/-- What the innermost frame was pushed for. -/
def kind : Scope → FrameKind
  | .root => .root
  | .frame _ kind _ _ => kind

/-- What each frame was pushed for, from the innermost one to the root. -/
def kinds : Scope → List FrameKind
  | .root => [.root]
  | .frame parent kind _ _ => kind :: parent.kinds

/-- The number of frames above the root. -/
def depth : Scope → Nat
  | .root => 0
  | .frame parent _ _ _ => parent.depth + 1

/-! ## References across files -/

/-- Whether a name refers to a file from which some visible template was imported.  When the
name itself is unbound, the file does not provide it. -/
def lacksImport (s : Scope) (name : String) : Bool :=
  match QualifiedName.ofString? name with
  | some q => s.visible.any fun pair => pair.2.isImportFrom q.file
  | none => false

end Scope

end Stencil
