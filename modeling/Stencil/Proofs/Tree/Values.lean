import Stencil.Proofs.Tree.Words

/-!
# Trees with other values

`Node.mapValues` puts another value in the place of each value of a tree, of bare arguments and of
properties alike, and leaves names, spans and shape as they are.  Substitution of values for strings
is the case that matters: it is done all at once, so a value that was put in is not looked at again.
-/

namespace Stencil

variable {f : Spanned Scalar → Spanned Scalar}

/-- An entry with another value. -/
def Entry.mapValue (f : Spanned Scalar → Spanned Scalar) (e : Entry) : Entry :=
  { e with value := f e.value }

@[simp] lemma Entry.mapValue_id : Entry.mapValue id = id :=
  rfl

namespace Node

variable {n : Node} {nodes : List Node}

mutual

/-- A tree with other values. -/
def mapValues (f : Spanned Scalar → Spanned Scalar) : Node → Node
  | ⟨name, entries, children, span⟩ =>
    ⟨name, entries.map (Entry.mapValue f), mapValuesAll f children, span⟩

/-- A list of trees with other values. -/
def mapValuesAll (f : Spanned Scalar → Spanned Scalar) : List Node → List Node
  | [] => []
  | n :: rest => mapValues f n :: mapValuesAll f rest

end

lemma mapValues_eq (n : Node) : n.mapValues f =
    ⟨n.name, n.entries.map (Entry.mapValue f), mapValuesAll f n.children, n.span⟩ := by
  cases n
  rw [mapValues]

@[simp] lemma name_mapValues : (n.mapValues f).name = n.name := by
  rw [mapValues_eq]

@[simp] lemma span_mapValues : (n.mapValues f).span = n.span := by
  rw [mapValues_eq]

@[simp] lemma entries_mapValues :
    (n.mapValues f).entries = n.entries.map (Entry.mapValue f) := by
  rw [mapValues_eq]

@[simp] lemma children_mapValues : (n.mapValues f).children = mapValuesAll f n.children := by
  rw [mapValues_eq]

lemma mapValuesAll_eq_map (nodes : List Node) : mapValuesAll f nodes = nodes.map (mapValues f) := by
  induction nodes with
  | nil => rw [mapValuesAll, List.map_nil]
  | cons n rest ih => rw [mapValuesAll, ih, List.map_cons]

mutual

@[simp] lemma mapValues_id : (n : Node) → n.mapValues id = n
  | ⟨name, entries, children, span⟩ => by
    rw [mapValues, mapValuesAll_id children, Entry.mapValue_id, List.map_id]

@[simp] lemma mapValuesAll_id : (nodes : List Node) → mapValuesAll id nodes = nodes
  | [] => by rw [mapValuesAll]
  | n :: rest => by rw [mapValuesAll, mapValues_id n, mapValuesAll_id rest]

end

end Node

end Stencil
