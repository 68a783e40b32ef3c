import Stencil.Proofs.Scope.Reach

/-!
# What a reading rests on

`Scope.Reads` is the inversion of `Scope.reading`: for each way to read a node, the lookup that
leads to it and what it takes from the node.  A node that stands for itself keeps its entries and
its children, and its name is either its own or a bound string; captured nodes are those of a
binding; a call is a call of a template that is bound.

Most of what is proved about expansion asks where something comes from, and then `Reads` is all that
is needed of a reading: the cases that matter are told apart, and those that only report a mistake
are kept together.
-/

namespace Stencil

namespace Scope

/-- The ways to read a node. -/
inductive Reads (s : Scope) (n : Node) : Reading → List Diagnostic → Prop
  | mistaken {problem : Problem} {span : Span} : Reads s n .nothing [problem.reportedAt span]
  /-- It keeps a name that is bound to nothing. -/
  | unbound (ordinary : n.name.inner ≠ expandWord) (found : s.lookup n.name.inner = none) :
      Reads s n (.plain n) (s.unboundName n.name)
  /-- It takes a bound string for its name. -/
  | renamed {value : Spanned Scalar} {name : String}
      (found : s.lookup n.name.inner = some (.value value)) (string : value.inner = .string name) :
      Reads s n (.plain (n.rename ⟨name, value.span⟩)) []
  /-- It keeps a name that is bound to another value, by mistake. -/
  | misnamed {problem : Problem} {span : Span} : Reads s n (.plain n) [problem.reportedAt span]
  | called {name : String} {t : Template} {origin : Origin} {file : Option String} {span : Span}
      {call : Node} (found : s.lookup name = some (.template (some t) origin file span))
      (entries : call.entries = n.entries) (children : call.children = n.children) :
      Reads s n (.call t call) []
  | kept {name : String} {origin : Origin} {file : Option String} {span : Span}
      {call : Node} (found : s.lookup name = some (.template none origin file span)) :
      Reads s n (.kept call) []
  | captured {name : String} {b : Binding} {inner : Scope} (found : s.lookup name = some b)
      (captured : b.scope? = some inner) : Reads s n (.captured b.nodes inner) []

variable {s : Scope} {n : Node}

/-- A marker is replaced by what its target is bound to, or is mistaken. -/
lemma reads_readMarker (marker : Node) :
    s.Reads n (s.readMarker marker).1 (s.readMarker marker).2 := by
  unfold readMarker
  split
  · split
    · next found => exact .captured found rfl
    · exact .mistaken
    · exact .mistaken
  · exact .mistaken

/-- A node whose name is bound to a template is a call of it, or is kept if the template was
malformed. -/
lemma reads_readCall {name : String} {template : Option Template} {origin : Origin}
    {file : Option String} {span : Span} {call : Node}
    (found : s.lookup name = some (.template template origin file span))
    (entries : call.entries = n.entries) (children : call.children = n.children) :
    s.Reads n (readCall template call) [] := by
  cases template with
  | none => exact .kept found
  | some t => exact .called found entries children

/-- A node whose name is bound to a value takes a string for its name, and is called under that name
if it is bound to a template. -/
lemma reads_readRenamed {value : Spanned Scalar}
    (found : s.lookup n.name.inner = some (.value value)) :
    s.Reads n (s.readRenamed n value).1 (s.readRenamed n value).2 := by
  unfold readRenamed
  split
  · next string =>
    dsimp only
    split
    · next target => exact reads_readCall target rfl rfl
    · exact .renamed found string
  · exact .misnamed

/-- Every reading rests on one of these. -/
lemma reads_reading (s : Scope) (n : Node) : s.Reads n (s.reading n).1 (s.reading n).2 := by
  unfold reading
  split
  · exact reads_readMarker n
  · next ordinary =>
    split
    · next found => exact .unbound ordinary found
    · next found => exact reads_readCall found rfl rfl
    · next found => exact reads_readRenamed found
    · next found => exact .captured found rfl
    · exact .mistaken

/-- What a reading that is known rests on. -/
lemma reads_of_reading_eq {r : Reading} {problems : List Diagnostic}
    (h : s.reading n = (r, problems)) : s.Reads n r problems := by
  have reads := reads_reading s n
  rwa [h] at reads

/-! ## Ordinary names -/

/-- A node with the name of a template is a call. -/
lemma reading_of_template {t : Template} {origin : Origin} {file : Option String} {span : Span}
    (ordinary : n.name.inner ≠ expandWord)
    (found : s.lookup n.name.inner = some (.template (some t) origin file span)) :
    s.reading n = (.call t n, []) := by
  unfold reading
  rw [if_neg ordinary, found]
  rfl

/-- A node with an unbound name stands for itself. -/
lemma reading_of_unbound (ordinary : n.name.inner ≠ expandWord)
    (found : s.lookup n.name.inner = none) :
    s.reading n = (.plain n, s.unboundName n.name) := by
  unfold reading
  rw [if_neg ordinary, found]

end Scope

end Stencil
