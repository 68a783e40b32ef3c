import Stencil.Proofs.Expansion.Simulation

/-!
# Scopes that give the same answers

Two scopes agree on a vocabulary if they look up the same bindings for its words and report the same
words as missing, and if the strings that its words are bound to belong to it again
(`Scope.Agree`).  What is spoken in that vocabulary expands alike under both: that each node stands
for itself is a simulation (`Agreement.isSimulation`).

Where the vocabulary is that of all words, this says that an expansion sees nothing of a scope but
its answers (`expandNode_eq_of_answers`).  How its frames are split, ordered and shadowed, and what
they were pushed for, makes no difference.

The vocabulary is what makes the statement useful for scopes that do differ: an import bound on top
of a scope changes what one word is bound to, and for nodes that do not speak the word nothing else
has to be shown.
-/

namespace Stencil

variable {V : String → Prop} {s s' : Scope}

/-- Scopes that give the same answers to the words of a vocabulary.  The vocabulary is closed under
renaming: a node whose name is bound to a string is read again under that string, so the string has
to be in it too. -/
structure Scope.Agree (V : String → Prop) (s s' : Scope) : Prop where
  lookup : ∀ w, V w → s.lookup w = s'.lookup w
  reports : ∀ w, V w → (s.declares w || s.lacksImport w) = (s'.declares w || s'.lacksImport w)
  closed : ∀ w v x, V w → s.lookup w = some (.value v) → v.inner = .string x → V x

/-- A node stands for itself under two scopes that agree on a vocabulary in which it is spoken. -/
inductive Agreement : Scope → Node → Scope → Node → Prop
  | node {V : String → Prop} {s s' : Scope} {n : Node} (agree : s.Agree V s')
      (spoken : n.SpokenIn V) : Agreement s n s' n

lemma Scope.Agree.answers (h : s.Agree V s') : Correspondence.Answers Agreement V s s' where
  lookup w hw := by
    rw [h.lookup w hw]
    rcases s'.lookup w with _ | b
    · exact .none
    · exact .some (.same b)
  unboundName name hw := by
    unfold Scope.unboundName
    rw [h.reports _ hw]
  closed := h.closed
  node _ spoken := .node (.node h spoken)

/-- Scopes that agree read alike what is spoken in their vocabulary. -/
theorem Agreement.isSimulation : Correspondence.IsSimulation Agreement := by
  rintro s n s' _ ⟨agree, spoken⟩
  exact agree.answers.reading spoken

/-- **An expansion sees a scope only through its answers.**  Under two scopes that look up the same
bindings, declare the same names and lack the same imports, every node expands to the same nodes
with the same journal. -/
theorem expandNode_eq_of_answers (lookup : ∀ name, s.lookup name = s'.lookup name)
    (declares : ∀ name, s.declares name = s'.declares name)
    (lacksImport : ∀ name, s.lacksImport name = s'.lacksImport name) (c : Config) (used : Nat)
    (depth : Depth) (n : Node) : expandNode c used depth s n = expandNode c used depth s' n := by
  have agree : s.Agree (fun _ => True) s' :=
    { lookup := fun w _ => lookup w
      reports := fun w _ => by rw [declares, lacksImport]
      closed := fun _ _ _ _ _ _ => trivial }
  exact Agreement.isSimulation.expandNode_eq (.node (.node agree fun _ _ => trivial))

/-- A template that inserts what it is called with twice. -/
def Template.twice : Template where
  name := "twice"
  tparameters := [⟨"content", .none, .splice []⟩]
  body := .bare "pair" [.naming "expand" "content", .naming "expand" "content"]
  home := .root
  style := .none
  span := .none

/-- Four frames: a unit, a template of another file, a document, and a template that shadows the
unit's older value. -/
def Scope.stacked : Scope :=
  (((Scope.root.bind "unit" (.value ⟨.string "em", .none⟩) .external).bind "shapes/twice"
    (.template (some .twice) .imported (some "shapes") .none) .imports).enterDocument
      ["late"]).bind "unit" (.value ⟨.string "px", .none⟩) .declaration

/-- The same answers from two frames. -/
def Scope.flat : Scope :=
  (Scope.root.enterDocument ["late", "late"]).extend
    [("unit", .value ⟨.string "px", .none⟩),
      ("shapes/twice", .template (some .twice) .imported (some "shapes") .none)] .root

/-- A call inside what a call captures. -/
def Node.nestedCall : Node :=
  .bare "shapes/twice" [.bare "content" [.bare "shapes/twice" [.bare "content"
    [.naming "size" "unit", .bare "late" [], .bare "shapes/none" []]]]]

/-- Three calls, and four times a forward reference and a lacking import, whichever way the frames
are stacked. -/
theorem nestedCall_stacked_or_flat :
    expandNode .default 0 .top .stacked .nestedCall =
        expandNode .default 0 .top .flat .nestedCall ∧
      (expandNode .default 0 .top .flat .nestedCall).journal.callCount = 3 ∧
      (expandNode .default 0 .top .flat .nestedCall).journal.diagnostics.length = 8 := by
  have pairs : ∀ a b : Binding, Keyed.ofPairs [("unit", a), ("shapes/twice", b)] =
      [("unit", a), ("shapes/twice", b)] := fun _ _ => rfl
  refine ⟨expandNode_eq_of_answers (fun name => ?_) (fun name => ?_) (fun name => ?_) .default 0
    .top .nestedCall, by decide +kernel, by decide +kernel⟩
  · -- the older value of the unit is hidden in both, and the order of the other two bindings is
    -- not seen
    rw [Scope.stacked, Scope.flat, Scope.lookup_extend, pairs, Scope.lookup_bind,
      Scope.lookup_enterDocument, Scope.lookup_bind, Scope.lookup_bind, Keyed.get?_cons,
      Keyed.get?_cons]
    split
    · rfl
    · dsimp only
      split <;> rfl
  · change ["late"].contains name = ["late", "late"].contains name
    simp
  · unfold Scope.lacksImport
    rcases QualifiedName.ofString? name with _ | q
    · rfl
    · rfl

end Stencil
