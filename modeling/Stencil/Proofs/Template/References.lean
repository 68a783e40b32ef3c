import Stencil.Proofs.Template.Forms
import Stencil.Template.References

/-!
# References before and during a call

The references of a template are checked where it is declared, before anything is bound to its
tparameters.  `Scope.missing` is the same search with a scope that does bind them: a reference is
missing if the scope does not bind it, and what is bound to a node takes the place of all that
stands there.

Under the frame of a call the body misses just what was found at its declaration
(`missing_eq_badReferences`).  The search at the declaration guesses what a name stands for from the
forms of the tparameters and from the home, and a frame binds nothing else to it.

What a scope binds to a name decides where the search goes: nowhere under a name that is bound to a
node, into what the holders hold under a name that is bound to a template, and otherwise into the
children.  At the declaration the same three ways are told apart by the form of a tparameter or by
the home, so it is enough that the two tests agree on every name (`Foresees`).
-/

namespace Stencil

namespace Scope

variable (s : Scope)

mutual

/-- The references that a node, and what is read with it under a scope, can be reported for. -/
def missing : Node → List Diagnostic
  | ⟨name, entries, children, span⟩ =>
    if name.inner = expandWord then
      match (Node.mk name entries children span).soleString? with
      | some target =>
        if (s.lookup target.inner).isSome then []
        else [(Problem.unboundReference target.inner).reportedAt target.span]
      | none => []
    else
      match s.lookup name.inner with
      | some (.node ..) => []
      | some (.template ..) => missingOfHolders children
      | some _ => missingOfAll children
      | none =>
        (if s.declares name.inner then
          [(Problem.unknownTemplate name.inner).reportedAt name.span] else []) ++
          missingOfAll children

/-- The references that some nodes can be reported for. -/
def missingOfAll : List Node → List Diagnostic
  | [] => []
  | n :: rest => missing n ++ missingOfAll rest

/-- The references that what some holders hold can be reported for. -/
def missingOfHolders : List Node → List Diagnostic
  | [] => []
  | ⟨_, _, held, _⟩ :: rest => missingOfAll held ++ missingOfHolders rest

end

variable {s} {n : Node} {nodes : List Node}

/-- The search, read off the parts of a node. -/
lemma missing_eq (n : Node) : s.missing n =
    if n.name.inner = expandWord then
      match n.soleString? with
      | some target =>
        if (s.lookup target.inner).isSome then []
        else [(Problem.unboundReference target.inner).reportedAt target.span]
      | none => []
    else
      match s.lookup n.name.inner with
      | some (.node ..) => []
      | some (.template ..) => s.missingOfHolders n.children
      | some _ => s.missingOfAll n.children
      | none =>
        (if s.declares n.name.inner then
          [(Problem.unknownTemplate n.name.inner).reportedAt n.name.span] else []) ++
          s.missingOfAll n.children := by
  cases n
  rw [missing]

/-- What one node misses is among what all of them miss. -/
lemma missing_subset_missingOfAll (h : n ∈ nodes) : s.missing n ⊆ s.missingOfAll nodes := by
  induction nodes with
  | nil => exact absurd h List.not_mem_nil
  | cons first rest ih =>
    rw [missingOfAll]
    rcases List.mem_cons.1 h with rfl | h
    · exact List.subset_append_left _ _
    · exact List.subset_append_of_subset_right _ (ih h)

/-- What the nodes that a holder holds miss is among what the holders miss. -/
lemma missingOfAll_subset_missingOfHolders {holder : Node} (h : holder ∈ nodes) :
    s.missingOfAll holder.children ⊆ s.missingOfHolders nodes := by
  induction nodes with
  | nil => exact absurd h List.not_mem_nil
  | cons first rest ih =>
    obtain ⟨name, entries, held, span⟩ := first
    rw [missingOfHolders]
    rcases List.mem_cons.1 h with rfl | h
    · exact List.subset_append_left _ _
    · exact List.subset_append_of_subset_right _ (ih h)

mutual

/-- A node without markers misses nothing under a scope that binds what its document declares. -/
lemma missing_eq_nil (bound : ∀ w, s.lookup w = none → s.declares w = false) :
    (n : Node) → expandWord ∉ n.names → s.missing n = []
  | ⟨name, entries, children, span⟩, unmarked => by
    rw [Node.names, List.mem_cons, not_or] at unmarked
    rw [missing, if_neg (Ne.symm unmarked.1)]
    have all := missingOfAll_eq_nil bound children unmarked.2
    split
    · rfl
    · exact missingOfHolders_eq_nil bound children unmarked.2
    · exact all
    · next unbound => rw [bound _ unbound, all]; rfl

lemma missingOfAll_eq_nil (bound : ∀ w, s.lookup w = none → s.declares w = false) :
    (nodes : List Node) → expandWord ∉ Node.namesAll nodes → s.missingOfAll nodes = []
  | [], _ => by rw [missingOfAll]
  | n :: rest, unmarked => by
    rw [Node.namesAll, List.mem_append, not_or] at unmarked
    rw [missingOfAll, missing_eq_nil bound n unmarked.1, missingOfAll_eq_nil bound rest unmarked.2]
    rfl

lemma missingOfHolders_eq_nil (bound : ∀ w, s.lookup w = none → s.declares w = false) :
    (nodes : List Node) → expandWord ∉ Node.namesAll nodes → s.missingOfHolders nodes = []
  | [], _ => by rw [missingOfHolders]
  | ⟨name, entries, held, span⟩ :: rest, unmarked => by
    rw [Node.namesAll, Node.names, List.mem_append, List.mem_cons, not_or, not_or] at unmarked
    rw [missingOfHolders, missingOfAll_eq_nil bound held unmarked.1.2,
      missingOfHolders_eq_nil bound rest unmarked.2]
    rfl

end

end Scope

namespace Template

variable {home s : Scope} {tparameters : List Tparameter}

/-- A scope under which names stand for what the search at a declaration takes them for: a
tparameter for what its form takes, and any other name for what the home binds it to, which is a
template if it is anything. -/
structure Foresees (home : Scope) (tparameters : List Tparameter) (s : Scope) : Prop where
  taken : ∀ name p, (tparameters.find? fun p => p.name == name) = some p →
    ∃ b, s.lookup name = some b ∧ p.form.Takes b
  others : ∀ name, (tparameters.find? fun p => p.name == name) = none →
    s.lookup name = home.lookup name
  declares : ∀ name, s.declares name = home.declares name
  templates : ∀ name b, home.lookup name = some b → b.isTemplate = true

/-- The home is what the search takes it for, without tparameters. -/
lemma foresees_home (templates : ∀ name b, home.lookup name = some b → b.isTemplate = true) :
    Foresees home [] home :=
  ⟨fun _ _ found => (nomatch found), fun _ _ => rfl, fun _ => rfl, templates⟩

/-- One node is searched alike if its children are. -/
lemma missing_eq_of_children (h : Foresees home tparameters s) {n : Node}
    (unbound : ∀ w ∈ Entry.strings n.entries, home.lookup w = none)
    (all : s.missingOfAll n.children = badReferencesOfAll home tparameters n.children)
    (holders : s.missingOfHolders n.children = badReferencesOfHolders home tparameters n.children) :
    s.missing n = badReferences home tparameters n := by
  obtain ⟨name, entries, children, span⟩ := n
  rw [Scope.missing, badReferences]
  split
  · -- a marker: it is found missing at the declaration if it names no tparameter, and during the
    -- call if nothing is bound to what it names; a string that names something of the home would
    -- make a difference, which is why `unbound` is asked for
    rcases sole : Node.soleString? ⟨name, entries, children, span⟩ with _ | target
    · rfl
    · have string := Node.mem_strings_of_soleString? sole
      have bound : (s.lookup target.inner).isSome =
          tparameters.any fun p => p.name == target.inner := by
        rw [← List.isSome_find?]
        rcases found : tparameters.find? fun p => p.name == target.inner with _ | p
        · rw [h.others _ found, unbound _ string, found]
          rfl
        · obtain ⟨b, bound, _⟩ := h.taken _ _ found
          rw [bound, found]
          rfl
      dsimp only
      rw [bound]
  · -- any other node: if its name is no tparameter, the home decides, and binds a template if it
    -- binds anything
    rcases found : tparameters.find? fun p => p.name == name.inner with _ | ⟨_, _, form⟩
    · rw [h.others _ found, found]
      rcases bound : home.lookup name.inner with _ | b
      · rw [h.declares, all]
      · have template := h.templates _ b bound
        cases b with
        | template => exact holders
        | _ => cases template
    · obtain ⟨b, bound, takes⟩ := h.taken _ _ found
      rw [bound, found]
      cases takes with
      | node => rfl
      | _ => exact all

mutual

/-- **A node misses what was found at the declaration**, if none of its strings names something
that the home binds. -/
theorem missing_eq_badReferences (h : Foresees home tparameters s) :
    (n : Node) → (∀ w ∈ n.strings, home.lookup w = none) →
      s.missing n = badReferences home tparameters n
  | ⟨name, entries, children, span⟩, unbound => by
    rw [Node.strings, List.forall_mem_append] at unbound
    exact missing_eq_of_children h unbound.1 (missing_eq_badReferencesOfAll h children unbound.2)
      (missing_eq_badReferencesOfHolders h children unbound.2)

theorem missing_eq_badReferencesOfAll (h : Foresees home tparameters s) :
    (nodes : List Node) → (∀ w ∈ Node.stringsAll nodes, home.lookup w = none) →
      s.missingOfAll nodes = badReferencesOfAll home tparameters nodes
  | [], _ => by rw [Scope.missingOfAll, badReferencesOfAll]
  | n :: rest, unbound => by
    rw [Node.stringsAll, List.forall_mem_append] at unbound
    rw [Scope.missingOfAll, badReferencesOfAll, missing_eq_badReferences h n unbound.1,
      missing_eq_badReferencesOfAll h rest unbound.2]

theorem missing_eq_badReferencesOfHolders (h : Foresees home tparameters s) :
    (nodes : List Node) → (∀ w ∈ Node.stringsAll nodes, home.lookup w = none) →
      s.missingOfHolders nodes = badReferencesOfHolders home tparameters nodes
  | [], _ => by rw [Scope.missingOfHolders, badReferencesOfHolders]
  | ⟨name, entries, held, span⟩ :: rest, unbound => by
    rw [Node.stringsAll, Node.strings, List.forall_mem_append, List.forall_mem_append] at unbound
    rw [Scope.missingOfHolders, badReferencesOfHolders,
      missing_eq_badReferencesOfAll h held unbound.1.2,
      missing_eq_badReferencesOfHolders h rest unbound.2]

end

end Template

end Stencil
