import Stencil.Proofs.Expansion.Derivation
import Stencil.Proofs.Template.Unplaced

/-!
# Expansions without their places

A node without its places is read, under a scope without places, as what the node is read as.  So
each rule by which something expands is again a rule without places, and the derivation of an
expansion is one of the expansion without places (`Expands.unplaced`).

Nothing in an expansion compares two places or decides by one: they are copied from nodes to results
and to reports.  So taking them away commutes with every definition on the way, and each lemma here
is such an equation.
-/

namespace Stencil

/-! ## Readings -/

/-- A reading without its places. -/
def Reading.unplaced : Reading → Reading
  | .nothing => .nothing
  | .plain node => .plain node.unplaced
  | .call template node => .call template.unplaced node.unplaced
  | .kept node => .kept node.unplaced
  | .captured nodes scope => .captured (nodes.map Node.unplaced) scope.unplaced

namespace Scope

variable (s : Scope) (n : Node)

/-- A reading with its problems, without places. -/
def unplacedReading (read : Reading × List Diagnostic) : Reading × List Diagnostic :=
  (read.1.unplaced, read.2.map Diagnostic.unplaced)

lemma readCall_unplaced (template : Option Template) :
    readCall (template.map Template.unplaced) n.unplaced = (readCall template n).unplaced := by
  cases template <;> rfl

lemma readMarker_unplaced :
    s.unplaced.readMarker n.unplaced = unplacedReading (s.readMarker n) := by
  unfold readMarker
  rw [Template.soleString?_unplaced, Node.children_unplaced]
  rcases n.soleString? with _ | target
  · simp [unplacedReading, Reading.unplaced]
  · rcases n.children with _ | ⟨_, _⟩
    · simp only [Option.map_some, List.map_nil, Spanned.inner_unplaced, lookup_unplaced]
      rcases s.lookup target.inner with _ | b
      · rfl
      · rcases b with ⟨_ | t, _, _, _⟩ | ⟨_ | _ | _ | _, _⟩ | _ | _ <;> rfl
    · simp [unplacedReading, Reading.unplaced]

lemma unplaced_rename (name : Spanned String) :
    (n.rename name).unplaced = n.unplaced.rename name.unplaced := by
  rw [Node.unplaced_eq, Node.unplaced_eq n]
  rfl

lemma readRenamed_unplaced (value : Spanned Scalar) :
    s.unplaced.readRenamed n.unplaced value.unplaced =
      unplacedReading (s.readRenamed n value) := by
  rcases value with ⟨_ | _ | _ | name, span⟩
  case string =>
    simp only [readRenamed, Spanned.unplaced, lookup_unplaced]
    have renamed := unplaced_rename n ⟨name, span⟩
    rw [Spanned.unplaced] at renamed
    rw [← renamed]
    -- what the new name is bound to matters only where it is a template
    rcases s.lookup name with _ | ⟨template, _, _, _⟩ | _ | _ | _
    case some.template =>
      rw [Option.map_some, Binding.unplaced_template]
      exact Prod.ext (readCall_unplaced _ template) rfl
    all_goals rfl
  all_goals
    simp only [readRenamed, Spanned.unplaced, Node.name_unplaced]
    rfl

lemma unboundName_unplaced (name : Spanned String) :
    s.unplaced.unboundName name.unplaced = (s.unboundName name).map Diagnostic.unplaced := by
  unfold unboundName
  rw [Spanned.inner_unplaced, declares_unplaced, lacksImport_unplaced]
  split <;> rfl

/-- **A node is read in the same way without places.** -/
theorem reading_unplaced : s.unplaced.reading n.unplaced = unplacedReading (s.reading n) := by
  unfold reading
  simp only [Node.name_unplaced, Spanned.inner_unplaced, lookup_unplaced]
  split
  · exact s.readMarker_unplaced n
  · rcases s.lookup n.name.inner with _ | ⟨template, _, _, _⟩ | v | ⟨m, inner⟩ | ⟨nodes, inner⟩
    · exact Prod.ext rfl (s.unboundName_unplaced n.name)
    · rw [Option.map_some, Binding.unplaced_template]
      exact Prod.ext (readCall_unplaced n template) rfl
    · exact s.readRenamed_unplaced n v
    · rfl
    · rfl

lemma entriesOf_unplaced (entries : List Entry) :
    s.unplaced.entriesOf (entries.map Entry.unplaced) =
      ((s.entriesOf entries).1.map Entry.unplaced,
        (s.entriesOf entries).2.map Diagnostic.unplaced) := by
  simp only [entriesOf, List.map_map, Function.comp_def, entryOf_unplaced, List.flatMap_map,
    List.map_flatMap]

end Scope

/-! ## Runs -/

/-- An expansion without its places. -/
def Expansion.unplaced (e : Expansion) : Expansion :=
  ⟨e.nodes.map Node.unplaced, e.journal.unplaced⟩

lemma Expansion.unplaced_append (a b : Expansion) :
    (a ++ b).unplaced = a.unplaced ++ b.unplaced := by
  rw [unplaced, nodes_append, journal_append, List.map_append, Journal.unplaced_append]
  rfl

/-- What is expanded, without its places. -/
def Subject.unplaced : Subject → Subject
  | .node n => .node n.unplaced
  | .siblings nodes => .siblings (nodes.map Node.unplaced)

lemma Config.unplaced_callJournal (c : Config) (number : Nat) (call : Call) :
    (c.callJournal number call).unplaced = c.callJournal number call.unplaced :=
  rfl

lemma Node.unplaced_rebuild (n : Node) (entries : List Entry) (children : List Node) :
    (n.rebuild entries children).unplaced =
      n.unplaced.rebuild (entries.map Entry.unplaced) (children.map Node.unplaced) := by
  rw [Node.unplaced_eq, Node.unplaced_eq n]
  rfl

/-- **An expansion runs in the same way without places**, reading by reading. -/
theorem Expands.unplaced {c : Config} {used : Nat} {depth : Depth} {s : Scope} {x : Subject}
    {e : Expansion} {k : Nat} (h : Expands c used depth s x e k) :
    Expands c used depth s.unplaced x.unplaced e.unplaced k := by
  -- each rule begins with a reading, which is taken over once and for all
  have read : ∀ {s : Scope} {n : Node} {r : Reading} {problems : List Diagnostic},
      s.reading n = (r, problems) →
        s.unplaced.reading n.unplaced = (r.unplaced, problems.map Diagnostic.unplaced) :=
    fun {s n _ _} reading => (s.reading_unplaced n).trans (by rw [reading]; rfl)
  induction h with
  | nothing reading => exact .nothing (read reading)
  | kept reading => exact .kept (read reading)
  | @plain _ _ s _ m _ _ _ reading _ ih =>
    rw [Subject.unplaced, ← Node.children_unplaced] at ih
    -- the rule gives the node rebuilt without places, which is the rebuilt node without its places
    have expanded := Expands.plain (read reading) ih
    rw [Node.entries_unplaced, s.entriesOf_unplaced] at expanded
    simpa only [Subject.unplaced, Expansion.unplaced, List.map_cons, List.map_nil,
      Node.unplaced_rebuild, Journal.unplaced_append, Journal.unplaced_report,
      List.map_append] using expanded
  | captured reading _ ih => exact .captured (read reading) ih
  | @limited _ _ _ _ _ call _ limit reading check =>
    have limited := Expands.limited (read reading) check
    rwa [Node.span_unplaced, ← limit.unplaced_reportedAt call.span] at limited
  | refused reading check binding =>
    refine .refused (read reading) check ?_
    rw [Template.bindCall_unplaced, binding]
    rfl
  | @called _ _ s _ t call _ _ _ _ _ reading check binding _ ih =>
    rw [Subject.unplaced, ← Template.body_unplaced] at ih
    have made := t.bindCall_unplaced call s
    rw [binding] at made
    have called := Expands.called (read reading) check made ih
    simpa only [Subject.unplaced, Expansion.unplaced, Node.name_unplaced, Node.span_unplaced,
      Spanned.inner_unplaced, Journal.unplaced_append, Journal.unplaced_report,
      Config.unplaced_callJournal, Call.unplaced] using called
  | nil => exact .nil
  | cons _ _ ih₁ ih₂ =>
    rw [← Journal.callCount_unplaced] at ih₂
    simpa only [Subject.unplaced, List.map_cons, Expansion.unplaced_append] using .cons ih₁ ih₂

lemma expandNode_unplaced (c : Config) (used : Nat) (depth : Depth) (s : Scope) (n : Node) :
    expandNode c used depth s.unplaced n.unplaced = (expandNode c used depth s n).unplaced := by
  obtain ⟨_, run⟩ := exists_expands c used depth s (.node n)
  exact run.unplaced.eq_expansion.symm

end Stencil
