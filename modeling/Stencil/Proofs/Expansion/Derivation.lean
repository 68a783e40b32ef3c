import Mathlib.Tactic.Lemma
import Stencil.Expansion.Basic

/-!
# Derivations of expansions

`Expands` says, rule by rule, what a node or a list of siblings expands to.  It is the account
of an expansion that knows of no cost and no limit on its own length: each rule names the
readings on which it rests, and a derivation counts the nodes and the lists of siblings that
are read on the way.

A derivation is finite, so an expansion ends exactly if it has one.  `expansion_terminates`
shows that it always does, and more: the readings are bounded by a number that depends on the
scope and on what is expanded there, and on nothing else.  The limits of the configuration,
the depth and the calls made before do not enter it, so no limit is needed.

The rules are also the induction by which later modules reason about runs: there is one case
for each way of reading a node.
-/

namespace Stencil

/-- What is expanded: one node, or siblings one after another. -/
inductive Subject where
  | node (n : Node)
  | siblings (nodes : List Node)

namespace Subject

/-- The measure that every step of an expansion makes smaller.  Siblings weigh one more than their
nodes, so that a list is above its only node; the factor keeps them below the node that has them for
its children. -/
def cost (s : Scope) : Subject → Nat
  | .node n => 2 * s.cost n.count
  | .siblings nodes => 2 * s.cost (Node.countAll nodes) + 1

end Subject

/-- The expansion of a subject. -/
def Config.expansion (c : Config) (used : Nat) (depth : Depth) (s : Scope) :
    Subject → Expansion
  | .node n => expandNode c used depth s n
  | .siblings nodes => expandNodes c used depth s nodes

/-- `Expands c used depth s x e k`: read under the scope `s`, at a depth of calls and after
`used` calls of the run, `x` expands to `e`, and `k` nodes and lists of siblings are read on
the way. -/
inductive Expands (c : Config) : Nat → Depth → Scope → Subject → Expansion → Nat → Prop
  | nothing {used depth s n problems} (reading : s.reading n = (.nothing, problems)) :
      Expands c used depth s (.node n) (.nothing problems) 1
  | kept {used depth s n call problems} (reading : s.reading n = (.kept call, problems)) :
      Expands c used depth s (.node n) ⟨[call], .report problems⟩ 1
  | plain {used depth s n m problems children k}
      (reading : s.reading n = (.plain m, problems))
      (inner : Expands c used depth s (.siblings m.children) children k) :
      Expands c used depth s (.node n)
        ⟨[m.rebuild (s.entriesOf m.entries).1 children.nodes],
          .report (problems ++ (s.entriesOf m.entries).2) ++ children.journal⟩ (k + 1)
  | captured {used depth s n nodes scope problems e k}
      (reading : s.reading n = (.captured nodes scope, problems))
      (inner : Expands c used depth scope (.siblings nodes) e k) :
      Expands c used depth s (.node n) e (k + 1)
  /-- A limit forbids the call. -/
  | limited {used depth s n t call problems limit}
      (reading : s.reading n = (.call t call, problems))
      (check : c.exceededLimit? depth used = some limit) :
      Expands c used depth s (.node n) (.nothing [limit.reportedAt call.span]) 1
  /-- The targuments do not fit the template. -/
  | refused {used depth s n t call problems faults}
      (reading : s.reading n = (.call t call, problems))
      (check : c.exceededLimit? depth used = none)
      (binding : t.bindCall call s = (none, faults)) :
      Expands c used depth s (.node n) (.nothing faults) 1
  | called {used depth s n t call problems frame faults body k}
      (reading : s.reading n = (.call t call, problems))
      (check : c.exceededLimit? depth used = none)
      (binding : t.bindCall call s = (some frame, faults))
      (inner : Expands c (used + 1) depth.next frame (.node t.body) body k) :
      Expands c used depth s (.node n)
        ⟨body.nodes,
          .report faults ++
            c.callJournal (used + 1) ⟨call.name.inner, depth.next.value, call.span⟩ ++
            body.journal⟩ (k + 1)
  | nil {used depth s} : Expands c used depth s (.siblings []) (.nothing []) 1
  | cons {used depth s n rest first others j k}
      (head : Expands c used depth s (.node n) first j)
      (tail : Expands c (used + first.journal.callCount) depth s (.siblings rest) others k) :
      Expands c used depth s (.siblings (n :: rest)) (first ++ others) (j + k)

/-! ## The expansion of a node, reading by reading -/

section Readings

variable {c : Config} {used : Nat} {depth : Depth} {s : Scope} {n : Node}
variable {problems : List Diagnostic}

lemma expandNode_of_nothing (h : s.reading n = (.nothing, problems)) :
    expandNode c used depth s n = .nothing problems := by
  rw [expandNode]
  split <;> simp_all

lemma expandNode_of_kept {call : Node} (h : s.reading n = (.kept call, problems)) :
    expandNode c used depth s n = ⟨[call], .report problems⟩ := by
  rw [expandNode]
  split <;> simp_all

lemma expandNode_of_plain {m : Node} (h : s.reading n = (.plain m, problems)) :
    expandNode c used depth s n =
      ⟨[m.rebuild (s.entriesOf m.entries).1 (expandNodes c used depth s m.children).nodes],
        .report (problems ++ (s.entriesOf m.entries).2) ++
          (expandNodes c used depth s m.children).journal⟩ := by
  rw [expandNode]
  split <;> simp_all

lemma expandNode_of_captured {nodes : List Node} {scope : Scope}
    (h : s.reading n = (.captured nodes scope, problems)) :
    expandNode c used depth s n = expandNodes c used depth scope nodes := by
  rw [expandNode]
  split <;> simp_all

lemma expandNode_of_limited {t : Template} {call : Node} {limit : Problem}
    (h : s.reading n = (.call t call, problems))
    (check : c.exceededLimit? depth used = some limit) :
    expandNode c used depth s n = .nothing [limit.reportedAt call.span] := by
  rw [expandNode]
  split <;> simp_all

lemma expandNode_of_refused {t : Template} {call : Node} {faults : List Diagnostic}
    (h : s.reading n = (.call t call, problems)) (check : c.exceededLimit? depth used = none)
    (binding : t.bindCall call s = (none, faults)) :
    expandNode c used depth s n = .nothing faults := by
  rw [expandNode]
  split
  all_goals simp_all
  split <;> simp_all

lemma expandNode_of_called {t : Template} {call : Node} {frame : Scope}
    {faults : List Diagnostic} (h : s.reading n = (.call t call, problems))
    (check : c.exceededLimit? depth used = none)
    (binding : t.bindCall call s = (some frame, faults)) :
    expandNode c used depth s n =
      ⟨(expandNode c (used + 1) depth.next frame t.body).nodes,
        .report faults ++
          c.callJournal (used + 1) ⟨call.name.inner, depth.next.value, call.span⟩ ++
          (expandNode c (used + 1) depth.next frame t.body).journal⟩ := by
  rw [expandNode]
  split
  all_goals simp_all
  split <;> simp_all

lemma expandNodes_nil : expandNodes c used depth s [] = .nothing [] := by
  rw [expandNodes]

lemma expandNodes_cons (rest : List Node) :
    expandNodes c used depth s (n :: rest) =
      expandNode c used depth s n ++
        expandNodes c (used + (expandNode c used depth s n).journal.callCount) depth s rest := by
  rw [expandNodes]

end Readings

/-! ## Derivations and the expansion -/

/-- A derivation leads to nothing but the expansion. -/
lemma Expands.eq_expansion {c : Config} {used : Nat} {depth : Depth} {s : Scope} {x : Subject}
    {e : Expansion} {k : Nat} (h : Expands c used depth s x e k) :
    e = c.expansion used depth s x := by
  induction h with
  | nothing reading => exact (expandNode_of_nothing reading).symm
  | kept reading => exact (expandNode_of_kept reading).symm
  | plain reading _ ih =>
    subst ih
    exact (expandNode_of_plain reading).symm
  | captured reading _ ih =>
    subst ih
    exact (expandNode_of_captured reading).symm
  | limited reading check => exact (expandNode_of_limited reading check).symm
  | refused reading check binding => exact (expandNode_of_refused reading check binding).symm
  | called reading check binding _ ih =>
    subst ih
    exact (expandNode_of_called reading check binding).symm
  | nil => exact expandNodes_nil.symm
  | cons _ _ ih₁ ih₂ =>
    subst ih₁ ih₂
    exact (expandNodes_cons _).symm

/-- The number of readings is settled by what is expanded. -/
lemma Expands.count_unique {c : Config} {used : Nat} {depth : Depth} {s : Scope} {x : Subject}
    {e e' : Expansion} {k k' : Nat} (h : Expands c used depth s x e k)
    (h' : Expands c used depth s x e' k') : k = k' := by
  -- two derivations of one subject go by the same rule, since its reading and the check are
  -- settled
  induction h generalizing e' k' with
  | nothing reading => cases h' <;> simp_all
  | kept reading => cases h' <;> simp_all
  | plain reading _ ih =>
    cases h' <;> simp_all
    exact ih ‹_›
  | captured reading _ ih =>
    cases h' <;> simp_all
    exact ih ‹_›
  | limited reading check => cases h' <;> simp_all
  | refused reading check binding => cases h' <;> simp_all
  | called reading check binding _ ih =>
    cases h' <;> simp_all
    exact ih ‹_›
  | nil => cases h'; rfl
  | cons head tail ih₁ ih₂ =>
    cases h' with
    | cons head' tail' =>
      obtain rfl := head.eq_expansion.trans head'.eq_expansion.symm
      rw [ih₁ head', ih₂ tail']

lemma Expands.of_expansion {c : Config} {used : Nat} {depth : Depth} {s : Scope} {x : Subject}
    {e : Expansion} {k : Nat} (h : Expands c used depth s x e k) :
    Expands c used depth s x (c.expansion used depth s x) k := by
  rwa [← h.eq_expansion]

/-! ## Expansion ends -/

/-- Whatever the limits, the expansion of a subject is derived with at most `bound`
readings. -/
def Subject.EndsWithin (bound : Nat) (s : Scope) (x : Subject) : Prop :=
  ∀ (c : Config) (used : Nat) (depth : Depth),
    ∃ k ≤ bound, Expands c used depth s x (c.expansion used depth s x) k

/-- A call ends if, where it can be made, the body of its template does. -/
lemma endsWithin_call {s : Scope} {n call : Node} {t : Template} {problems : List Diagnostic}
    (hr : s.reading n = (.call t call, problems))
    (body : ∀ frame, (t.bindCall call s).1 = some frame →
      ∃ bound, (Subject.node t.body).EndsWithin bound frame) :
    ∃ bound, (Subject.node n).EndsWithin bound s := by
  rcases hb : t.bindCall call s with ⟨_ | frame, faults⟩
  · -- without a frame there is no body to read, whatever the check says
    refine ⟨1, fun c used depth => ⟨1, Nat.le_refl 1, ?_⟩⟩
    rcases hl : c.exceededLimit? depth used with _ | limit
    · exact (Expands.refused hr hl hb).of_expansion
    · exact (Expands.limited hr hl).of_expansion
  · obtain ⟨b, h⟩ := body frame (by rw [hb])
    refine ⟨b + 1, ?_⟩
    intro c used depth
    rcases hl : c.exceededLimit? depth used with _ | limit
    · obtain ⟨k, hk, inner⟩ := h c (used + 1) depth.next
      exact ⟨k + 1, by omega, (Expands.called hr hl hb inner).of_expansion⟩
    · exact ⟨1, by omega, (Expands.limited hr hl).of_expansion⟩

lemma exists_endsWithin (s : Scope) (x : Subject) : ∃ bound, x.EndsWithin bound s := by
  -- the induction is on the cost of what is read, whose decrease is shown once for each way of
  -- reading a node
  induction hm : x.cost s using Nat.strongRecOn generalizing s x with
  | _ m ih =>
    subst hm
    match x with
    | .siblings [] => exact ⟨1, fun c used depth => ⟨1, Nat.le_refl 1, Expands.nil.of_expansion⟩⟩
    | .siblings (n :: rest) =>
      obtain ⟨b₁, h₁⟩ := ih _ (Scope.cost_first_lt rest) s (.node n) rfl
      obtain ⟨b₂, h₂⟩ := ih _ (Scope.cost_rest_lt rest) s (.siblings rest) rfl
      refine ⟨b₁ + b₂, ?_⟩
      intro c used depth
      obtain ⟨j, hj, head⟩ := h₁ c used depth
      obtain ⟨k, hk, tail⟩ := h₂ c _ depth
      exact ⟨j + k, by omega, (Expands.cons head tail).of_expansion⟩
    | .node n =>
      -- one case for each reading; the number of readings on the way is one more than that of what
      -- it leads to
      rcases hr : s.reading n with ⟨_ | m | ⟨t, call⟩ | call | ⟨nodes, scope⟩, problems⟩
      · exact ⟨1, fun c used depth => ⟨1, Nat.le_refl 1, (Expands.nothing hr).of_expansion⟩⟩
      · obtain ⟨b, h⟩ := ih _ (Scope.cost_children_lt (by rw [hr])) s (.siblings m.children) rfl
        refine ⟨b + 1, ?_⟩
        intro c used depth
        obtain ⟨k, hk, inner⟩ := h c used depth
        exact ⟨k + 1, by omega, (Expands.plain hr inner).of_expansion⟩
      · exact endsWithin_call hr fun frame hf =>
          ih _ (Scope.cost_body_lt (by rw [hr]) hf) frame (.node t.body) rfl
      · exact ⟨1, fun c used depth => ⟨1, Nat.le_refl 1, (Expands.kept hr).of_expansion⟩⟩
      · obtain ⟨b, h⟩ := ih _ (Scope.cost_captured_lt (by rw [hr])) scope (.siblings nodes) rfl
        refine ⟨b + 1, ?_⟩
        intro c used depth
        obtain ⟨k, hk, inner⟩ := h c used depth
        exact ⟨k + 1, by omega, (Expands.captured hr inner).of_expansion⟩

/-- The derivation that every expansion has. -/
lemma exists_expands (c : Config) (used : Nat) (depth : Depth) (s : Scope) (x : Subject) :
    ∃ k, Expands c used depth s x (c.expansion used depth s x) k := by
  obtain ⟨_, h⟩ := exists_endsWithin s x
  obtain ⟨k, _, hk⟩ := h c used depth
  exact ⟨k, hk⟩

/-- **Expansion ends without the help of its limits.**  For every scope and every node or list
of siblings there is a bound on the readings that holds for every configuration, every depth
and every number of earlier calls; the derivation has the expansion for its result, and no
other derivation exists. -/
theorem expansion_terminates (s : Scope) (x : Subject) :
    ∃ bound, ∀ (c : Config) (used : Nat) (depth : Depth),
      ∃ k ≤ bound, Expands c used depth s x (c.expansion used depth s x) k ∧
        ∀ e j, Expands c used depth s x e j → e = c.expansion used depth s x ∧ j = k := by
  obtain ⟨bound, h⟩ := exists_endsWithin s x
  refine ⟨bound, ?_⟩
  intro c used depth
  obtain ⟨k, hk, derivation⟩ := h c used depth
  exact ⟨k, hk, derivation, fun e j other => ⟨other.eq_expansion, other.count_unique derivation⟩⟩

end Stencil
