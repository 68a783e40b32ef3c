import Stencil.Proofs.Document.Budget

/-!
# Siblings

Siblings are expanded in one run.  All that passes from one to the next is the number of calls
made so far, and that is looked at only where it is compared with the limit on calls.  So as long
as the calls stay below the limit, a node leaves behind in any run what it leaves behind in a run
of its own (`alone_agrees_of_below`), and siblings leave behind what they leave one by one
(`expansion_stays_apart`).  Errors make no difference to this: a node that fails ends early, and
its siblings go their own way.

Both ends of the bound are offered, calls counted alone and calls counted together, since a reader
may know either; that they come to the same is part of the proof.  Only the limit on calls has to be
a natural number.  The limit on depth may be anything, as it depends on nothing that siblings share.
-/

namespace Stencil

/-! ## Joining expansions -/

namespace Expansion

/-- The expansions of siblings that were each expanded alone, joined. -/
def concat : List Expansion → Expansion
  | [] => nothing []
  | e :: rest => e ++ concat rest

/-- What an expansion adds to a run that has left a journal behind is what another, of the same
thing alone, leaves behind in a run of its own.  The log is left out, since its lines count the
calls of the whole run. -/
structure AddsTo (e : Expansion) (before : Journal) (alone : Expansion) : Prop where
  nodes : e.nodes = alone.nodes
  diagnostics : (before ++ e.journal).diagnostics =
    before.diagnostics ++ alone.journal.diagnostics
  callCount : (before ++ e.journal).callCount = before.callCount + alone.journal.callCount
  peak : (before ++ e.journal).peak = max before.peak alone.journal.peak

end Expansion

lemma Journal.callCount_append (a b : Journal) :
    (a ++ b).callCount = a.callCount + b.callCount := by
  rw [callCount, calls_append, List.length_append]
  rfl

/-- The greatest depth of two runs is the greater of theirs. -/
lemma Journal.peak_append (a b : Journal) : (a ++ b).peak = max a.peak b.peak := by
  have bounds : ∀ bound, (a ++ b).peak ≤ bound ↔ max a.peak b.peak ≤ bound := by
    intro bound
    rw [Int.max_le, peak_le_iff, peak_le_iff, peak_le_iff, calls_append]
    simp only [List.mem_append, or_imp, forall_and]
    exact and_and_left
  exact Int.le_antisymm ((bounds _).2 (Int.le_refl _)) ((bounds _).1 (Int.le_refl _))

/-- An expansion that agrees with one alone adds the same to any run. -/
lemma Expansion.Agrees.addsTo {alone e : Expansion} (h : alone.Agrees e) (before : Journal) :
    e.AddsTo before alone where
  nodes := h.nodes.symm
  diagnostics := by rw [Journal.diagnostics_append, h.journal.diagnostics]
  callCount := by rw [Journal.callCount_append, h.journal.callCount_eq]
  peak := by rw [Journal.peak_append, h.journal.peak_eq]

/-! ## Below the limit on calls -/

section Below

variable {c : Config} {N : Nat} (limit : c.maxCalls.toInt? = some (N : Int)) {depth : Depth}
variable {s : Scope}
include limit

/-- Below the limit on calls, only the limit on depth forbids a call, and it does so whatever the
number of earlier calls. -/
lemma exceededLimit_eq_of_below (depth : Depth) {used used' : Nat} (below : used < N)
    (below' : used' < N) : c.exceededLimit? depth used = c.exceededLimit? depth used' := by
  have allowed : ∀ calls : Nat, calls < N → c.maxCalls.atMost calls = false := by
    intro calls fewer
    rw [Bool.eq_false_iff, ne_eq, Number.atMost_iff limit]
    omega
  rw [Config.exceededLimit?, Config.exceededLimit?, allowed used below, allowed used' below']

/-- A run that stays below the limit on calls goes the same way after another number of calls, if
it stays below the limit there. -/
lemma agrees_of_below {used used' : Nat} {x : Subject} {e : Expansion} {k : Nat}
    (h : Expands c used depth s x e k) (below : used + e.journal.callCount < N)
    (below' : used' + e.journal.callCount < N) : e.Agrees (c.expansion used' depth s x) := by
  apply (agrees_or_parts h c used').resolve_right
  rintro ⟨d, i, _, check, _, differ⟩
  have made := check.made
  exact differ (exceededLimit_eq_of_below limit d (by omega) (by omega))

/-- A node that stays below the limit on calls, in a run of its own or after other calls, goes the
same way in both. -/
lemma alone_agrees_of_below {used : Nat} (n : Node)
    (below : used + (expandNode c 0 depth s n).journal.callCount < N ∨
      used + (expandNode c used depth s n).journal.callCount < N) :
    (expandNode c 0 depth s n).Agrees (expandNode c used depth s n) := by
  rcases below with below | below
  · obtain ⟨_, alone⟩ := exists_expands c 0 depth s (.node n)
    exact agrees_of_below limit alone (by rw [Config.expansion]; omega) below
  · obtain ⟨_, after⟩ := exists_expands c used depth s (.node n)
    have agrees : (expandNode c used depth s n).Agrees (expandNode c 0 depth s n) :=
      agrees_of_below limit after below (by rw [Config.expansion]; omega)
    exact ⟨agrees.nodes.symm, agrees.journal.diagnostics.symm, agrees.journal.calls.symm⟩

/-- Siblings that stay below the limit on calls, one by one or together, go the way that they go
one by one. -/
lemma concat_agrees_of_below (nodes : List Node) {used : Nat}
    (below : used +
        (Expansion.concat (nodes.map (expandNode c 0 depth s))).journal.callCount < N ∨
      used + (expandNodes c used depth s nodes).journal.callCount < N) :
    (Expansion.concat (nodes.map (expandNode c 0 depth s))).Agrees
      (expandNodes c used depth s nodes) := by
  -- the number of calls grows from node to node, so it is generalised; the bound for the rest is
  -- what the first node has left of it
  induction nodes generalizing used with
  | nil =>
    rw [expandNodes_nil]
    exact .refl _
  | cons n rest ih =>
    rw [List.map_cons, Expansion.concat, expandNodes_cons] at *
    simp only [Expansion.journal_append, Journal.callCount_append] at below
    have first : (expandNode c 0 depth s n).Agrees (expandNode c used depth s n) :=
      alone_agrees_of_below limit n (below.imp (by omega) (by omega))
    refine first.append (ih (below.imp ?_ ?_))
    · rw [← first.journal.callCount_eq]
      omega
    · omega

end Below

/-- **Errors stay in their own subtree.**  While the calls stay below the limit on calls, a node
adds to a run what it leaves behind in a run of its own, whatever the run has reported and called
before: the same nodes, just its own diagnostics, its own number of calls, and the greater of the
two depths.  So siblings expand to what each of them expands to alone, one after another, whichever
of them fail. -/
theorem expansion_stays_apart {c : Config} {N : Nat}
    (limit : c.maxCalls.toInt? = some (N : Int)) (depth : Depth) (s : Scope) (before : Journal) :
    (∀ n, before.callCount + (expandNode c 0 depth s n).journal.callCount < N →
      (expandNode c before.callCount depth s n).AddsTo before (expandNode c 0 depth s n)) ∧
    ∀ nodes,
      before.callCount +
          (Expansion.concat (nodes.map (expandNode c 0 depth s))).journal.callCount < N ∨
        before.callCount + (expandNodes c before.callCount depth s nodes).journal.callCount < N →
      (expandNodes c before.callCount depth s nodes).AddsTo before
        (Expansion.concat (nodes.map (expandNode c 0 depth s))) := by
  constructor
  · intro n below
    exact (alone_agrees_of_below limit n (.inl below)).addsTo before
  · intro nodes below
    exact (concat_agrees_of_below limit nodes below).addsTo before

/-- A card between two cards that are called with what they do not take. -/
def Node.threeCards : List Node :=
  [.naming "card" "red", .bare "card" [], .bare "card" [.bare "border" []]]

/-- The scope of a box and a card. -/
def Scope.boxAndCard : Scope :=
  (collect .error Document.boxAndCard.declarations .root).1

/-- After an error and a call, three cards add two errors and the box of the one in the middle. -/
theorem threeCards_stay_apart :
    ∃ before : Journal, before.diagnostics.length = 1 ∧ before.callCount = 1 ∧
      (expandNodes .default before.callCount .top .boxAndCard Node.threeCards).AddsTo before
        (Expansion.concat (Node.threeCards.map (expandNode .default 0 .top .boxAndCard))) ∧
      (Expansion.concat (Node.threeCards.map
        (expandNode .default 0 .top .boxAndCard))).journal.diagnostics.length = 2 ∧
      (expandNodes .default before.callCount .top .boxAndCard
        Node.threeCards).nodes.length = 1 := by
  have limit : Config.default.maxCalls.toInt? = some ((100000 : Nat) : Int) := by decide +kernel
  refine ⟨⟨[Problem.emptyDocument.reportedAt .none], [⟨"box", 1, .none⟩], []⟩, rfl, rfl,
    (expansion_stays_apart limit .top .boxAndCard _).2 Node.threeCards (.inl ?_), ?_, ?_⟩
  · decide +kernel
  · decide +kernel
  · decide +kernel

end Stencil
