import Mathlib.Data.List.Chain
import Stencil.Proofs.Document.Budget

/-!
# The order of calls

The calls of a run are listed in preorder: a call comes before those that are made inside it, and
these come before the next call beside it.  So the depths alone tell how the calls are nested, as
`Call.Follow` says: calls that are made inside a depth are deeper than it, and none is more than one
deeper than the one before it, or than the outer depth if it is the first.

Calls that follow one depth do so after one another (`Call.Follow.append`), and a call is followed
by the calls of its body (`Call.Follow.cons`).  With these two an induction on the derivation gives
it for a whole run (`Expands.follow`).
-/

namespace Stencil

/-- Some calls are made inside `depth` others, and listed in preorder. -/
structure Call.Follow (depth : Int) (calls : List Call) : Prop where
  inside : ∀ call ∈ calls, depth < call.depth
  steps : List.IsChain (fun a b : Int => b ≤ a + 1) (depth :: calls.map Call.depth)

namespace Call.Follow

variable {depth : Int} {calls calls' : List Call}

lemma nil (depth : Int) : Follow depth [] :=
  ⟨fun _ h => absurd h List.not_mem_nil, .singleton _⟩

/-- A call is followed by the calls that are made inside it. -/
lemma cons {call : Call} (next : call.depth = depth + 1) (inner : Follow call.depth calls) :
    Follow depth (call :: calls) where
  inside other ho := by
    rcases List.mem_cons.1 ho with rfl | ho
    · omega
    · have := inner.inside other ho
      omega
  steps := .cons_cons (by omega) inner.steps

/-- The calls of siblings come one after another. -/
lemma append (first : Follow depth calls) (rest : Follow depth calls') :
    Follow depth (calls ++ calls') where
  inside call hc := (List.mem_append.1 hc).elim (first.inside call) (rest.inside call)
  steps := by
    rw [List.map_append, ← List.cons_append]
    refine List.isChain_append.2 ⟨first.steps, rest.steps.tail, ?_⟩
    intro last hl next hn
    have start : next ≤ depth + 1 := by
      rcases calls' with _ | ⟨call, _⟩
      · cases hn
      · obtain rfl := Option.some.inj hn
        exact (List.isChain_cons_cons.1 rest.steps).1
    have low : depth ≤ last := by
      rcases List.mem_cons.1 (List.mem_of_getLast? hl) with rfl | mem
      · exact Int.le_refl _
      · obtain ⟨call, hc, rfl⟩ := List.mem_map.1 mem
        exact Int.le_of_lt (first.inside call hc)
    omega

end Call.Follow

/-! ## Runs -/

/-- **The calls of a run are listed in preorder.** -/
theorem Expands.follow {c : Config} {used k n : Nat} {s : Scope} {x : Subject} {e : Expansion}
    (h : Expands c used (.counted n) s x e k) : Call.Follow n e.journal.calls := by
  generalize hd : Depth.counted n = depth at h
  induction h generalizing n with
  | nothing | kept | limited | refused | nil => exact .nil _
  | plain _ _ ih => exact ih hd
  | captured _ _ ih => exact ih hd
  | called _ _ _ _ ih =>
    subst hd
    exact .cons rfl (ih rfl)
  | cons _ _ ih₁ ih₂ => exact (ih₁ hd).append (ih₂ hd)

end Stencil
