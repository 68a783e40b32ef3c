import Mathlib.Data.List.Basic
import Mathlib.Tactic.Lemma

/-!
# The first of each sort

Where repeats are taken out of a list, what stays are its firsts: the members that are like no
member before them (`firsts`).  This is said of the places in the list, and so does not depend on
how repeats are looked for.

A search keeps the members that it has met so far.  Those it has kept are enough: by transitivity,
what is like a member that was left out is like the one for which it was left out
(`firstsAfter_cons_of_like`).

Being alike is a test here and not an equality: two reports may be alike because their keys are
equal, or because they are one object.  Reflexivity and transitivity are assumed of the test where
they are used; symmetry is not needed.
-/

namespace Stencil

variable {α : Type} {like : α → α → Bool} {before before' xs rest : List α} {x y : α}

/-- The members of a list that are like none of some others and like no earlier member. -/
def firstsAfter (like : α → α → Bool) (before xs : List α) : List α :=
  (xs.zipIdx.filter fun x => !(before ++ xs.take x.2).any (like x.1)).map Prod.fst

/-- The members of a list that are like no earlier member, in their order. -/
def firsts (like : α → α → Bool) (xs : List α) : List α :=
  (xs.zipIdx.filter fun x => !(xs.take x.2).any (like x.1)).map Prod.fst

lemma firstsAfter_nil_left : firstsAfter like [] xs = firsts like xs :=
  rfl

/-! ## Member by member -/

lemma firstsAfter_cons :
    firstsAfter like before (x :: rest) =
      (if before.any (like x) then [] else [x]) ++ firstsAfter like (before ++ [x]) rest := by
  have later : (rest.zipIdx 1).filter
        (fun y => !(before ++ (x :: rest).take y.2).any (like y.1)) =
      (rest.zipIdx.filter fun y => !((before ++ [x]) ++ rest.take y.2).any (like y.1)).map
        fun y => (y.1, y.2 + 1) := by
    rw [List.zipIdx_succ, List.filter_map]
    congr 1
    apply List.filter_congr
    simp
  rw [firstsAfter, List.zipIdx_cons, List.filter_cons, Nat.zero_add, later]
  cases h : before.any (like x) with
  | true => simp [h, firstsAfter, Function.comp_def]
  | false => simp [h, firstsAfter, Function.comp_def]

lemma firstsAfter_append :
    firstsAfter like before (xs ++ rest) =
      firstsAfter like before xs ++ firstsAfter like (before ++ xs) rest := by
  induction xs generalizing before with
  | nil => rw [List.nil_append, List.append_nil]; rfl
  | cons x xs ih =>
    rw [List.cons_append, firstsAfter_cons, firstsAfter_cons, ih, List.append_assoc,
      List.append_assoc, List.singleton_append]

/-- Only what the members met before are like counts. -/
lemma firstsAfter_congr (same : ∀ y, before.any (like y) = before'.any (like y)) :
    firstsAfter like before xs = firstsAfter like before' xs := by
  simp only [firstsAfter, List.any_append, same]

lemma firstsAfter_cons_of_new (new : before.any (like x) = false) :
    firstsAfter like before (x :: rest) = x :: firstsAfter like (x :: before) rest := by
  rw [firstsAfter_cons, new]
  refine congrArg (x :: ·) (firstsAfter_congr fun y => ?_)
  rw [List.any_append, List.any_cons, List.any_cons, List.any_nil, Bool.or_false, Bool.or_comm]

lemma firstsAfter_cons_of_like (trans : ∀ a b c, like a b → like b c → like a c)
    (met : before.any (like x) = true) :
    firstsAfter like before (x :: rest) = firstsAfter like before rest := by
  rw [firstsAfter_cons, met]
  refine firstsAfter_congr fun y => ?_
  rw [List.any_append, List.any_cons, List.any_nil, Bool.or_false]
  refine Bool.or_eq_left_iff_imp.2 fun again => ?_
  obtain ⟨z, hz, alike⟩ := List.any_eq_true.1 met
  exact List.any_eq_true.2 ⟨z, hz, trans y x z again alike⟩

/-! ## What stays -/

/-- No two of the members that stay are alike, and none is like one met before. -/
lemma pairwise_firstsAfter (like : α → α → Bool) (before xs : List α) :
    (firstsAfter like before xs).Pairwise (fun x y => like y x = false) ∧
      ∀ x ∈ firstsAfter like before xs, before.any (like x) = false := by
  -- what was met before grows with each member, whether the member stays or not
  induction xs generalizing before with
  | nil => exact ⟨List.Pairwise.nil, fun _ h => absurd h List.not_mem_nil⟩
  | cons x rest ih =>
    obtain ⟨apart, fresh⟩ := ih (before ++ [x])
    have fresh' : ∀ y ∈ firstsAfter like (before ++ [x]) rest,
        before.any (like y) = false ∧ like y x = false := by
      intro y hy
      simpa using fresh y hy
    rw [firstsAfter_cons]
    cases new : before.any (like x) with
    | true => exact ⟨apart, fun y hy => (fresh' y hy).1⟩
    | false =>
      refine ⟨List.pairwise_cons.2 ⟨fun y hy => (fresh' y hy).2, apart⟩, ?_⟩
      exact List.forall_mem_cons.2 ⟨new, fun y hy => (fresh' y hy).1⟩

/-- **No two of the firsts are alike.** -/
lemma pairwise_firsts (like : α → α → Bool) (xs : List α) :
    (firsts like xs).Pairwise fun x y => like y x = false :=
  (pairwise_firstsAfter like [] xs).1

/-- Where no two members are alike, all stay. -/
lemma firsts_eq_self (apart : xs.Pairwise fun x y => like y x = false) : firsts like xs = xs := by
  have along : ∀ before : List α, (∀ x ∈ xs, before.any (like x) = false) →
      firstsAfter like before xs = xs := by
    induction xs with
    | nil => exact fun _ _ => rfl
    | cons x rest ih =>
      intro before fresh
      obtain ⟨new, others⟩ := List.forall_mem_cons.1 fresh
      obtain ⟨first, apart⟩ := List.pairwise_cons.1 apart
      rw [firstsAfter_cons_of_new new, ih apart (x :: before)]
      intro y hy
      rw [List.any_cons, first y hy, others y hy, Bool.or_false]
  exact along [] fun _ _ => rfl

/-- A member that is not like one met before is like one that stays. -/
lemma exists_mem_firstsAfter (refl : ∀ a, like a a = true)
    (trans : ∀ a b c, like a b → like b c → like a c) (h : x ∈ xs) (before : List α)
    (new : before.any (like x) = false) : ∃ y ∈ firstsAfter like before xs, like x y = true := by
  -- a member that is left out counts for nothing, so here what was met before grows only by those
  -- that stay
  induction xs generalizing before with
  | nil => exact absurd h List.not_mem_nil
  | cons first rest ih =>
    cases met : before.any (like first) with
    | true =>
      rw [firstsAfter_cons_of_like trans met]
      rcases List.mem_cons.1 h with rfl | h
      · rw [met] at new
        cases new
      · exact ih h before new
    | false =>
      rw [firstsAfter_cons_of_new met]
      rcases List.mem_cons.1 h with rfl | h
      · exact ⟨x, List.mem_cons_self, refl x⟩
      · cases alike : like x first with
        | true => exact ⟨first, List.mem_cons_self, alike⟩
        | false =>
          obtain ⟨y, hy, alike'⟩ := ih h (first :: before) (by simp [alike, new])
          exact ⟨y, List.mem_cons_of_mem _ hy, alike'⟩

/-- **Every member is like one of the firsts.** -/
lemma exists_mem_firsts (refl : ∀ a, like a a = true)
    (trans : ∀ a b c, like a b → like b c → like a c) (h : x ∈ xs) :
    ∃ y ∈ firsts like xs, like x y = true :=
  exists_mem_firstsAfter refl trans h [] rfl

end Stencil
