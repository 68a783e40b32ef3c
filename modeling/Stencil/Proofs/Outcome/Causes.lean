import Mathlib.Tactic.Lemma
import Stencil.Diagnostic.Basic
import Stencil.Failure
import Stencil.Proofs.Firsts

/-!
# Diagnostics along a chain of causes

A failure, its cause, the cause of that and so on may bring the same diagnostic more than once, in
one list or at different links of the chain.  `Failure.allDiagnostics` collects each object once.
What has been collected is handed from link to link, so the whole chain is searched like one list
(`diagnosticsFrom_eq_firstsAfter`), of which the firsts stay.

Whether two diagnostics are the same object is told by `==`, of which nothing is known but that it
is an equivalence.  It need not look at what they say: objects that say the same are kept apart.
-/

namespace Stencil

namespace Failure

variable {δ : Type}

/-- The failure, its cause, the cause of that, and so on. -/
def chain : Failure δ → List (Failure δ)
  | ⟨reason, message, diagnostics, recoverable, context, none⟩ =>
    [⟨reason, message, diagnostics, recoverable, context, none⟩]
  | ⟨reason, message, diagnostics, recoverable, context, some cause⟩ =>
    ⟨reason, message, diagnostics, recoverable, context, some cause⟩ :: cause.chain

/-- The diagnostics of the links of the chain, one list after another. -/
def chainDiagnostics (f : Failure δ) : List δ :=
  f.chain.flatMap Failure.diagnostics

section Search

variable [BEq δ] [PartialEquivBEq δ] {seen before : List δ}

lemma beq_transitive (a b c : δ) (ab : (a == b) = true) (bc : (b == c) = true) :
    (a == c) = true :=
  BEq.trans ab bc

/-- What has been seen is as good as what was met, in whatever order it is held. -/
lemma unseen_eq_firstsAfter (same : ∀ d, seen.contains d = before.any (d == ·)) (xs : List δ) :
    unseen seen xs = firstsAfter (· == ·) before xs := by
  induction xs generalizing seen before with
  | nil => rfl
  | cons x rest ih =>
    rw [unseen]
    cases met : before.any (x == ·) with
    | true =>
      rw [if_pos ((same x).trans met), ih same, firstsAfter_cons_of_like beq_transitive met]
    | false =>
      rw [if_neg (by rw [same x, met]; exact Bool.false_ne_true), firstsAfter_cons_of_new met]
      refine congrArg (x :: ·) (ih fun d => ?_)
      rw [List.contains_cons, List.any_cons, same d]

/-- The links of a chain are searched like one list. -/
lemma diagnosticsFrom_eq_firstsAfter (f : Failure δ)
    (same : ∀ d, seen.contains d = before.any (d == ·)) :
    f.diagnosticsFrom seen = firstsAfter (· == ·) before f.chainDiagnostics := by
  induction f using chain.induct generalizing seen before with
  | case1 reason message diagnostics recoverable context =>
    rw [diagnosticsFrom, unseen_eq_firstsAfter same, chainDiagnostics, chain,
      List.flatMap_singleton]
  | case2 reason message diagnostics recoverable context cause ih =>
    have handed : ∀ d, (diagnostics ++ seen).contains d = (before ++ diagnostics).any (d == ·) := by
      intro d
      rw [List.contains_append, List.any_append, same d, List.contains_eq_any_beq, Bool.or_comm]
    rw [diagnosticsFrom, unseen_eq_firstsAfter same, ih handed, chainDiagnostics, chainDiagnostics,
      chain, List.flatMap_cons, firstsAfter_append]

end Search

/-- **Along a chain of causes nothing is lost and nothing repeated.**  What is collected from a
chain of any length are the diagnostics of its links, one list after another, without those that are
the same object as an earlier one.  No two of them are the same object, and two diagnostics of the
chain that are not are both among them, whatever they say. -/
theorem allDiagnostics_collects_each_once [BEq δ] [EquivBEq δ] (f : Failure δ) :
    f.allDiagnostics = firsts (· == ·) f.chainDiagnostics ∧
      f.allDiagnostics.Pairwise (fun d e => (e == d) = false) ∧
      ∀ d ∈ f.chainDiagnostics, ∃ e ∈ f.allDiagnostics, (d == e) = true := by
  have collected : f.allDiagnostics = firsts (· == ·) f.chainDiagnostics := by
    rw [allDiagnostics, ← firstsAfter_nil_left]
    exact f.diagnosticsFrom_eq_firstsAfter fun _ => rfl
  rw [collected]
  refine ⟨rfl, pairwise_firsts _ _, fun d hd => ?_⟩
  exact exists_mem_firsts (fun _ => BEq.rfl) beq_transitive hd

end Failure

/-! ### Objects that say the same -/

/-- A diagnostic as an object: the number tells which one it is. -/
structure NumberedDiagnostic where
  number : Nat
  content : Diagnostic

namespace NumberedDiagnostic

instance : BEq NumberedDiagnostic :=
  ⟨fun a b => a.number == b.number⟩

variable {a b : NumberedDiagnostic}

lemma beq_iff : (a == b) = true ↔ a.number = b.number :=
  beq_iff_eq (a := a.number)

instance : EquivBEq NumberedDiagnostic where
  rfl := beq_iff.2 rfl
  symm same := beq_iff.2 (beq_iff.1 same).symm
  trans ab bc := beq_iff.2 ((beq_iff.1 ab).trans (beq_iff.1 bc))

/-- One of two objects that say that the same import is missing. -/
def missing (number : Nat) : NumberedDiagnostic :=
  ⟨number, ⟨.missingImport, .error, "Cannot import 'a/t': no file 'a'", none, none⟩⟩

/-- An import that failed twice over. -/
def importFailure : Failure NumberedDiagnostic :=
  .ofReason .imports "inner" [missing 1, missing 0, missing 1]

/-- A link that failed because of it, and brings one of its diagnostics itself. -/
def linkFailure : Failure NumberedDiagnostic :=
  { Failure.ofReason .link "outer" [missing 0, missing 0] with cause := some importFailure }

/-- Both objects are collected, each once, though they say the same. -/
theorem missing_collected_once_each :
    (missing 0).content = (missing 1).content ∧
      linkFailure.allDiagnostics = firsts (· == ·) linkFailure.chainDiagnostics ∧
      linkFailure.chainDiagnostics.map number = [0, 0, 1, 0, 1] ∧
      linkFailure.allDiagnostics.map number = [0, 1] :=
  ⟨rfl, (Failure.allDiagnostics_collects_each_once linkFailure).1, rfl, rfl⟩

end NumberedDiagnostic

end Stencil
