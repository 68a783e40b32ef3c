import Mathlib.Tactic.Lemma
import Stencil.Scope.Basic
import Stencil.Journal
import Stencil.Tree.Likeness

/-!
# Trees without their places

Whatever carries the span it was read from has a form without it, in which every span is the same.
Two trees are alike exactly when these forms are equal (`Node.alike_iff_unplaced_eq`), and a journal
keeps its errors and its calls in it.

Later modules show that the engine does to the forms without places what it does to the trees.
-/

namespace Stencil

/-- A part without its place. -/
def Spanned.unplaced {α : Type} (v : Spanned α) : Spanned α :=
  ⟨v.inner, .none⟩

@[simp] lemma Spanned.inner_unplaced {α : Type} (v : Spanned α) : v.unplaced.inner = v.inner :=
  rfl

/-! ## Trees -/

/-- An entry without its places. -/
def Entry.unplaced (e : Entry) : Entry :=
  ⟨e.name.map Spanned.unplaced, e.value.unplaced, .none⟩

namespace Node

mutual

/-- A tree without its places. -/
def unplaced : Node → Node
  | ⟨name, entries, children, _⟩ =>
    ⟨name.unplaced, entries.map Entry.unplaced, unplacedAll children, .none⟩

/-- A list of trees without their places. -/
def unplacedAll : List Node → List Node
  | [] => []
  | n :: rest => unplaced n :: unplacedAll rest

end

variable {n : Node}

lemma unplacedAll_eq_map (nodes : List Node) : unplacedAll nodes = nodes.map unplaced := by
  induction nodes with
  | nil => rw [unplacedAll, List.map_nil]
  | cons n rest ih => rw [unplacedAll, ih, List.map_cons]

lemma unplaced_eq (n : Node) :
    n.unplaced =
      ⟨n.name.unplaced, n.entries.map Entry.unplaced, n.children.map unplaced, .none⟩ := by
  cases n
  rw [unplaced, unplacedAll_eq_map]

@[simp] lemma name_unplaced : n.unplaced.name = n.name.unplaced := by
  rw [unplaced_eq]

@[simp] lemma entries_unplaced : n.unplaced.entries = n.entries.map Entry.unplaced := by
  rw [unplaced_eq]

@[simp] lemma children_unplaced : n.unplaced.children = n.children.map unplaced := by
  rw [unplaced_eq]

@[simp] lemma span_unplaced : n.unplaced.span = .none := by
  rw [unplaced_eq]

end Node

/-! ## Alike means equal without places -/

/-- Parts are the same without their places if what they hold is the same. -/
lemma Spanned.unplaced_inj {α : Type} {v w : Spanned α} :
    v.unplaced = w.unplaced ↔ v.inner = w.inner := by
  simp [Spanned.unplaced]

/-- Entries are alike if they are the same but for their places. -/
lemma Entry.alike_iff_unplaced_eq {e f : Entry} : e.alike f = true ↔ e.unplaced = f.unplaced := by
  rcases e with ⟨_ | name, v, span⟩ <;> rcases f with ⟨_ | name', w, span'⟩ <;>
    simp [alike, unplaced, Spanned.unplaced_inj]

/-- So are lists of entries. -/
lemma Entry.allAlike_iff_unplaced_eq {es fs : List Entry} :
    allAlike es fs = true ↔ es.map unplaced = fs.map unplaced := by
  induction es generalizing fs with
  | nil => cases fs <;> simp [allAlike]
  | cons e es ih => cases fs <;> simp [allAlike, alike_iff_unplaced_eq, ih]

namespace Node

mutual

/-- Trees are alike if they are the same but for their places. -/
theorem alike_iff_unplaced_eq : (a : Node) → ∀ {b : Node},
    a.alike b = true ↔ a.unplaced = b.unplaced
  | ⟨name, entries, children, span⟩, b => by
    rw [alike, unplaced, unplaced_eq b, Bool.and_eq_true, Bool.and_eq_true, beq_iff_eq,
      Entry.allAlike_iff_unplaced_eq, allAlike_iff_unplaced_eq children, unplacedAll_eq_map]
    simp [Spanned.unplaced_inj, and_assoc]

/-- So are lists of trees. -/
theorem allAlike_iff_unplaced_eq : (as : List Node) → ∀ {bs : List Node},
    allAlike as bs = true ↔ as.map unplaced = bs.map unplaced
  | [], [] => by simp [allAlike]
  | [], _ :: _ => by simp [allAlike]
  | _ :: _, [] => by simp [allAlike]
  | a :: as, b :: bs => by
    rw [allAlike, Bool.and_eq_true, alike_iff_unplaced_eq a, allAlike_iff_unplaced_eq as]
    simp

end

end Node

/-! ## Diagnostics and journals -/

/-- A diagnostic without its place. -/
def Diagnostic.unplaced (d : Diagnostic) : Diagnostic :=
  { d with span := d.span.map fun _ => .none }

@[simp] lemma Problem.unplaced_reportedAt (p : Problem) (span : Span) :
    (p.reportedAt span).unplaced = p.reportedAt .none :=
  rfl

@[simp] lemma Diagnostic.isError_unplaced (d : Diagnostic) : d.unplaced.isError = d.isError :=
  rfl

/-- A call without its place. -/
def Call.unplaced (call : Call) : Call :=
  { call with span := .none }

namespace Journal

/-- A journal without its places. -/
def unplaced (j : Journal) : Journal :=
  ⟨j.diagnostics.map Diagnostic.unplaced, j.calls.map Call.unplaced, j.log⟩

variable (a b j : Journal)

@[simp] lemma unplaced_append : (a ++ b).unplaced = a.unplaced ++ b.unplaced := by
  rw [unplaced, diagnostics_append, calls_append, List.map_append, List.map_append]
  rfl

@[simp] lemma unplaced_report (ds : List Diagnostic) :
    (report ds).unplaced = report (ds.map Diagnostic.unplaced) :=
  rfl

@[simp] lemma unplaced_line (channel : Channel) (text : String) :
    (line channel text).unplaced = line channel text :=
  rfl

@[simp] lemma unplaced_empty : empty.unplaced = empty :=
  rfl

@[simp] lemma hasErrors_unplaced : j.unplaced.hasErrors = j.hasErrors := by
  simp [hasErrors, unplaced, Function.comp_def]

@[simp] lemma callCount_unplaced : j.unplaced.callCount = j.callCount := by
  simp [callCount, unplaced]

@[simp] lemma peak_unplaced : j.unplaced.peak = j.peak := by
  simp [peak, unplaced, List.foldl_map, Call.unplaced]

@[simp] lemma unplaced_collision (policy : CollisionPolicy) (name : String) (span : Span)
    (previous : String) :
    (collision policy name span previous).unplaced = collision policy name .none previous := by
  cases policy <;> rfl

end Journal

end Stencil
