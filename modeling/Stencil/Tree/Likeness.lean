import Stencil.Tree.Basic

/-!
# Trees alike

Two nodes are alike when they have the same names, entries and children, wherever they were
read from: likeness ignores spans and nothing else.
-/

namespace Stencil

/-- Whether two entries are alike. -/
def Entry.alike (a b : Entry) : Bool :=
  a.name.map Spanned.inner == b.name.map Spanned.inner && a.value.inner == b.value.inner

/-- Whether two lists of entries are alike. -/
def Entry.allAlike : List Entry → List Entry → Bool
  | [], [] => true
  | a :: as, b :: bs => a.alike b && allAlike as bs
  | _, _ => false

mutual

/-- Whether two nodes are alike. -/
def Node.alike : Node → Node → Bool
  | ⟨name, entries, children, _⟩, b =>
    name.inner == b.name.inner && Entry.allAlike entries b.entries &&
      allAlike children b.children

/-- Whether two lists of nodes are alike. -/
def Node.allAlike : List Node → List Node → Bool
  | [], [] => true
  | a :: as, b :: bs => a.alike b && allAlike as bs
  | _, _ => false

end

/-! ## Every tree is like itself -/

@[simp] theorem Entry.allAlike_refl (entries : List Entry) : allAlike entries entries = true := by
  induction entries with
  | nil => rfl
  | cons e rest ih => simp [allAlike, alike, ih]

mutual

@[simp] theorem Node.alike_refl : (n : Node) → n.alike n = true
  | ⟨name, entries, children, span⟩ => by
    rw [alike]
    simp [allAlike_refl children]

@[simp] theorem Node.allAlike_refl : (nodes : List Node) → allAlike nodes nodes = true
  | [] => by rw [allAlike]
  | n :: rest => by
    rw [allAlike, alike_refl n, allAlike_refl rest]
    rfl

end

end Stencil
