/-!
# Sets of characters

Classes of characters are given by ranges of their code points, both ends included.
-/

namespace Stencil

/-- A set of characters, as ranges of code points. -/
abbrev CodePoints := List (Nat × Nat)

namespace CodePoints

/-- Whether a character is in a set. -/
def holds (set : CodePoints) (c : Char) : Bool :=
  set.any fun (first, last) => first ≤ c.toNat && c.toNat ≤ last

end CodePoints

end Stencil
