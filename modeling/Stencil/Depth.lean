import Stencil.Number.Basic

/-!
# Depths

The depth of a node is the number of calls that it is read inside of.  A run begins at the top
and counts them.  Nodes may also be expanded by themselves, as if at a given depth; from there
the depth goes on as a number of 53 bits, so that it stops growing where adding one no longer
makes a difference.
-/

namespace Stencil

/-- How deep in calls a node is read. -/
inductive Depth where
  /-- Inside a number of calls, counted from the top of the run. -/
  | counted (calls : Nat)
  /-- At a depth that was given, or that goes on from a given one. -/
  | given (depth : Int)
deriving DecidableEq

namespace Depth

/-- The depth outside all calls. -/
def top : Depth :=
  .counted 0

/-- The depth as an integer. -/
def value : Depth → Int
  | .counted calls => calls
  | .given depth => depth

/-- The depth inside one more call. -/
def next : Depth → Depth
  | .counted calls => .counted (calls + 1)
  | .given depth => .given (Number.roundInt (depth + 1))

end Depth

end Stencil
