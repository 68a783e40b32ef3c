import Stencil.Keyed

/-!
# The order of files

Files are read after the files they import.  `ImportGraph.order` lists them in such an order, or
finds files that import each other in a circle.  Two files belong to one component when each
reaches the other by imports, and a component is a circle when it holds two files or a file that
imports itself.  Imports of files outside the graph do not count.

The components are found in one depth-first pass (Tarjan).  Files are numbered as they are entered,
and each stays on a stack until its component is complete.  The visit of a file gives back its low
link: its own number, or that of an earlier file on the stack which the visit has come upon.  A file
with its own number for a low link is the first of its component, which is the stack from there on.

A component is complete only after all that it reaches, so without circles the components make an
order as they stand.
-/

namespace Stencil

/-- The files that each file imports. -/
abbrev ImportGraph := Keyed (List String)

/-- The order of the files of a graph, or files that import each other in a circle. -/
inductive FileOrder where
  | sorted (files : List String)
  | circle (files : List String)
deriving DecidableEq

/-- What a pass over a graph has found so far. -/
structure Pass where
  /-- The files entered, in order. -/
  entered : List String
  /-- The files entered whose component is not complete, in order. -/
  stack : List String
  /-- The complete components, in the order of completion. -/
  components : List (List String)

namespace Pass

/-- The pass that has not begun. -/
def start : Pass :=
  ⟨[], [], []⟩

/-- The number of a file that was entered. -/
def number (p : Pass) (file : String) : Nat :=
  p.entered.idxOf file

/-- The pass after a file is entered. -/
def enter (p : Pass) (file : String) : Pass :=
  { p with entered := p.entered ++ [file], stack := p.stack ++ [file] }

/-- The pass after the visit of a file with an own number and a low link: if they are the same, the
files on the stack from this one on are a component. -/
def leave (p : Pass) (file : String) (own low : Nat) : Pass :=
  if low = own then
    { p with
      stack := p.stack.takeWhile fun other => other != file
      components := p.components ++ [p.stack.dropWhile fun other => other != file] }
  else p

/-- A low link after an import that is not entered again. -/
def lowered (p : Pass) (low : Nat) (file : String) : Nat :=
  if p.stack.contains file then min low (p.number file) else low

theorem entered_leave (p : Pass) (file : String) (own low : Nat) :
    (p.leave file own low).entered = p.entered := by
  unfold leave
  split <;> rfl

end Pass

/-- The end of visits that began with a pass: the low link and the pass.  What was entered before
is still entered. -/
structure Visited (p : Pass) where
  low : Nat
  pass : Pass
  kept : p.entered ⊆ pass.entered

/-- What a visit has entered by the time it is left. -/
theorem Visited.kept_leave {p : Pass} {file : String} (v : Visited (p.enter file)) (own : Nat) :
    p.entered ++ [file] ⊆ (v.pass.leave file own v.low).entered := by
  rw [Pass.entered_leave]
  exact v.kept

namespace ImportGraph

/-- The files of the graph that a file imports. -/
def importsOf (g : ImportGraph) (file : String) : List String :=
  ((Keyed.get? g file).getD []).filter (Keyed.has g)

/-- The files of the graph that a pass has not entered. -/
def unentered (g : ImportGraph) (p : Pass) : List String :=
  (Keyed.names g).filter fun file => !p.entered.contains file

/-- A pass that has entered a further file of the graph has fewer to enter. -/
theorem unentered_lt {g : ImportGraph} {p q : Pass} {file : String}
    (inside : Keyed.has g file = true) (fresh : p.entered.contains file = false)
    (kept : p.entered ++ [file] ⊆ q.entered) :
    (g.unentered q).length < (g.unentered p).length := by
  have before : p.entered ⊆ q.entered := fun _ h => kept (List.mem_append_left _ h)
  have entered : file ∈ q.entered := kept (List.mem_append_right _ List.mem_cons_self)
  have left : g.unentered q = (g.unentered p).filter fun other => !q.entered.contains other := by
    rw [unentered, unentered, List.filter_filter]
    refine List.filter_congr fun other _ => ?_
    rw [Bool.eq_iff_iff]
    simpa using fun h hp => h (before hp)
  have there : file ∈ g.unentered p :=
    List.mem_filter.2 ⟨Keyed.mem_names_of_has inside, by rw [fresh]; rfl⟩
  rw [left]
  exact List.length_filter_lt_length_iff_exists.2 ⟨file, there, by simp [entered]⟩

/-- Visits of some files, one after another, from a low link and a pass.  A file of the graph that
has not been entered is entered, and its imports are visited from its own number. -/
def visit (g : ImportGraph) : List String → Nat → (p : Pass) → Visited p
  | [], low, p => ⟨low, p, List.Subset.refl _⟩
  | file :: rest, low, p =>
    if _h : Keyed.has g file = true ∧ p.entered.contains file = false then
      let own := p.entered.length
      let inner := g.visit (g.importsOf file) own (p.enter file)
      let later := g.visit rest (min low inner.low) (inner.pass.leave file own inner.low)
      ⟨later.low, later.pass,
        fun _ h => later.kept (inner.kept_leave own (List.mem_append_left _ h))⟩
    else g.visit rest (p.lowered low file) p
termination_by files _ p => ((g.unentered p).length, files.length)
decreasing_by
  · exact Prod.Lex.left _ _ (unentered_lt _h.1 _h.2 (List.Subset.refl _))
  · exact Prod.Lex.left _ _ (unentered_lt _h.1 _h.2 (Visited.kept_leave _ _))
  · exact Prod.Lex.right _ (Nat.lt_succ_self _)

/-- Whether a component is a circle. -/
def isCircle (g : ImportGraph) : List String → Bool
  | [file] => (g.importsOf file).contains file
  | files => files.length > 1

/-- The components of a graph, each after those that it reaches. -/
def components (g : ImportGraph) : List (List String) :=
  (g.visit (Keyed.names g) 0 .start).pass.components

/-- The files of a graph, each after the files it imports, or the first component that makes such
an order impossible. -/
def order (g : ImportGraph) : FileOrder :=
  match g.components.find? g.isCircle with
  | some files => .circle files
  | none => .sorted g.components.flatten

end ImportGraph

end Stencil
