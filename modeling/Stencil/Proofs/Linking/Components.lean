import Mathlib.Data.List.Basic
import Mathlib.Logic.Relation
import Mathlib.Tactic.Lemma
import Stencil.Linking.Order

/-!
# The components that a pass finds

The invariant of the pass (`Pass.Sound`) is about the files whose visit is under way, the path.
Every file on the stack reaches those after it and leads back to a file of the path that was entered
no later; every file off the path has had all its imports entered; and what has been completed is
closed under imports and connected.

A visit keeps this and gives a low link (`Visits`).  The low link is the number of a file on the
stack that was come upon, so a file whose low link is smaller than its own number leads back beyond
itself and stays on the stack; and no import leads from the files that the visit has left on the
stack to one below the low link, so a file whose low link is its own number can be completed
(`Visits.sound_leave`).  `visit_sound` is the induction over a whole pass.

A low link is only ever lowered to the number of a file on the stack, so a file with a small one
reaches a file that was entered before (`Visits.found`); and each import of a file that stays on the
stack was counted into it (`Visits.le_imported`).  Neither says that the low link is the least
number that can be reached: through a file that another visit has already left, a smaller one may be
reachable.  The invariant does not need it, since `Sound.returns` keeps the way back of every file
that stays on the stack.

That what has been completed is all of a component, and not only connected, follows at the end from
the two closure properties alone (`Complete.mem_iff`): neither the numbers nor the stack occur in
it.
-/

namespace Stencil

namespace ImportGraph

variable {g : ImportGraph} {files path : List String} {file other : String}

/-! ## Imports -/

/-- A file imports another file of the graph. -/
def Imports (g : ImportGraph) (file other : String) : Prop :=
  other ∈ g.importsOf file

/-- A chain of imports leads from a file to another. -/
abbrev Reaches (g : ImportGraph) : String → String → Prop :=
  Relation.ReflTransGen g.Imports

lemma Imports.inside (h : g.Imports file other) : Keyed.has g other = true :=
  (List.mem_filter.1 h).2

lemma Imports.inside_left (h : g.Imports file other) : Keyed.has g file = true := by
  have mem := (List.mem_filter.1 h).1
  rcases found : Keyed.get? g file with _ | imports
  · simp [found] at mem
  · simp [Keyed.has, found]

/-! ## Complete components -/

/-- What holds of each member of a list and those before it holds of a list with one more member,
if it holds of the last. -/
lemma forall_split_concat {α : Type} {P : List α → α → Prop} {xs : List α} {last : α}
    (h : ∀ before x after, xs = before ++ x :: after → P before x) (hl : P xs last) :
    ∀ before x after, xs ++ [last] = before ++ x :: after → P before x := by
  intro before x after split
  rcases List.eq_nil_or_concat after with rfl | ⟨after, last', rfl⟩
  · obtain ⟨rfl, same⟩ := List.append_inj' split rfl
    exact List.singleton_inj.1 same ▸ hl
  · have longer : before ++ x :: (after ++ [last']) = (before ++ x :: after) ++ [last'] := by
      simp
    rw [List.concat_eq_append, longer] at split
    exact h before x after (List.append_inj' split rfl).1

/-- Lists of files, each of which has some, is connected and is closed under imports but for files
of earlier ones.  The order of the lists counts: what a component imports is in it or in one before
it, so complete components also come dependencies first. -/
def Complete (g : ImportGraph) (components : List (List String)) : Prop :=
  ∀ before files after, components = before ++ files :: after →
    files ≠ [] ∧ (∀ a ∈ files, ∀ b ∈ files, g.Reaches a b) ∧
      ∀ file ∈ files, ∀ other, g.Imports file other → other ∈ files ∨ other ∈ before.flatten

namespace Complete

variable {components before after : List (List String)}

lemma nil : g.Complete [] := by
  intro before files after split
  simp at split

lemma concat (h : g.Complete components) (nonempty : files ≠ [])
    (connected : ∀ a ∈ files, ∀ b ∈ files, g.Reaches a b)
    (closed : ∀ file ∈ files, ∀ other, g.Imports file other →
      other ∈ files ∨ other ∈ components.flatten) : g.Complete (components ++ [files]) :=
  forall_split_concat h ⟨nonempty, connected, closed⟩

lemma of_append (h : g.Complete (before ++ after)) : g.Complete before := by
  rintro first files rest rfl
  exact h first files (rest ++ after) (by simp)

/-- What complete components reach is in them. -/
lemma mem_of_reaches (h : g.Complete components) (mem : file ∈ components.flatten)
    (reach : g.Reaches file other) : other ∈ components.flatten := by
  induction reach with
  | refl => exact mem
  | tail _ step ih =>
    obtain ⟨files, hf, inside⟩ := List.mem_flatten.1 ih
    obtain ⟨before, after, rfl⟩ := List.append_of_mem hf
    have closed := (h before files after rfl).2.2 _ inside _ step
    simp only [List.flatten_append, List.flatten_cons, List.mem_append]
    tauto

/-- **A complete component is strongly connected**, and is all that is strongly connected with any
of its files. -/
theorem mem_iff (h : g.Complete components) (nodup : components.flatten.Nodup)
    (component : files ∈ components) (mem : file ∈ files) :
    other ∈ files ↔ g.Reaches file other ∧ g.Reaches other file := by
  obtain ⟨before, after, rfl⟩ := List.append_of_mem component
  obtain ⟨_, connected, _⟩ := h before files after rfl
  refine ⟨fun ho => ⟨connected _ mem _ ho, connected _ ho _ mem⟩, fun ⟨there, back⟩ => ?_⟩
  have earlier := h.of_append
  have reached : other ∈ files ∨ other ∈ before.flatten := by
    have joined : g.Complete ((before ++ [files]) ++ after) := by simpa using h
    have inside := joined.of_append.mem_of_reaches (by simp [mem]) there
    simpa [or_comm] using inside
  refine reached.resolve_right fun ho => ?_
  -- an earlier component would reach the file, and so would have to hold it
  have again := earlier.mem_of_reaches ho back
  rw [List.flatten_append, List.nodup_append] at nodup
  exact nodup.2.2 _ again _ (List.mem_append_left _ mem) rfl

end Complete

end ImportGraph

/-! ## The state of a pass

A file is numbered by its place among the entered files, so the numbers of a file and of those
entered before it never change.  The stack and the completed components share the entered files
among them. -/

namespace Pass

open ImportGraph

variable {g : ImportGraph} {path : List String} {p q : Pass} {file other : String}

lemma number_lt (h : file ∈ p.entered) : p.number file < p.entered.length :=
  List.idxOf_lt_length_of_mem h

lemma number_eq (kept : p.entered <+: q.entered) (h : file ∈ p.entered) :
    q.number file = p.number file := by
  obtain ⟨more, same⟩ := kept
  rw [number, ← same, List.idxOf_append_of_mem h, number]

lemma number_enter (fresh : file ∉ p.entered) : (p.enter file).number file = p.entered.length := by
  rw [number, enter, List.idxOf_append_of_notMem fresh, List.idxOf_cons_self, Nat.add_zero]

lemma lowered_le (p : Pass) (low : Nat) (file : String) : p.lowered low file ≤ low := by
  unfold lowered
  split
  · exact Nat.min_le_left _ _
  · exact Nat.le_refl _

lemma entered_prefix_enter (p : Pass) (file : String) : p.entered <+: (p.enter file).entered :=
  List.prefix_append _ _

/-- The invariant of a pass over a graph, while the visits of the files of a path are under way.
The path is listed from the inside out: the file that is visited now is its first. -/
structure Sound (g : ImportGraph) (path : List String) (p : Pass) : Prop where
  inside : ∀ file ∈ p.entered, Keyed.has g file = true
  nodup : p.entered.Nodup
  /-- What has been entered is complete or on the stack. -/
  placed : List.Perm p.entered (p.components.flatten ++ p.stack)
  underWay : path ⊆ p.stack
  explored : ∀ file ∈ p.entered, file ∉ path → ∀ other, g.Imports file other → other ∈ p.entered
  complete : g.Complete p.components
  /-- A file on the stack reaches those after it. -/
  descends : p.stack.Pairwise g.Reaches
  /-- A file on the stack leads back to one of the path that was entered no later. -/
  returns : ∀ file ∈ p.stack, ∃ base ∈ path, p.number base ≤ p.number file ∧ g.Reaches file base

lemma sound_start (g : ImportGraph) : start.Sound g [] where
  inside _ h := absurd h List.not_mem_nil
  nodup := List.nodup_nil
  placed := List.Perm.refl _
  underWay := List.nil_subset _
  explored _ h := absurd h List.not_mem_nil
  complete := .nil
  descends := List.Pairwise.nil
  returns _ h := absurd h List.not_mem_nil

namespace Sound

lemma stack_subset (h : p.Sound g path) : p.stack ⊆ p.entered :=
  fun _ mem => h.placed.mem_iff.2 (List.mem_append_right _ mem)

lemma nodup_placed (h : p.Sound g path) : (p.components.flatten ++ p.stack).Nodup :=
  h.placed.nodup_iff.1 h.nodup

lemma enter (h : p.Sound g path) (inside : Keyed.has g file = true) (fresh : file ∉ p.entered)
    (leads : ∀ base ∈ path, g.Reaches base file) : (p.enter file).Sound g (file :: path) where
  inside other ho := by
    rcases List.mem_append.1 ho with ho | ho
    · exact h.inside other ho
    · rwa [List.mem_singleton.1 ho]
  nodup := List.nodup_append.2 ⟨h.nodup, by simp, fun a ha b hb same =>
    fresh (List.mem_singleton.1 hb ▸ same ▸ ha)⟩
  placed := by
    have more := h.placed.append_right [file]
    rwa [List.append_assoc] at more
  underWay := List.cons_subset.2 ⟨List.mem_append_right _ List.mem_cons_self,
    List.subset_append_of_subset_left _ h.underWay⟩
  explored other ho off next step := by
    rw [List.mem_cons, not_or] at off
    rcases List.mem_append.1 ho with ho | ho
    · exact List.mem_append_left _ (h.explored other ho off.2 next step)
    · exact absurd (List.mem_singleton.1 ho) off.1
  complete := h.complete
  -- each file of the stack leads back to the path, and the path leads on to the new file
  descends := by
    refine List.pairwise_append.2 ⟨h.descends, List.pairwise_singleton _ _, ?_⟩
    intro other ho last hl
    obtain ⟨base, hb, _, back⟩ := h.returns other ho
    rw [List.mem_singleton.1 hl]
    exact back.trans (leads base hb)
  -- the new file is the last on the stack and is on the path itself; the others keep their numbers
  returns other ho := by
    rcases List.mem_append.1 ho with ho | ho
    · obtain ⟨base, hb, before, back⟩ := h.returns other ho
      have known := number_eq (p.entered_prefix_enter file) (h.stack_subset ho)
      have known' := number_eq (p.entered_prefix_enter file)
        (h.stack_subset (h.underWay hb))
      exact ⟨base, List.mem_cons_of_mem _ hb, by omega, back⟩
    · rw [List.mem_singleton.1 ho]
      exact ⟨file, List.mem_cons_self, Nat.le_refl _, .refl⟩

/-- What is on the stack later and was not before is new, and so has a greater number than what was
entered before. -/
lemma length_le_number (h : p.Sound g path) (h' : q.Sound g path)
    (entered : p.entered <+: q.entered) (components : p.components <+: q.components)
    (mem : file ∈ q.stack) (new : file ∉ p.stack) : p.entered.length ≤ q.number file := by
  have fresh : file ∉ p.entered := by
    intro before
    obtain ⟨more, same⟩ := components
    have done := (List.mem_append.1 (h.placed.mem_iff.1 before)).resolve_right new
    have done' : file ∈ q.components.flatten := by
      rw [← same, List.flatten_append]
      exact List.mem_append_left _ done
    exact (List.nodup_append.1 h'.nodup_placed).2.2 _ done' _ mem rfl
  obtain ⟨more, same⟩ := entered
  rw [number, ← same, List.idxOf_append_of_notMem fresh]
  exact Nat.le_add_right _ _

end Sound

end Pass

/-! ## Visits

A visit is described by what it leaves behind, compared with what it found: entered files and
components that have grown at their ends, a stack that has grown on top, and a low link. -/

namespace ImportGraph

open Pass

variable {g : ImportGraph} {files rest path : List String} {file other : String}
variable {low low' inLow : Nat} {p q r : Pass}

/-- What visits of some files do to a pass, and what their low link says.  The entered files, the
stack and the components only grow at their ends; the low link that comes in is that of what was
visited before under the same file. -/
structure Visits (g : ImportGraph) (files : List String) (low : Nat) (p : Pass) (low' : Nat)
    (q : Pass) : Prop where
  entered : p.entered <+: q.entered
  stack : p.stack <+: q.stack
  components : p.components <+: q.components
  visited : ∀ file ∈ files, Keyed.has g file = true → file ∈ q.entered
  le : low' ≤ low
  /-- The low link is the number of a file that was come upon. -/
  found : low' = low ∨
    ∃ file ∈ files, ∃ base ∈ p.stack, low' = p.number base ∧ g.Reaches file base
  /-- No visited file was on the stack below the low link. -/
  le_visited : ∀ file ∈ files, file ∈ p.stack → low' ≤ p.number file
  /-- No file that is left on the stack imports one below the low link. -/
  le_imported : ∀ file ∈ q.stack, file ∉ p.stack → ∀ base ∈ p.stack, g.Imports file base →
    low' ≤ p.number base

namespace Visits

lemma nil : g.Visits [] low p low p where
  entered := List.prefix_refl _
  stack := List.prefix_refl _
  components := List.prefix_refl _
  visited _ h := absurd h List.not_mem_nil
  le := Nat.le_refl _
  found := .inl rfl
  le_visited _ h := absurd h List.not_mem_nil
  le_imported _ mem new := absurd mem new

/-- A file that is not entered may lower the low link: to its number if it is on the stack, and not
at all if it is complete or not of the graph. -/
lemma stale (skipped : ¬(Keyed.has g file = true ∧ p.entered.contains file = false))
    (later : g.Visits rest (p.lowered low file) p low' q) :
    g.Visits (file :: rest) low p low' q := by
  refine ⟨later.entered, later.stack, later.components, ?_,
    Nat.le_trans later.le (p.lowered_le low file), ?_, ?_, later.le_imported⟩
  · intro other ho inside
    rcases List.mem_cons.1 ho with rfl | ho
    · have known : other ∈ p.entered := by
        by_contra fresh
        exact skipped ⟨inside, by simpa using fresh⟩
      exact later.entered.subset known
    · exact later.visited other ho inside
  · -- a low link that the rest has not lowered further is the one that this file has left
    rcases later.found with same | ⟨start, hs, base, hb, number, reach⟩
    · unfold lowered at same
      split at same
      · next mem =>
        rcases Nat.le_total low (p.number file) with le | le
        · exact .inl (same.trans (Nat.min_eq_left le))
        · exact .inr ⟨file, List.mem_cons_self, file, List.contains_iff_mem.1 mem,
            same.trans (Nat.min_eq_right le), .refl⟩
      · exact .inl same
    · exact .inr ⟨start, List.mem_cons_of_mem _ hs, base, hb, number, reach⟩
  · intro other ho mem
    rcases List.mem_cons.1 ho with rfl | ho
    · have lowered : p.lowered low other ≤ p.number other := by
        rw [Pass.lowered, if_pos (List.contains_iff_mem.2 mem)]
        exact Nat.min_le_right _ _
      exact Nat.le_trans later.le lowered
    · exact later.le_visited other ho mem

/-! ## The visit of a file -/

section Fresh

variable (sound : p.Sound g path) (fresh : file ∉ p.entered)
  (inner : g.Visits (g.importsOf file) p.entered.length (p.enter file) inLow q)
include sound fresh inner

omit sound fresh in
lemma exists_stack : ∃ above, q.stack = p.stack ++ file :: above := by
  obtain ⟨above, same⟩ := inner.stack
  exact ⟨above, by rw [← same, Pass.enter, List.append_assoc, List.singleton_append]⟩

omit sound in
lemma number_own : q.number file = p.entered.length :=
  (number_eq inner.entered (List.mem_append_right _ List.mem_cons_self)).trans (number_enter fresh)

omit fresh in
/-- A file that was on the stack before keeps its number, which is smaller than that of the file
that is visited. -/
lemma number_before {base : String} (mem : base ∈ p.stack) :
    (p.enter file).number base = p.number base ∧ q.number base = p.number base ∧
      p.number base < p.entered.length := by
  have before := sound.stack_subset mem
  have known := number_eq (p.entered_prefix_enter file) before
  have entered : base ∈ (p.enter file).entered := List.mem_append_left _ before
  exact ⟨known, (number_eq inner.entered entered).trans known, number_lt before⟩

/-- A low link that is smaller than the own number was found on the stack. -/
lemma exists_found (smaller : inLow ≠ p.entered.length) :
    ∃ base ∈ p.stack, inLow = p.number base ∧ g.Reaches file base := by
  obtain ⟨start, hs, base, hb, number, reach⟩ := inner.found.resolve_left smaller
  have before : base ∈ p.stack := by
    refine (List.mem_append.1 hb).resolve_right fun last => ?_
    rw [List.mem_singleton.1 last, number_enter fresh] at number
    exact smaller number
  exact ⟨base, before, number.trans (inner.number_before sound before).1, .head hs reach⟩

omit fresh in
/-- The visited file and those that it has left on the stack import none below the low link. -/
lemma le_number_of_imports {base : String} (mem : other ∈ q.stack) (new : other ∉ p.stack)
    (before : base ∈ p.stack) (step : g.Imports other base) : inLow ≤ p.number base := by
  have mem' : base ∈ (p.enter file).stack := List.mem_append_left _ before
  rw [← (inner.number_before sound before).1]
  by_cases own : other = file
  · exact inner.le_visited base (own ▸ step) mem'
  · refine inner.le_imported other mem (fun ho => ?_) base mem' step
    rcases List.mem_append.1 ho with ho | ho
    · exact new ho
    · exact own (List.mem_singleton.1 ho)

/-- A file whose low link is its own number takes the stack from itself on for its component. -/
lemma leave_own (own : inLow = p.entered.length) {above : List String}
    (stack : q.stack = p.stack ++ file :: above) :
    q.leave file p.entered.length inLow =
      ⟨q.entered, p.stack, q.components ++ [file :: above]⟩ := by
  have apart : ∀ other ∈ p.stack, (other != file) = true := by
    intro other ho
    simp only [bne_iff_ne]
    rintro rfl
    exact fresh (sound.stack_subset ho)
  have take : q.stack.takeWhile (fun other => other != file) = p.stack := by
    rw [stack, List.takeWhile_append_of_pos apart]
    simp
  have drop : q.stack.dropWhile (fun other => other != file) = file :: above := by
    rw [stack, List.dropWhile_append_of_pos apart]
    simp
  rw [Pass.leave, if_pos own, take, drop]

/-- Either way, the file is left with the same files entered; the stack is as it was before, or as
the imports have left it. -/
lemma stack_leave :
    (inLow = p.entered.length ∧ (q.leave file p.entered.length inLow).stack = p.stack) ∨
      (inLow ≠ p.entered.length ∧ q.leave file p.entered.length inLow = q) := by
  by_cases own : inLow = p.entered.length
  · obtain ⟨above, stack⟩ := inner.exists_stack
    exact .inl ⟨own, by rw [inner.leave_own sound fresh own stack]⟩
  · exact .inr ⟨own, by rw [Pass.leave, if_neg own]⟩

section Sound

variable (sound' : q.Sound g (file :: path))
include sound'

omit sound fresh in
/-- With its visit, the file has had all its imports entered. -/
lemma explored_leave (ho : other ∈ q.entered) (off : other ∉ path) {next : String}
    (step : g.Imports other next) : next ∈ q.entered := by
  by_cases same : other = file
  · exact inner.visited next (same ▸ step) step.inside
  · refine sound'.explored other ho (fun mem => ?_) next step
    exact (List.mem_cons.1 mem).elim same off

omit sound fresh inner in
/-- The file and those above it on the stack lead to each other. -/
lemma connected_above (leads : ∀ base ∈ path, g.Reaches base file) {above : List String}
    (stack : q.stack = p.stack ++ file :: above) :
    ∀ a ∈ file :: above, ∀ b ∈ file :: above, g.Reaches a b := by
  have below := sound'.descends
  rw [stack, List.pairwise_append, List.pairwise_cons] at below
  have reached : ∀ other ∈ file :: above, g.Reaches file other := by
    intro other ho
    rcases List.mem_cons.1 ho with rfl | ho
    · exact .refl
    · exact below.2.1.1 other ho
  have back : ∀ other ∈ file :: above, g.Reaches other file := by
    intro other ho
    obtain ⟨base, hb, _, reach⟩ := sound'.returns other (stack ▸ List.mem_append_right _ ho)
    rcases List.mem_cons.1 hb with rfl | hb
    · exact reach
    · exact reach.trans (leads base hb)
  exact fun a ha b hb => (back a ha).trans (reached b hb)

/-- A file whose low link is its own number is the first of a component: the files on the stack from
it on are connected and closed under imports.  They are moved from the stack to the components, and
the invariant holds of the shorter path. -/
lemma sound_complete (leads : ∀ base ∈ path, g.Reaches base file)
    (own : inLow = p.entered.length) : (q.leave file p.entered.length inLow).Sound g path := by
  obtain ⟨above, stack⟩ := inner.exists_stack
  have distinct := (List.nodup_append.1 sound'.nodup_placed).2.1
  rw [stack, List.nodup_append] at distinct
  have left : ∀ other ∈ file :: above, other ∈ q.stack ∧ other ∉ p.stack := fun other ho =>
    ⟨stack ▸ List.mem_append_right _ ho, fun mem => distinct.2.2 other mem other ho rfl⟩
  -- an import of an earlier file on the stack would have given a smaller low link
  have stays : ∀ other ∈ file :: above, ∀ next, g.Imports other next → next ∉ p.stack := by
    intro other ho next step mem
    have bound := inner.le_number_of_imports sound (left other ho).1 (left other ho).2 mem step
    have earlier := (inner.number_before sound mem).2.2
    omega
  rw [inner.leave_own sound fresh own stack]
  refine ⟨sound'.inside, sound'.nodup, ?_, sound.underWay,
    fun other ho off _ => inner.explored_leave sound' ho off, ?_, sound.descends, ?_⟩
  · -- what was entered stays placed: the files only change their side
    have placed := sound'.placed
    rw [stack] at placed
    refine placed.trans ?_
    rw [List.flatten_append, List.flatten_singleton, List.append_assoc]
    exact List.Perm.append_left _ List.perm_append_comm
  · refine sound'.complete.concat (List.cons_ne_nil _ _)
      (connected_above sound' leads stack) ?_
    intro other ho next step
    have entered : other ∈ q.entered := sound'.stack_subset (left other ho).1
    have off : other ∉ path := fun mem => (left other ho).2 (sound.underWay mem)
    have placed := sound'.placed.mem_iff.1 (inner.explored_leave sound' entered off step)
    rw [stack, List.mem_append, List.mem_append] at placed
    rcases placed with done | mem | mem
    · exact .inr done
    · exact absurd mem (stays other ho next step)
    · exact .inl mem
  · -- the files below the visited one return to a file below it: their numbers are smaller
    intro other ho
    obtain ⟨base, hb, before, reach⟩ := sound'.returns other (stack ▸ List.mem_append_left _ ho)
    obtain ⟨_, known, earlier⟩ := inner.number_before sound ho
    have number := inner.number_own fresh
    rcases List.mem_cons.1 hb with rfl | hb
    · omega
    · exact ⟨base, hb, before, reach⟩

/-- A file with a smaller low link leads back beyond itself.  The pass stays as it is, with the file
on the stack but off the path, so whatever returned to the file has to return to the path below
it. -/
lemma sound_incomplete (smaller : inLow ≠ p.entered.length) : q.Sound g path := by
  obtain ⟨above, stack⟩ := inner.exists_stack
  have number := inner.number_own fresh
  -- from the low link, the way goes on to a file of the path below this one
  have beyond : ∃ base ∈ path, q.number base ≤ inLow ∧ g.Reaches file base := by
    obtain ⟨come, before, low, reach⟩ := inner.exists_found sound fresh smaller
    obtain ⟨_, known, earlier⟩ := inner.number_before sound before
    obtain ⟨base, hb, le, back⟩ := sound'.returns come (stack ▸ List.mem_append_left _ before)
    have ne : base ≠ file := by
      rintro rfl
      omega
    exact ⟨base, (List.mem_cons.1 hb).resolve_left ne, by omega, reach.trans back⟩
  refine ⟨sound'.inside, sound'.nodup, sound'.placed, (List.cons_subset.1 sound'.underWay).2,
    fun other ho off _ => inner.explored_leave sound' ho off, sound'.complete, sound'.descends, ?_⟩
  intro other ho
  obtain ⟨base, hb, before, reach⟩ := sound'.returns other ho
  rcases List.mem_cons.1 hb with rfl | hb
  · obtain ⟨base', hb', before', back⟩ := beyond
    have le := inner.le
    exact ⟨base', hb', by omega, reach.trans back⟩
  · exact ⟨base, hb, before, reach⟩

/-- **A file is left soundly**, with its component completed or not. -/
theorem sound_leave (leads : ∀ base ∈ path, g.Reaches base file) :
    (q.leave file p.entered.length inLow).Sound g path := by
  rcases inner.stack_leave sound fresh with ⟨own, _⟩ | ⟨smaller, same⟩
  · exact inner.sound_complete sound fresh sound' leads own
  · rw [same]
    exact inner.sound_incomplete sound fresh sound' smaller

end Sound

/-- The visit of a file and those of further files are visits of them all. -/
lemma cons (sound' : (q.leave file p.entered.length inLow).Sound g path)
    (le : low ≤ p.entered.length)
    (later : g.Visits rest (min low inLow) (q.leave file p.entered.length inLow) low' r) :
    g.Visits (file :: rest) low p low' r := by
  have entered := q.entered_leave file p.entered.length inLow
  have kept : p.entered <+: q.entered :=
    List.IsPrefix.trans (p.entered_prefix_enter file) inner.entered
  have stack : p.stack <+: (q.leave file p.entered.length inLow).stack := by
    rcases inner.stack_leave sound fresh with ⟨_, same⟩ | ⟨_, same⟩
    · exact same ▸ List.prefix_refl _
    · rw [same]
      exact List.IsPrefix.trans (List.prefix_append _ _) inner.stack
  have components : p.components <+: (q.leave file p.entered.length inLow).components := by
    refine List.IsPrefix.trans inner.components ?_
    unfold Pass.leave
    split
    · exact List.prefix_append _ _
    · exact List.prefix_refl _
  have number : ∀ base ∈ p.stack,
      (q.leave file p.entered.length inLow).number base = p.number base := fun base before =>
    number_eq (entered ▸ kept) (sound.stack_subset before)
  have le_low : low' ≤ low := Nat.le_trans later.le (Nat.min_le_left _ _)
  have le_inLow : low' ≤ inLow := Nat.le_trans later.le (Nat.min_le_right _ _)
  refine ⟨?_, List.IsPrefix.trans stack later.stack,
    List.IsPrefix.trans components later.components, ?_, le_low, ?_, ?_, ?_⟩
  · exact List.IsPrefix.trans (entered ▸ kept) later.entered
  · intro other ho inside
    rcases List.mem_cons.1 ho with rfl | ho
    · refine later.entered.subset (entered ▸ inner.entered.subset ?_)
      exact List.mem_append_right _ List.mem_cons_self
    · exact later.visited other ho inside
  · -- the low link was found by the rest, or by this file's imports, or came in
    rcases later.found with same | ⟨start, hs, base, hb, same, reach⟩
    · by_cases own : inLow = p.entered.length
      · exact .inl (by omega)
      · obtain ⟨base, hb, found, reach⟩ := inner.exists_found sound fresh own
        rcases Nat.le_total low inLow with first | first
        · exact .inl (by omega)
        · exact .inr ⟨file, List.mem_cons_self, base, hb, by omega, reach⟩
    · by_cases before : base ∈ p.stack
      · rw [number base before] at same
        exact .inr ⟨start, List.mem_cons_of_mem _ hs, base, before, same, reach⟩
      · -- the number of a new file does not lower the low link
        have greater := sound.length_le_number sound' (entered ▸ kept) components hb before
        exact .inl (by omega)
  · intro other ho mem
    rcases List.mem_cons.1 ho with rfl | ho
    · exact absurd (sound.stack_subset mem) fresh
    · rw [← number other mem]
      exact later.le_visited other ho (stack.subset mem)
  · intro other mem new base before step
    -- a file left by this visit is held by its low link, a later one by that of the rest
    by_cases left : other ∈ (q.leave file p.entered.length inLow).stack
    · have left' : other ∈ q.stack := by
        rcases inner.stack_leave sound fresh with ⟨_, same⟩ | ⟨_, same⟩
        · exact absurd (same ▸ left) new
        · rwa [same] at left
      exact Nat.le_trans le_inLow (inner.le_number_of_imports sound left' new before step)
    · rw [← number base before]
      exact later.le_imported other mem left base (stack.subset before) step

end Fresh

/-- The low link with which further files are visited is no greater than the next number. -/
lemma le_length_leave
    (inner : g.Visits (g.importsOf file) p.entered.length (p.enter file) inLow q)
    (le : low ≤ p.entered.length) :
    min low inLow ≤ (q.leave file p.entered.length inLow).entered.length := by
  have grows := (p.entered_prefix_enter file).length_le
  have kept := inner.entered.length_le
  rw [Pass.entered_leave]
  omega

end Visits

/-- The files under way, with the one that is visited, lead to its imports. -/
lemma reaches_imports (leads : ∀ base ∈ path, g.Reaches base file) :
    ∀ base ∈ file :: path, ∀ next ∈ g.importsOf file, Keyed.has g next = true →
      g.Reaches base next := by
  intro base hb next step _
  rcases List.mem_cons.1 hb with rfl | hb
  · exact .single step
  · exact (leads base hb).tail step

/-- **A pass stays sound through every visit**, if the files under way lead to those that are
visited.  The two parts are proved together: that the file is left soundly needs the low link of its
imports, and that the low link of the rest means something needs the invariant before it. -/
theorem visit_sound (g : ImportGraph) (files : List String) (low : Nat) (p : Pass)
    {path : List String} (sound : p.Sound g path)
    (leads : ∀ base ∈ path, ∀ file ∈ files, Keyed.has g file = true → g.Reaches base file)
    (le : low ≤ p.entered.length) :
    (g.visit files low p).pass.Sound g path ∧
      g.Visits files low p (g.visit files low p).low (g.visit files low p).pass := by
  -- the induction is that of the pass: nothing to visit, a file to enter, a file to pass over; the
  -- path grows at each entry, so it is generalised
  induction files, low, p using visit.induct g generalizing path with
  | case1 low p =>
    rw [visit]
    exact ⟨sound, .nil⟩
  | case2 file rest low p h own inner ih _ ih' =>
    have fresh : file ∉ p.entered := by simpa using h.2
    have leads_file := fun base hb => leads base hb file List.mem_cons_self h.1
    have leads_imports := reaches_imports leads_file
    have grows := (p.entered_prefix_enter file).length_le
    obtain ⟨sound', visits⟩ := ih (sound.enter h.1 fresh leads_file) leads_imports grows
    -- the imports are visited under a longer path, and leaving the file takes it off again
    have left := visits.sound_leave sound fresh sound' leads_file
    obtain ⟨sound'', later⟩ := ih' left
      (fun base hb other ho => leads base hb other (List.mem_cons_of_mem _ ho))
      (visits.le_length_leave le)
    rw [visit, dif_pos h]
    exact ⟨sound'', visits.cons sound fresh left le later⟩
  | case3 file rest low p h ih =>
    -- nothing is entered, so only the low link has changed
    obtain ⟨sound', later⟩ := ih sound
      (fun base hb other ho => leads base hb other (List.mem_cons_of_mem _ ho))
      (Nat.le_trans (p.lowered_le low file) le)
    rw [visit, dif_neg h]
    exact ⟨sound', .stale h later⟩

end ImportGraph

end Stencil
