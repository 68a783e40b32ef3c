import Mathlib.Data.List.Basic
import Stencil.Proofs.Keyed
import Stencil.Proofs.Linking.Order

/-!
# The order is the postorder

`ImportGraph.traverse` is the plain depth-first traversal: visiting a file visits its imports that
have not been visited and then emits the file.  It has no numbers, no stack and no low links, and
says nothing about circles.

Without circles the pass for components does no more.  A smaller low link would lead a file back to
itself (`Visits.low_eq_own`), so every file is a component of its own, and is completed as soon as
its imports have been visited.  The stack is then as it was before the visit, and the components
that were added are the files that the traversal emits, one by one (`visit_emits`).
-/

namespace Stencil

namespace ImportGraph

/-! ## The plain traversal -/

/-- The end of visits that began with some files unvisited.  That there are no more of them at the
end is a field, since the traversal goes on with what a visit has left and has to come to an end. -/
structure Traversal (before : List String) where
  emitted : List String
  unvisited : List String
  fewer : unvisited.length ≤ before.length

theorem length_filter_ne_lt {files : List String} {file : String} (h : file ∈ files) :
    (files.filter (· != file)).length < files.length :=
  List.length_filter_lt_length_iff_exists.2 ⟨file, h, by simp⟩

/-- Visits of some files, one after another.  The visit of an unvisited file visits its imports and
then emits the file; other files are passed over. -/
def traverse (g : ImportGraph) : List String → (unvisited : List String) → Traversal unvisited
  | [], unvisited => ⟨[], unvisited, Nat.le_refl _⟩
  | file :: rest, unvisited =>
    if h : file ∈ unvisited then
      let imports := g.traverse (g.importsOf file) (unvisited.filter (· != file))
      let later := g.traverse rest imports.unvisited
      ⟨imports.emitted ++ file :: later.emitted, later.unvisited,
        Nat.le_trans later.fewer
          (Nat.le_trans imports.fewer (Nat.le_of_lt (length_filter_ne_lt h)))⟩
    else g.traverse rest unvisited
termination_by files unvisited => (unvisited.length, files.length)
decreasing_by
  · exact Prod.Lex.left _ _ (length_filter_ne_lt h)
  · exact Prod.Lex.left _ _ (Nat.lt_of_le_of_lt imports.fewer (length_filter_ne_lt h))
  · exact Prod.Lex.right _ (Nat.lt_succ_self _)

/-- The files of a graph in the order in which the traversal emits them. -/
def postorder (g : ImportGraph) : List String :=
  (g.traverse (Keyed.names g) (Keyed.names g)).emitted

/-! ## Without circles -/

variable {g : ImportGraph} {files path : List String} {file : String} {inLow : Nat} {p q : Pass}

/-- A file that is on no circle has its own number for a low link. -/
lemma Visits.low_eq_own (acyclic : g.Acyclic) (sound : p.Sound g path) (fresh : file ∉ p.entered)
    (inner : g.Visits (g.importsOf file) p.entered.length (p.enter file) inLow q)
    (leads : ∀ base ∈ path, g.Reaches base file) : inLow = p.entered.length := by
  by_contra smaller
  obtain ⟨base, hb, _, there⟩ := inner.exists_found sound fresh smaller
  obtain ⟨root, hr, _, back⟩ := sound.returns base hb
  have ne : file ≠ base := by
    rintro rfl
    exact fresh (sound.stack_subset hb)
  exact acyclic file ((transGen_of_reaches there ne).trans_left (back.trans (leads root hr)))

lemma unentered_enter (g : ImportGraph) (p : Pass) (file : String) :
    g.unentered (p.enter file) = (g.unentered p).filter (· != file) := by
  rw [unentered, unentered, List.filter_filter]
  apply List.filter_congr
  intro other _
  have last : [file].contains other = (other == file) := by
    rw [List.contains_cons, List.contains_nil, Bool.or_false]
  rw [Pass.enter, List.contains_append, last, Bool.not_or, Bool.and_comm]
  rfl

lemma unentered_leave (g : ImportGraph) (p : Pass) (file : String) (own low : Nat) :
    g.unentered (p.leave file own low) = g.unentered p := by
  rw [unentered, Pass.entered_leave, unentered]

lemma unentered_start (g : ImportGraph) : g.unentered .start = Keyed.names g :=
  List.filter_eq_self.2 fun _ _ => rfl

lemma mem_unentered : file ∈ g.unentered p ↔
    Keyed.has g file = true ∧ p.entered.contains file = false := by
  rw [unentered, List.mem_filter, ← Keyed.has_iff_mem_names, Bool.not_eq_true']

/-- What a pass completes is what a traversal emits, and both leave the same files to visit.  The
entered files and the low link of the pass have no counterpart. -/
structure Emits (g : ImportGraph) (p q : Pass) {unvisited : List String}
    (t : Traversal unvisited) : Prop where
  stack : q.stack = p.stack
  components : q.components = p.components ++ t.emitted.map fun file => [file]
  unvisited : g.unentered q = t.unvisited

/-- The file is completed alone, after the files that the visits of its imports complete. -/
lemma Emits.leave {unvisited : List String} {t : Traversal unvisited}
    (inner : g.Emits (p.enter file) q t) (fresh : file ∉ p.stack) :
    q.leave file p.entered.length p.entered.length =
      ⟨q.entered, p.stack, p.components ++ (t.emitted ++ [file]).map fun file => [file]⟩ := by
  have apart : ∀ other ∈ p.stack, (other != file) = true := by
    intro other ho
    rw [bne_iff_ne]
    rintro rfl
    exact fresh ho
  rw [Pass.leave, if_pos rfl, inner.stack, inner.components, Pass.enter,
    List.takeWhile_append_of_pos apart, List.dropWhile_append_of_pos apart]
  simp

/-- **Without circles the pass is the plain traversal.**  The pass is taken up anywhere, under any
path of files under way, as long as it is sound there. -/
theorem visit_emits (acyclic : g.Acyclic) (files : List String) (low : Nat) (p : Pass)
    {path unvisited : List String} (sound : p.Sound g path)
    (leads : ∀ base ∈ path, ∀ file ∈ files, Keyed.has g file = true → g.Reaches base file)
    (le : low ≤ p.entered.length) (same : g.unentered p = unvisited) :
    g.Emits p (g.visit files low p).pass (g.traverse files unvisited) := by
  -- the traversal decides by what is unvisited where the pass looks among the entered files; the
  -- two lists are complements of each other throughout
  fun_induction visit g files low p generalizing path unvisited with
  | case1 low p =>
    rw [traverse]
    exact ⟨rfl, by simp, same⟩
  | case2 file rest low p h own inner later ih _ =>
    rename_i ih' _
    have fresh : file ∉ p.entered := by simpa using h.2
    have leads_file := fun base hb => leads base hb file List.mem_cons_self h.1
    have leads_imports := reaches_imports leads_file
    have grows : own ≤ (p.enter file).entered.length := (p.entered_prefix_enter file).length_le
    have entering := sound.enter h.1 fresh leads_file
    obtain ⟨sound', visits⟩ := g.visit_sound _ own _ entering leads_imports grows
    have emits := ih entering leads_imports grows (by rw [unentered_enter, same])
    -- the file leads back to none before it, and so is completed here
    have own_low : inner.low = own := visits.low_eq_own acyclic sound fresh leads_file
    have completed := emits.leave fun ho => fresh (sound.stack_subset ho)
    have left := visits.sound_leave sound fresh sound' leads_file
    have further := ih' left
      (fun base hb other ho => leads base hb other (List.mem_cons_of_mem _ ho))
      (visits.le_length_leave le) ((g.unentered_leave _ _ _ _).trans emits.unvisited)
    have member : file ∈ unvisited := same ▸ mem_unentered.2 h
    rw [traverse, dif_pos member]
    refine ⟨further.stack.trans ?_, further.components.trans ?_, further.unvisited⟩
    · rw [own_low, completed]
    · rw [own_low, completed]
      simp
  | case3 file rest low p h ih =>
    have passed : file ∉ unvisited := fun mem => h (mem_unentered.1 (same ▸ mem))
    rw [traverse, dif_neg passed]
    exact ih sound (fun base hb other ho => leads base hb other (List.mem_cons_of_mem _ ho))
      (Nat.le_trans (p.lowered_le low file) le) same

/-- **The order is the plain depth-first postorder.**  A graph is given an order exactly if it has
no circles, and then this one. -/
theorem order_eq_sorted_iff :
    g.order = .sorted files ↔ g.Acyclic ∧ files = g.postorder := by
  have emitted : g.Acyclic → g.components.flatten = g.postorder := by
    intro acyclic
    have emits := visit_emits acyclic (Keyed.names g) 0 .start (Pass.sound_start g)
      (fun _ hb => absurd hb List.not_mem_nil) (Nat.le_refl 0) (unentered_start g)
    rw [components, emits.components, postorder, Pass.start, List.nil_append, ← List.flatMap_def,
      List.flatMap_singleton']
  constructor
  · intro h
    have acyclic := acyclic_iff_exists_order.2 ⟨files, h⟩
    rw [order_eq_sorted (acyclic_iff_components.1 acyclic), FileOrder.sorted.injEq] at h
    exact ⟨acyclic, h.symm.trans (emitted acyclic)⟩
  · rintro ⟨acyclic, rfl⟩
    rw [order_eq_sorted (acyclic_iff_components.1 acyclic), emitted acyclic]

/-- A file that several import is emitted before the first of them, and files outside the graph are
passed over. -/
example :
    postorder [("a", ["b", "c"]), ("b", ["d"]), ("c", ["d", "z"]), ("d", []), ("e", ["b"])] =
      ["d", "b", "c", "a", "e"] := by
  cbv

end ImportGraph

end Stencil
