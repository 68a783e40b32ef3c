import Mathlib.Data.List.Induction
import Mathlib.Data.List.Nodup
import Stencil.Proofs.Linking.Components

/-!
# Imported files come first

The pass over the whole graph puts each of its files into one complete component.  Such a component
is a circle exactly if one of its files imports itself, be it through others (`isCircle_iff`).  If
none is, each component is a single file, and since a component comes after all that it reaches, the
files are in order as they stand (`importsFirst_flatten`).

`acyclic_iff_exists_order` and `of_order_eq_sorted` are what a reader of the order needs to know;
only this module and the one on components speak of how the order is found.
-/

namespace Stencil

namespace ImportGraph

variable {g : ImportGraph} {files : List String} {file other : String}

/-! ## Graphs without circles -/

/-- No file imports itself, be it through others. -/
def Acyclic (g : ImportGraph) : Prop :=
  ∀ file, ¬Relation.TransGen g.Imports file file

/-- Each file of a list comes after the files that it imports. -/
def ImportsFirst (g : ImportGraph) (files : List String) : Prop :=
  ∀ before file after, files = before ++ file :: after →
    ∀ other, g.Imports file other → other ∈ before

lemma importsFirst_nil : g.ImportsFirst [] :=
  fun before _ _ h => absurd h.symm (by simp)

lemma ImportsFirst.concat (h : g.ImportsFirst files)
    (imported : ∀ other, g.Imports file other → other ∈ files) :
    g.ImportsFirst (files ++ [file]) :=
  forall_split_concat h imported

/-! ## The components of the whole graph -/

lemma sound_components (g : ImportGraph) :
    (g.visit (Keyed.names g) 0 .start).pass.Sound g [] :=
  (g.visit_sound (Keyed.names g) 0 .start (Pass.sound_start g)
    (fun _ hb => absurd hb List.not_mem_nil) (Nat.le_refl 0)).1

lemma visits_components (g : ImportGraph) :
    g.Visits (Keyed.names g) 0 .start (g.visit (Keyed.names g) 0 .start).low
      (g.visit (Keyed.names g) 0 .start).pass :=
  (g.visit_sound (Keyed.names g) 0 .start (Pass.sound_start g)
    (fun _ hb => absurd hb List.not_mem_nil) (Nat.le_refl 0)).2

/-- At the end nothing is left on the stack. -/
lemma perm_components (g : ImportGraph) :
    List.Perm (g.visit (Keyed.names g) 0 .start).pass.entered g.components.flatten := by
  have sound := g.sound_components
  have empty : (g.visit (Keyed.names g) 0 .start).pass.stack = [] := by
    apply List.eq_nil_iff_forall_not_mem.2
    intro file mem
    obtain ⟨base, hb, _⟩ := sound.returns file mem
    exact absurd hb List.not_mem_nil
  have placed := sound.placed
  rwa [empty, List.append_nil] at placed

lemma nodup_components (g : ImportGraph) : g.components.flatten.Nodup :=
  g.perm_components.nodup_iff.1 g.sound_components.nodup

lemma complete_components (g : ImportGraph) : g.Complete g.components :=
  g.sound_components.complete

/-- Every file of the graph is in a component. -/
lemma mem_components : file ∈ g.components.flatten ↔ Keyed.has g file = true := by
  rw [← g.perm_components.mem_iff]
  constructor
  · exact g.sound_components.inside file
  · exact fun inside => g.visits_components.visited file (Keyed.mem_names_of_has inside) inside

/-- Some files are one strongly connected component of the graph: all files that any of them reaches
and is reached by, each of them once. -/
structure IsComponent (g : ImportGraph) (files : List String) : Prop where
  nonempty : files ≠ []
  nodup : files.Nodup
  inside : ∀ file ∈ files, Keyed.has g file = true
  mem_iff : ∀ file ∈ files, ∀ other, other ∈ files ↔ g.Reaches file other ∧ g.Reaches other file

lemma isComponent_of_mem (h : files ∈ g.components) : g.IsComponent files where
  nonempty := by
    obtain ⟨before, after, split⟩ := List.append_of_mem h
    exact (g.complete_components before files after split).1
  nodup := (List.nodup_flatten.1 g.nodup_components).1 files h
  inside _ mem := mem_components.1 (List.mem_flatten.2 ⟨files, h, mem⟩)
  mem_iff _ mem _ := g.complete_components.mem_iff g.nodup_components h mem

/-! ## Circles -/

lemma transGen_of_reaches (reach : g.Reaches file other) (ne : file ≠ other) :
    Relation.TransGen g.Imports file other :=
  (Relation.reflTransGen_iff_eq_or_transGen.1 reach).resolve_left (Ne.symm ne)

/-- A component is a circle if one of its files imports itself, be it through others. -/
lemma IsComponent.isCircle_iff (h : g.IsComponent files) :
    g.isCircle files = true ↔ ∃ file ∈ files, Relation.TransGen g.Imports file file := by
  -- the test looks at a single file's own imports, and takes several files for a circle unseen
  match files with
  | [] => exact absurd rfl h.nonempty
  | [file] =>
    rw [isCircle, List.contains_iff_mem]
    constructor
    · exact fun step => ⟨file, List.mem_cons_self, .single step⟩
    · rintro ⟨other, mem, circle⟩
      obtain rfl := List.mem_singleton.1 mem
      -- the first step of the circle leads to a file of the component, which is the file itself
      obtain ⟨next, step, back⟩ := Relation.TransGen.head'_iff.1 circle
      have same := (h.mem_iff other mem next).2 ⟨.single step, back⟩
      exact List.mem_singleton.1 same ▸ step
  | a :: b :: rest =>
    have two : b ∈ a :: b :: rest := List.mem_cons_of_mem _ List.mem_cons_self
    obtain ⟨there, back⟩ := (h.mem_iff a List.mem_cons_self b).1 two
    have ne : a ≠ b := by
      rintro rfl
      exact (List.nodup_cons.1 h.nodup).1 List.mem_cons_self
    -- two different files of a component lead to each other, which closes a circle
    have circle := (transGen_of_reaches there ne).trans_left back
    simp only [isCircle, List.length_cons, gt_iff_lt, Nat.lt_add_left_iff_pos, Nat.zero_lt_succ,
      decide_true, true_iff]
    exact ⟨a, List.mem_cons_self, circle⟩

lemma acyclic_iff_components : g.Acyclic ↔ ∀ files ∈ g.components, g.isCircle files = false := by
  constructor
  · intro acyclic files h
    apply Bool.eq_false_iff.2
    intro circle
    obtain ⟨file, _, circle⟩ := (isComponent_of_mem h).isCircle_iff.1 circle
    exact acyclic file circle
  · intro none file circle
    obtain ⟨_, step, _⟩ := Relation.TransGen.head'_iff.1 circle
    obtain ⟨files, h, mem⟩ := List.mem_flatten.1 (mem_components.2 (Imports.inside_left step))
    have circles := (isComponent_of_mem h).isCircle_iff.2 ⟨file, mem, circle⟩
    rw [none files h] at circles
    cases circles

/-- Components that are not circles are files in order. -/
lemma importsFirst_flatten {components : List (List String)} (complete : g.Complete components)
    (none : ∀ files ∈ components, g.isCircle files = false) :
    g.ImportsFirst components.flatten := by
  -- components are added at the end, as the pass does; what a single file imports is in an earlier
  -- one, or it would be its own circle
  induction components using List.reverseRecOn with
  | nil => exact importsFirst_nil
  | append_singleton components files ih =>
    have first := ih complete.of_append fun files h => none files (List.mem_append_left _ h)
    have last := none files (List.mem_append_right _ List.mem_cons_self)
    have closed := (complete components files [] rfl).2.2
    match files with
    | [] => simpa using first
    | [file] =>
      rw [List.flatten_append, List.flatten_singleton]
      refine first.concat fun other step => ?_
      refine (closed file List.mem_cons_self other step).resolve_left fun mem => ?_
      rw [List.mem_singleton.1 mem] at step
      rw [isCircle, List.contains_iff_mem.2 step] at last
      cases last
    | _ :: _ :: _ => simp [isCircle] at last

/-! ## The order -/

lemma order_eq_sorted (none : ∀ files ∈ g.components, g.isCircle files = false) :
    g.order = .sorted g.components.flatten := by
  have find : g.components.find? g.isCircle = Option.none :=
    List.find?_eq_none.2 fun files h => by simp [none files h]
  rw [order, find]

/-- **A graph without circles has an order**, and no other graph has one. -/
theorem acyclic_iff_exists_order : g.Acyclic ↔ ∃ files, g.order = .sorted files := by
  rw [acyclic_iff_components]
  constructor
  · exact fun none => ⟨_, order_eq_sorted none⟩
  · rintro ⟨files, h⟩ files' mem
    unfold order at h
    split at h
    · cases h
    · next find => simpa using List.find?_eq_none.1 find files' mem

/-- **The order names each file of the graph once and its imports before it.** -/
theorem of_order_eq_sorted (h : g.order = .sorted files) :
    files.Nodup ∧ (∀ file, file ∈ files ↔ Keyed.has g file = true) ∧ g.ImportsFirst files := by
  have none := acyclic_iff_components.1 (acyclic_iff_exists_order.2 ⟨files, h⟩)
  rw [order_eq_sorted none, FileOrder.sorted.injEq] at h
  subst h
  exact ⟨g.nodup_components, fun _ => mem_components,
    importsFirst_flatten g.complete_components none⟩

/-- What is named instead of an order is a component that is a circle. -/
lemma of_order_eq_circle (h : g.order = .circle files) :
    g.IsComponent files ∧ (2 ≤ files.length ∨ ∃ file ∈ files, g.Imports file file) := by
  unfold order at h
  split at h
  · next find =>
    obtain rfl := FileOrder.circle.inj h
    refine ⟨isComponent_of_mem (List.mem_of_find?_eq_some find), ?_⟩
    have circle := List.find?_some find
    unfold isCircle at circle
    split at circle
    · next file => exact .inr ⟨file, List.mem_cons_self, List.contains_iff_mem.1 circle⟩
    · exact .inl (of_decide_eq_true circle)
  · cases h

/-- A file comes after the one file that it imports. -/
lemma order_pair {file imported : String} (apart : file ≠ imported) :
    order [(file, [imported]), (imported, [])] = .sorted [imported, file] := by
  have other : (imported == file) = false := beq_false_of_ne apart.symm
  simp [order, components, visit, importsOf, Keyed.has, Keyed.names, Keyed.get?, List.lookup_cons,
    other, apart, apart.symm, Pass.start, Pass.enter, Pass.leave, Pass.lowered, isCircle]

/-- **One pass finds an order or a circle.**  Every graph without circles is given an order, which
names each of its files once and its imports before it; every other graph is given one of its
strongly connected components, each file once, that holds two files or a file that imports
itself. -/
theorem order_correct (g : ImportGraph) :
    ((∃ files, g.order = .sorted files) ↔ g.Acyclic) ∧
      (∀ files, g.order = .sorted files →
        files.Nodup ∧ (∀ file, file ∈ files ↔ Keyed.has g file = true) ∧ g.ImportsFirst files) ∧
      ∀ files, g.order = .circle files →
        g.IsComponent files ∧ (2 ≤ files.length ∨ ∃ file ∈ files, g.Imports file file) :=
  ⟨acyclic_iff_exists_order.symm, fun _ => of_order_eq_sorted, fun _ => of_order_eq_circle⟩

end ImportGraph

end Stencil
