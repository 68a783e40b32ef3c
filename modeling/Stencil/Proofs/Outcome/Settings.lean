import Stencil.Proofs.Linking.Link

/-!
# What a run owes to its settings

Of the settings, a run reads the two limits and the policy on collisions; the trace and the level of
the console only settle what is logged and shown.  And the policy is read only where something
collides, which is then reported.

So under settings with the same limits, each stage of an operation ends with the same value, and
with a journal that agrees (`Stage.Agrees`), if the policies are the same or no collision is
reported (`Journal.Unaffected`).  The stages are taken in the order in which they are built on each
other, up to the linking of files (`agrees_linkOn`).

A stage is compared by its value and its journal together, because later stages read both: the
expansion goes by the scope that was collected, and the linker goes by what has failed.
-/

namespace Stencil

open Journal

/-- Settings under which the same calls are allowed. -/
structure Config.SameLimits (c c' : Config) : Prop where
  maxDepth : c.maxDepth = c'.maxDepth
  maxCalls : c.maxCalls = c'.maxCalls

lemma Config.SameLimits.exceededLimit?_eq {c c' : Config} (same : c.SameLimits c') (depth : Depth)
    (used : Nat) : c.exceededLimit? depth used = c'.exceededLimit? depth used := by
  unfold Config.exceededLimit?
  rw [same.maxDepth, same.maxCalls]

/-- Ends of a stage with the same value, and with journals that agree. -/
structure Stage.Agrees {α : Type} (a b : α × Journal) : Prop where
  value : a.1 = b.1
  journal : a.2.Agrees b.2

lemma Stage.Agrees.of_eq {α : Type} {a b : α × Journal} (h : a = b) : Stage.Agrees a b := by
  subst h
  exact ⟨rfl, .refl _⟩

/-! ## Collisions -/

namespace Journal

variable {p p' : CollisionPolicy} {a b : Journal}

/-- A journal in which two policies make no difference: they are the same, or nothing collides. -/
def Unaffected (p p' : CollisionPolicy) (j : Journal) : Prop :=
  p = p' ∨ ∀ d ∈ j.diagnostics, d.kind ≠ .importCollision

@[simp] lemma unaffected_append :
    (a ++ b).Unaffected p p' ↔ a.Unaffected p p' ∧ b.Unaffected p p' := by
  simp only [Unaffected, diagnostics_append, List.forall_mem_append, or_and_left]

lemma collision_eq {name : String} {span : Span} {previous : String}
    (h : (collision p name span previous).Unaffected p p') :
    collision p name span previous = collision p' name span previous := by
  rcases h with rfl | none
  · rfl
  · have reported : ∃ d, d ∈ (collision p name span previous).diagnostics := by
      cases p <;> exact ⟨_, List.mem_singleton_self _⟩
    obtain ⟨d, hd⟩ := reported
    exact absurd (kind_of_mem_collision hd) (none d hd)

end Journal

variable {p p' : CollisionPolicy} {c c' : Config} {d : Document} {outer : Scope} {used : Nat}

/-! ## Declarations -/

namespace Collection

lemma collision_eq {scope : Scope} {name : Spanned String}
    (h : (collision p scope name).Unaffected p p') :
    collision p scope name = collision p' scope name := by
  unfold collision at h ⊢
  split at h
  · exact Journal.collision_eq h
  · rfl

lemma add_eq {k : Collection} {decl : Node} (h : (k.add p decl).journal.Unaffected p p') :
    k.journal.Unaffected p p' ∧ k.add p decl = k.add p' decl := by
  unfold add at h ⊢
  dsimp only at h ⊢
  split at h
  all_goals
    simp only [unaffected_append] at h
    rw [collision_eq h.1.2]
    exact ⟨h.1.1, rfl⟩

lemma ofDeclarations_eq {declarations : List Node}
    (h : (ofDeclarations p declarations outer).journal.Unaffected p p') :
    ofDeclarations p declarations outer = ofDeclarations p' declarations outer := by
  have along : ∀ (declarations : List Node) (k : Collection),
      (declarations.foldl (add p) k).journal.Unaffected p p' →
        declarations.foldl (add p) k = declarations.foldl (add p') k := by
    intro declarations k
    induction declarations using List.reverseRecOn with
    | nil => exact fun _ => rfl
    | append_singleton declarations decl ih =>
      rw [List.foldl_concat, List.foldl_concat]
      intro h
      obtain ⟨before, same⟩ := add_eq h
      rw [same, ih before]
  exact along declarations _ h

end Collection

lemma collect_eq {declarations : List Node}
    (h : (collect p declarations outer).2.Unaffected p p') :
    collect p declarations outer = collect p' declarations outer := by
  rw [collect, unaffected_append] at h
  rw [collect, Collection.ofDeclarations_eq h.1, collect]

/-! ## Documents -/

namespace Document

lemma exportsOn_eq (h : (d.exportsOn c outer).2.Unaffected c.collisions c'.collisions) :
    d.exportsOn c outer = d.exportsOn c' outer := by
  unfold exportsOn at h ⊢
  split
  · rfl
  · next terminal found =>
    simp only [found] at h
    split
    · next list =>
      rw [if_pos list, unaffected_append] at h
      rw [collect_eq h.1]
    · next list =>
      rw [if_neg list] at h
      rw [collect_eq h]

/-- The number of nodes that a body expands to is reported alike. -/
lemma agrees_soleNode {e e' : Expansion} (h : e.Agrees e') (body : Node) :
    Stage.Agrees (soleNode body e) (soleNode body e') := by
  unfold soleNode
  rw [← h.nodes]
  split
  · exact ⟨rfl, h.journal⟩
  · rw [← h.journal.hasErrors_eq]
    split
    · exact ⟨rfl, h.journal⟩
    · exact ⟨rfl, h.journal.append (.refl _)⟩

end Document

lemma agrees_expandNode (limits : c.SameLimits c') (used : Nat) (depth : Depth) (s : Scope)
    (n : Node) : (expandNode c used depth s n).Agrees (expandNode c' used depth s n) := by
  obtain ⟨_, run⟩ := exists_expands c used depth s (.node n)
  refine (agrees_or_parts run c' used).resolve_right ?_
  rintro ⟨_, _, _, _, _, differ⟩
  exact differ (limits.exceededLimit?_eq _ _)

namespace Document

lemma agrees_expandOn (limits : c.SameLimits c')
    (h : (d.expandOn c used outer).2.Unaffected c.collisions c'.collisions) :
    Stage.Agrees (d.expandOn c used outer) (d.expandOn c' used outer) := by
  rcases d.exists_body_or_report with ⟨body, terminal, list⟩ | ⟨_, report⟩
  · rw [expandOn_of_body terminal list, unaffected_append] at h
    rw [expandOn_of_body terminal list, expandOn_of_body terminal list]
    have collected := collect_eq h.1
    -- the scopes are equal and not only alike, so the limits are all that the expansion could
    -- differ in
    have expanded : (d.bodyExpansion c used outer body).Agrees
        (d.bodyExpansion c' used outer body) := by
      rw [bodyExpansion, bodyExpansion, collected]
      exact agrees_expandNode limits used .top _ body
    have sole := agrees_soleNode expanded body
    rw [collected]
    exact ⟨sole.value, (Journal.Agrees.refl _).append sole.journal⟩
  · rw [report, report]
    exact ⟨rfl, .refl _⟩

/-- A document expands alike under settings with the same limits, if the policies are the same or
nothing collides. -/
lemma agrees_expansion (limits : c.SameLimits c')
    (h : (d.expandJournal c outer).Unaffected c.collisions c'.collisions) :
    Stage.Agrees ((d.expandOn c 0 outer).1, d.expandJournal c outer)
      ((d.expandOn c' 0 outer).1, d.expandJournal c' outer) := by
  rw [expandJournal, unaffected_append] at h
  have same := agrees_expandOn limits h.2
  exact ⟨same.value, (Journal.Agrees.refl _).append same.journal⟩

lemma agrees_product (limits : c.SameLimits c')
    (h : (d.product c used outer).2.Unaffected c.collisions c'.collisions) :
    Stage.Agrees (d.product c used outer) (d.product c' used outer) := by
  unfold product at h ⊢
  split
  · next list =>
    rw [if_pos list] at h
    rw [exportsOn_eq h]
    exact .of_eq rfl
  · next list =>
    rw [if_neg list] at h
    have same := agrees_expandOn limits h
    exact ⟨by rw [same.value], same.journal⟩

end Document

/-! ## Imports -/

lemma rebinding_eq {name : String} {span : Span} {previous : Option Binding}
    (h : (rebinding p name span previous).Unaffected p p') :
    rebinding p name span previous = rebinding p' name span previous := by
  unfold rebinding at h ⊢
  split at h
  · exact Journal.collision_eq h
  · rfl

lemma composeJournal_eq {s : Scope} {table : ExportTable} {file : String}
    (h : (s.composeJournal c table file).Unaffected c.collisions c'.collisions) :
    s.composeJournal c table file = s.composeJournal c' table file := by
  unfold Scope.composeJournal at h ⊢
  induction table using List.reverseRecOn with
  | nil => rfl
  | append_singleton rest pair ih =>
    rw [List.foldl_concat, unaffected_append] at h
    rw [List.foldl_concat, List.foldl_concat, ih h.1]
    dsimp only
    rw [rebinding_eq h.2]

section Resolving

variable {tables : Keyed ExportTable} {requests : List ImportRequest}

lemma Resolution.add_eq {done : Resolution} {r : ImportRequest}
    (h : (add c tables outer done r).journal.Unaffected c.collisions c'.collisions) :
    done.journal.Unaffected c.collisions c'.collisions ∧
      add c tables outer done r = add c' tables outer done r := by
  unfold add at h ⊢
  split
  · next found =>
    rw [found, unaffected_append] at h
    exact ⟨h.1, rfl⟩
  · next found =>
    rw [found, unaffected_append] at h
    dsimp only
    rw [rebinding_eq h.2]
    exact ⟨h.1, rfl⟩

lemma Resolution.ofRequests_eq
    (h : (ofRequests c tables outer requests).journal.Unaffected c.collisions c'.collisions) :
    ofRequests c tables outer requests = ofRequests c' tables outer requests := by
  induction requests using List.reverseRecOn with
  | nil => rfl
  | append_singleton requests r ih =>
    rw [ofRequests_concat] at h ⊢
    obtain ⟨before, same⟩ := Resolution.add_eq h
    rw [same, ih before, ofRequests_concat]

lemma resolveOn_unaffected
    (h : (resolveOn c requests tables outer).2.Unaffected c.collisions c'.collisions) :
    resolveOn c requests tables outer = resolveOn c' requests tables outer := by
  rw [resolveOn_eq, unaffected_append] at h
  rw [resolveOn_eq, Resolution.ofRequests_eq h.1, resolveOn_eq]

end Resolving

/-! ## Linking -/

/-- Linkages with the same tables and bodies and the same failed files, and with journals that
agree. -/
structure Linkage.Agrees (l l' : Linkage) : Prop where
  linked : l.linked = l'.linked
  failed : l.failed = l'.failed
  journal : l.journal.Agrees l'.journal

section Linking

variable {units : Keyed LinkUnit} {l l' : Linkage} {id : String} {journal : Journal}

namespace Linkage

protected lemma Agrees.refl (l : Linkage) : l.Agrees l :=
  ⟨rfl, rfl, .refl _⟩

/-- What a unit of files adds to linkages that agree. -/
lemma Agrees.own (same : l.Agrees l') (limits : c.SameLimits c') (u : LinkUnit)
    (h : (l.own c units outer u).Unaffected c.collisions c'.collisions) :
    (u.document.product c l.journal.callCount
        (resolveOn c (l.bindable units u) l.linked.exports outer).1).1 =
      (u.document.product c' l'.journal.callCount
        (resolveOn c' (l'.bindable units u) l'.linked.exports outer).1).1 ∧
      (l.own c units outer u).Agrees (l'.own c' units outer u) := by
  -- which requests are bound is decided by what is linked and what has failed, and both agree
  have bindable : l.bindable units u = l'.bindable units u := by
    simp only [Linkage.bindable, disposition, same.linked, same.failed]
  have listless : l.listless units u = l'.listless units u := by
    simp only [Linkage.listless, disposition, same.linked, same.failed]
  unfold Linkage.own at h ⊢
  rw [unaffected_append, unaffected_append] at h
  obtain ⟨⟨_, resolved⟩, read⟩ := h
  have read := Document.agrees_product limits read
  rw [← bindable, ← listless, ← same.linked, ← same.journal.callCount_eq,
    ← resolveOn_unaffected resolved]
  exact ⟨read.value, (Journal.Agrees.refl _).append read.journal⟩

/-- Linkages that agree do so with one more file. -/
lemma Agrees.add (same : l.Agrees l') (limits : c.SameLimits c')
    (h : (add c units outer l id).journal.Unaffected c.collisions c'.collisions) :
    (add c units outer l id).Agrees (add c' units outer l' id) := by
  rcases hu : units.get? id with _ | u
  · simpa only [Linkage.add, hu] using same
  · rw [add_eq hu, unaffected_append] at h
    obtain ⟨product, own⟩ := same.own limits u h.2
    rw [add_eq hu, add_eq hu]
    exact
      { linked := by rw [product, same.linked]
        failed := by rw [own.hasErrors_eq, same.failed]
        journal := same.journal.append own }

lemma unaffected_of_add
    (h : (add c units outer l id).journal.Unaffected c.collisions c'.collisions) :
    l.journal.Unaffected c.collisions c'.collisions := by
  rcases hu : units.get? id with _ | u
  · simpa only [add, hu] using h
  · rw [add_eq hu, unaffected_append] at h
    exact h.1

/-- Files are linked alike one after another. -/
lemma agrees_after (limits : c.SameLimits c') (files : List String)
    (h : (after c units outer journal files).journal.Unaffected c.collisions c'.collisions) :
    (after c units outer journal files).Agrees (after c' units outer journal files) := by
  induction files using List.reverseRecOn with
  | nil => exact Agrees.refl (start journal)
  | append_singleton files id ih =>
    rw [after_concat] at h ⊢
    rw [after_concat]
    exact (ih (unaffected_of_add h)).add limits h

end Linkage

/-- **Files are linked alike under settings with the same limits**, if the policies are the same or
nothing collides. -/
theorem agrees_linkOn (limits : c.SameLimits c') {sources : List SourceFile}
    (h : (linkOn c sources outer).2.Unaffected c.collisions c'.collisions) :
    Stage.Agrees (linkOn c sources outer) (linkOn c' sources outer) := by
  rcases order : (importGraph (linkUnits sources).1).order with files | files
  · rw [linkOn_of_sorted c outer order] at h ⊢
    rw [linkOn_of_sorted c' outer order]
    have same := Linkage.agrees_after limits files h
    exact ⟨congrArg some same.linked, same.journal⟩
  · refine .of_eq ?_
    rw [linkOn, linkOn]
    simp only [order]

end Linking

end Stencil
