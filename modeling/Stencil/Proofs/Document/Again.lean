import Stencil.Proofs.Document.Names
import Stencil.Proofs.Linking.Link
import Stencil.Proofs.Scope.Outer

/-!
# Expanding a result again

Under the empty scope every name but the marker's is unbound and unreported, and every value reads
as itself: a tree without the marker expands to itself (`expandNode_root`).  The result of a
document is such a tree as long as no string on the way is the marker's name, so expanding it again
changes nothing (`expand_again`).
-/

namespace Stencil

/-! ## Trees without markers -/

lemma valueOf_root (v : Spanned Scalar) : Scope.root.valueOf v = (v, []) := by
  unfold Scope.valueOf
  split <;> rfl

lemma entriesOf_root (entries : List Entry) : Scope.root.entriesOf entries = (entries, []) := by
  have entry : Scope.root.entryOf = fun e => (e, []) := by
    funext e
    rw [Scope.entryOf, valueOf_root]
  simp [Scope.entriesOf, entry, Function.comp_def]

lemma reading_root {n : Node} (ordinary : n.name.inner ≠ expandWord) :
    Scope.root.reading n = (.plain n, []) := by
  have silent : Scope.root.unboundName n.name = [] := by
    unfold Scope.unboundName Scope.lacksImport
    cases QualifiedName.ofString? n.name.inner <;> rfl
  rw [Scope.reading_of_unbound ordinary rfl, silent]

mutual

/-- **A tree without markers expands to itself** under the empty scope, with nothing to report. -/
theorem expandNode_root (c : Config) (used : Nat) (depth : Depth) :
    (n : Node) → expandWord ∉ n.names →
      expandNode c used depth .root n = ⟨[n], .empty⟩
  | ⟨name, entries, children, span⟩, h => by
    rw [Node.names, List.mem_cons, not_or] at h
    have inner := expandNodes_root c used depth children h.2
    rw [expandNode_of_plain (reading_root (Ne.symm h.1)), entriesOf_root, inner]
    rfl

lemma expandNodes_root (c : Config) (used : Nat) (depth : Depth) :
    (nodes : List Node) → expandWord ∉ Node.namesAll nodes →
      expandNodes c used depth .root nodes = ⟨nodes, .empty⟩
  | [], _ => expandNodes_nil
  | n :: rest, h => by
    rw [Node.namesAll_cons, List.mem_append, not_or] at h
    rw [expandNodes_cons, expandNode_root c used depth n h.1, expandNodes_root c _ depth rest h.2]
    rfl

end

/-! ## Results -/

namespace Document

variable {c : Config} {d : Document} {outer : Scope} {v : Node} {info : RunInfo}

/-- **Expansion is idempotent on its results.**  A document that expands to a node on an outer scope
has a result that expands to itself under the empty scope, by any configuration, without a call or
a report, if the document and what the outer scope comes to do not write the marker's name as a
string. -/
theorem expand_again (reads : outer.IsOuter)
    (around : ∀ b, outer.Reaches b → expandWord ∉ b.strings)
    (unwritten : expandWord ∉ Node.stringsAll d.nodes)
    (done : (d.expand c outer).outcome = .done v info) (c' : Config) (used : Nat)
    (depth : Depth) : expandNode c' used depth .root v = ⟨[v], .empty⟩ := by
  refine expandNode_root c' used depth v (not_mem_names_of_done done ?_ (.inl rfl) unwritten)
  intro b reached
  exact ⟨reads.wellFormed reached, around b reached, fun _ _ => .inl rfl⟩

end Document

/-- The template that the file of shapes exports. -/
def Template.box : Template where
  name := "box"
  tparameters := []
  body := .bare "rect" []
  home := Scope.root.enterDocument ["box"]
  style := .none
  span := .none

/-- The empty scope with the shapes composed on it. -/
def Scope.shapes : Scope :=
  Scope.root.extend (ExportTable.bindings [("box", .box)] "shapes") .imports

lemma Scope.isOuter_shapes : Scope.shapes.IsOuter := by
  have exports : SourceFile.shapes.document.exportsOn .default .root = (some [("box", .box)],
      (SourceFile.shapes.document.exportsOn .default .root).2) := rfl
  obtain ⟨_, exported⟩ := done_collectExports exports rfl
  have composed : (Scope.root.compose .default [("box", .box)] "shapes").outcome =
      .done .shapes _ :=
    compose_done_iff.2 ⟨rfl, rfl, rfl⟩
  exact .compose .root (.collected .root exported) composed

lemma Scope.not_mem_strings_shapes {b : Binding} (reached : Scope.shapes.Reaches b) :
    expandWord ∉ b.strings := by
  rcases reaches_extend reached with reached | ⟨pair, hp, same⟩
  · exact absurd reached not_reaches_root
  · obtain rfl := List.mem_singleton.1 hp
    rcases same with rfl | ⟨inner, captured, further⟩
    · decide
    · obtain rfl := Option.some.inj captured
      exact absurd (reaches_enterDocument further) not_reaches_root

/-- A page with an imported box expands to a node that expands to itself. -/
theorem page_again : ∃ v info,
    (SourceFile.page.document.expand .default .shapes).outcome = .done v info ∧
      expandNode .default 0 .top .root v = ⟨[v], .empty⟩ := by
  have isDone : (SourceFile.page.document.expand .default .shapes).outcome.isDone = true := by
    decide +kernel
  rcases h : (SourceFile.page.document.expand .default .shapes).outcome with ⟨v, info⟩ | _
  · have again := Document.expand_again Scope.isOuter_shapes
      (fun _ reached => Scope.not_mem_strings_shapes reached) (by decide) h .default 0 .top
    exact ⟨v, info, rfl, again⟩
  · rw [h] at isDone
    cases isDone

end Stencil
