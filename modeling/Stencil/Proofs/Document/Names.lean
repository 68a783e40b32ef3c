import Stencil.Proofs.Document.Budget
import Stencil.Proofs.Document.Declarations
import Stencil.Proofs.Expansion.Names

/-!
# What is left of templates in a result

A document that expands to a node has had its markers and its calls replaced.  The node can bear
the name of a template nevertheless: a bound string renames the node that bears its name, and a
renamed node is called only if the template is visible there.  This is the only way
(`mem_strings_of_mem_names`), and it is open (`late_name_is_left`).
-/

namespace Stencil

variable {policy : CollisionPolicy} {declarations : List Node} {outer : Scope} {word : String}

/-- A scope of declarations bars a name that they own and do not write as a string, if what is
around them does. -/
lemma bars_collect (clean : (collect policy declarations outer).2.hasErrors = false)
    (around : ∀ b, outer.Reaches b → b.Bars word)
    (owned : word = expandWord ∨ word ∈ declarations.map fun d => d.name.inner)
    (unwritten : word ∉ Node.stringsAll declarations) :
    (collect policy declarations outer).1.Bars word := by
  refine collect_induction (P := fun s => s.Bars word) clean ?_ ?_
  · refine ⟨owned.imp_right fun mem => ?_, fun b reached => ?_⟩
    · rwa [Scope.declares_enterDocument, List.contains_iff_mem]
    · exact around b (Scope.reaches_enterDocument reached)
  · intro s decl mem t bars read _
    have declares := Template.declares_of_ofDeclaration read
    refine bars.extend (fun pair hp => ?_) .declaration
    obtain rfl := List.mem_singleton.1 hp
    refine bars_captured rfl (fun written => unwritten ?_) (congrArg some declares.home) bars
    exact Node.strings_subset_stringsAll mem (declares.strings written)

namespace Document

variable {c : Config} {d : Document} {v : Node} {info : RunInfo}

lemma content_subset_nodes (d : Document) : d.content ⊆ d.nodes := by
  rw [d.nodes_eq]
  exact List.subset_append_right _ _

/-- The result of a document does not bear a name that the document owns and does not write as a
string, if what is around the document bars it. -/
lemma not_mem_names_of_done (done : (d.expand c outer).outcome = .done v info)
    (around : ∀ b, outer.Reaches b → b.Bars word)
    (owned : word = expandWord ∨ word ∈ d.declarations.map fun d => d.name.inner)
    (unwritten : word ∉ Node.stringsAll d.nodes) : word ∉ v.names := by
  obtain ⟨body, last, _, _, collected, clean, nodes, _⟩ := expand_done_iff.1 done
  have of_content : ∀ nodes : List Node, nodes ⊆ d.content → word ∉ Node.stringsAll nodes :=
    fun _ inside written => unwritten
      (Node.stringsAll_mono (List.Subset.trans inside d.content_subset_nodes) written)
  have bars := bars_collect collected around owned (of_content _ (List.dropLast_subset _))
  have body_unwritten : word ∉ body.strings := by
    have inside : [body] ⊆ d.content := List.cons_subset.2
      ⟨List.mem_of_getLast? last, List.nil_subset _⟩
    simpa using of_content [body] inside
  obtain ⟨_, derivation⟩ := d.exists_expands_body c 0 outer body
  have absent := derivation.not_mem_names bars body_unwritten clean
  simpa [nodes] using absent

/-- **What is left of templates was a string.**  If a document expands to a node under the empty
scope, a name in the result that is the marker's or that of a template of the document is one of
the strings that the document writes as values. -/
theorem mem_strings_of_mem_names (done : (d.expand c .root).outcome = .done v info)
    (mem : word ∈ v.names)
    (owned : word = expandWord ∨ word ∈ d.declarations.map fun d => d.name.inner) :
    word ∈ Node.stringsAll d.nodes := by
  by_contra unwritten
  exact not_mem_names_of_done done (fun _ reached => absurd reached Scope.not_reaches_root) owned
    unwritten mem

/-- A document that calls a template with the name of a later one for its value: `late` is
declared after `echo`, whose body is renamed to its argument. -/
def lateName : Document where
  nodes := [⟨⟨"echo", .none⟩, [⟨none, ⟨.string "name", .none⟩, .none⟩], [.bare "name" []], .none⟩,
    .bare "late" [.bare "rect" []], .naming "echo" "late"]
  span := .none

/-- The document with the name of a later template expands to a node of that name. -/
lemma late_mem_names : ∃ v info, (lateName.expand .default .root).outcome = .done v info ∧
    "late" ∈ v.names := by
  have left : ((lateName.expand .default .root).outcome.map fun v =>
      decide ("late" ∈ v.names)).getD false = true := by
    decide +kernel
  rcases h : (lateName.expand .default .root).outcome with ⟨v, info⟩ | _
  · rw [h] at left
    exact ⟨v, info, rfl, of_decide_eq_true left⟩
  · rw [h] at left
    cases left

/-- The name that is left of the later template was the argument of the call. -/
theorem late_name_was_a_string : ∃ v info,
    (lateName.expand .default .root).outcome = .done v info ∧ "late" ∈ v.names ∧
      "late" ∈ Node.stringsAll lateName.nodes := by
  obtain ⟨v, info, done, mem⟩ := late_mem_names
  exact ⟨v, info, done, mem, mem_strings_of_mem_names done mem (.inr (by decide))⟩

/-- Results without an error are not free of the names of the document's templates. -/
theorem late_name_is_left : ¬∀ (d : Document) (c : Config) (v : Node) (info : RunInfo),
    d.importDirective? = none → (d.expand c .root).outcome = .done v info →
      expandWord ∉ v.names ∧ ∀ decl ∈ d.declarations, decl.name.inner ∉ v.names := by
  intro free
  obtain ⟨v, info, done, mem⟩ := late_mem_names
  obtain ⟨_, names⟩ := free lateName .default v info rfl done
  have declared : Node.bare "late" [.bare "rect" []] ∈ lateName.declarations :=
    List.mem_cons_of_mem _ List.mem_cons_self
  exact names _ declared mem

end Document

end Stencil
