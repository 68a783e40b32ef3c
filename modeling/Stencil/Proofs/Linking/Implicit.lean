import Stencil.Proofs.Document.Body
import Stencil.Proofs.Document.Declarations
import Stencil.Proofs.Linking.Directive

/-!
# Exports without a list

A document without an export list declares with all of its nodes and exports each declared name
under itself.  The table is then read off the names, without repeats, while a list is read entry by
entry into a table that is asked for each name whether it is there already.

Either way the same is exported: such a document and the document with the list of its names added
end alike, with the same table in the same order and the same reports
(`implicit_exports_match_listed`).  Names that come again, templates that are malformed and names
that imports have taken make no difference, since both read the same declarations, and each entry of
the list finds its name bound to a template and not yet exported.

The two documents collect the same declarations: without a list every node is one, and with a list
the list is the last node and is not.  So the scope that the names are looked up in is the same, and
only the reading of the names has to be compared (`ofList_of_lists`).
-/

namespace Stencil

/-! ## A list of names -/

/-- An entry is a bare name. -/
structure Entry.IsBareName (e : Entry) (name : String) : Prop where
  bare : e.name = none
  value : e.value.inner = .string name

/-- An export list whose entries are some names, one bare name for each. -/
structure Node.ListsExports (list : Node) (names : List String) : Prop where
  name : list.isExportList = true
  entries : List.Forall₂ Entry.IsBareName list.entries names
  children : list.children = []

namespace ExportTable

variable {s : Scope} {name : String} {names : List String} {table : ExportTable}
variable {template : Option Template} {origin : Origin} {file : Option String} {span : Span}

/-- What the table of names holds of a name that is bound to a template. -/
lemma ofNames_cons (bound : s.lookup name = some (.template template origin file span)) :
    ofNames s (name :: names) = template.toList.map (name, ·) ++ ofNames s names := by
  unfold ofNames
  rcases template with _ | t
  · rw [List.filterMap_cons_none (by rw [bound])]
    rfl
  · rw [List.filterMap_cons_some (by rw [bound])]
    rfl

/-- A bare name that is bound to a template and not yet exported is exported if there is a template,
and not reported. -/
lemma addEntry_of_fresh {e : Entry} (bare : e.IsBareName name)
    (bound : s.lookup name = some (.template template origin file span))
    (fresh : name ∉ Keyed.names table) (problems : List Diagnostic) :
    addEntry s (table, problems) e = (table ++ template.toList.map (name, ·), problems) := by
  have absent : table.has name = false := by
    rwa [Keyed.has_eq_false_iff, Keyed.get?_eq_none_iff]
  unfold addEntry
  simp only [bare.value, bare.bare, Option.map_none, Option.getD_none, bound, absent]
  rcases template with _ | t
  · simp
  · simp [Keyed.put_eq_append absent]

/-- A list of different names that are bound to templates makes the table of these names, and
nothing is reported. -/
lemma foldl_addEntry_of_fresh {entries : List Entry}
    (bare : List.Forall₂ Entry.IsBareName entries names) (nodup : names.Nodup)
    (bound : ∀ name ∈ names, ∃ template span,
      s.lookup name = some (.template template .declared none span))
    (fresh : ∀ name ∈ names, name ∉ Keyed.names table) (problems : List Diagnostic) :
    entries.foldl (addEntry s) (table, problems) = (table ++ ofNames s names, problems) := by
  -- the induction is along the entries; the table grows, so it is generalised, and what has to
  -- stay true is that no name to come is in it
  induction bare generalizing table with
  | nil => simp [ofNames]
  | @cons e name entries names first _ ih =>
    obtain ⟨unrepeated, nodup⟩ := List.nodup_cons.1 nodup
    obtain ⟨template, span, here⟩ := bound name List.mem_cons_self
    rw [List.foldl_cons, addEntry_of_fresh first here (fresh name List.mem_cons_self),
      ih nodup fun other mem => bound other (List.mem_cons_of_mem _ mem), ofNames_cons here,
      List.append_assoc]
    intro other mem exported
    rw [Keyed.names, List.map_append, List.mem_append] at exported
    rcases exported with before | made
    · exact fresh other (List.mem_cons_of_mem _ mem) before
    · -- the name that was exported just now is none of those to come
      obtain ⟨_, one, rfl⟩ := List.mem_map.1 made
      obtain ⟨_, _, rfl⟩ := List.mem_map.1 one
      exact unrepeated mem

lemma ofList_of_lists {list : Node} (lists : list.ListsExports names) (nodup : names.Nodup)
    (bound : ∀ name ∈ names, ∃ template span,
      s.lookup name = some (.template template .declared none span)) :
    ofList list s = (ofNames s names, []) := by
  unfold ofList
  rw [foldl_addEntry_of_fresh lists.entries nodup bound (fun _ _ => List.not_mem_nil),
    lists.children]
  rfl

end ExportTable

/-! ## Documents -/

namespace Document

variable {d : Document} {list last : Node}

/-- The names that a document without an export list declares, each at its first place. -/
def declaredNames (d : Document) : List String :=
  (d.content.map fun n => n.name.inner).eraseDups

/-- The document with one more node at its end. -/
def concat (d : Document) (n : Node) : Document :=
  { d with nodes := d.nodes ++ [n] }

lemma content_concat_of_terminal (terminal : d.terminal? = some last) (n : Node) :
    (d.concat n).content = d.content ++ [n] := by
  have nonempty : d.nodes ≠ [] := by
    rw [d.nodes_eq, content_eq terminal]
    simp
  unfold concat content importDirective?
  revert nonempty
  rcases d.nodes with _ | ⟨first, rest⟩
  · exact fun nonempty => absurd rfl nonempty
  · intro _
    dsimp only [List.cons_append]
    split <;> rfl

/-- **A document without an export list exports what a list of its names would export**, whatever it
is collected on, in the same order and with the same reports.  The list gives each declared name
once, at its first place; where the entries of the list stand in the text is left open. -/
theorem implicit_exports_match_listed (terminal : d.terminal? = some last)
    (unlisted : last.isExportList = false) (lists : list.ListsExports d.declaredNames) (c : Config)
    (outer : Scope) : (d.concat list).collectExports c outer = d.collectExports c outer := by
  have content := content_concat_of_terminal terminal list
  have terminal' : (d.concat list).terminal? = some list := by
    rw [terminal?, content, List.getLast?_concat]
  have declarations : (d.concat list).declarations = d.content := by
    rw [Document.declarations, content, List.dropLast_concat]
  -- each declared name is bound by the file itself, whichever of its declarations stands
  have bound : ∀ name ∈ d.declaredNames, ∃ template span,
      (collect c.collisions d.content outer).1.lookup name =
        some (.template template .declared none span) := by
    intro name mem
    have scope : (collect c.collisions d.content outer).1 = _ := Collection.scope_foldl_add ..
    rw [scope]
    exact Scope.exists_lookup_bindDeclarations _ (List.mem_eraseDups.1 mem)
  have table := ExportTable.ofList_of_lists lists (nodup_eraseDups _) bound
  -- an entry of the list finds its name, so the list itself reports nothing
  have exports : (d.concat list).exportsOn c outer = d.exportsOn c outer := by
    have silent : Journal.report [] = .empty := rfl
    simp only [exportsOn, terminal, terminal', lists.name, unlisted, declarations, table, silent,
      Journal.append_empty, if_true]
    rfl
  rw [collectExports, collectExports, exports]

/-- A document that imports a frame and declares a box twice, a card without a body and a line. -/
def twoBoxes : Document where
  nodes := [
    .naming "import" "frames/frame",
    .bare "box" [.bare "rect" []], .bare "card" [],
    .bare "line" [.bare "rect" []], .bare "box" [.bare "line" []]]
  span := .none

/-- A list of its names. -/
def twoBoxesList : Node where
  name := ⟨"export", .none⟩
  entries := ["box", "card", "line"].map fun name => ⟨none, ⟨.string name, .none⟩, .none⟩
  children := []
  span := .none

/-- The box comes first and once, and the card is not exported, with the list as without it. -/
theorem twoBoxes_exports :
    (twoBoxes.concat twoBoxesList).collectExports .default .root =
      twoBoxes.collectExports .default .root ∧
    (twoBoxes.exportsOn .default .root).1.map Keyed.names = some ["box", "line"] := by
  have names : twoBoxes.declaredNames = ["box", "card", "line"] := by decide
  have lists : twoBoxesList.ListsExports twoBoxes.declaredNames := by
    rw [names]
    exact ⟨by decide, .cons ⟨rfl, rfl⟩ (.cons ⟨rfl, rfl⟩ (.cons ⟨rfl, rfl⟩ .nil)), rfl⟩
  have terminal : twoBoxes.terminal? = some (.bare "box" [.bare "line" []]) := rfl
  exact ⟨implicit_exports_match_listed terminal (by decide) lists .default .root, by decide +kernel⟩

end Document

end Stencil
