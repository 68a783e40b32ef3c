import Stencil.Proofs.Document.Budget
import Stencil.Proofs.Expansion.Answers
import Stencil.Proofs.Scope.Visible
import Stencil.Tree.Likeness

/-!
# Imported templates

A file that exports a template can be composed onto a scope and the template called by its
qualified name; or the declarations of the file can be repeated in the document and the template
called by its own name.  The two documents expand alike (`imported_as_local`).

The template is the same in both, home scope and all, so its body is no concern.  What differs is
the scope of the call, which every argument captures: one has the qualified name bound on it, the
other the declarations of the file.  To the words that are apart from both they give the same
answers (`agree_importing`), and scopes that agree simulate each other, so the one run is carried
over to the other.

The words in question are those a call can ask its scope for: names and strings that it writes,
names and strings of what it holds, and strings that the outer scope has for any of these, which may
be asked for in turn.  A word that the file declares would be answered differently, and so would one
of its qualified names; `Apart` excludes just these.
-/

namespace Stencil

open Diagnostic

/-! ## Calls under two names -/

/-- Expansions to the same nodes, with errors in both or in neither, whose calls are nested
alike. -/
structure Expansion.Matches (a b : Expansion) : Prop where
  nodes : a.nodes = b.nodes
  hasErrors : a.journal.hasErrors = b.journal.hasErrors
  depths : a.journal.calls.map Call.depth = b.journal.calls.map Call.depth

section Calls

variable {c : Config} {used : Nat} {depth : Depth} {V : String → Prop} {s s' : Scope}
variable {n n' : Node} {t : Template}

/-- **A template is called alike under two names**, at two places and under two scopes that give
the same answers to what the call writes and holds. -/
theorem matches_call (agree : s.Agree V s') (reading : s.reading n = (.call t n, []))
    (reading' : s'.reading n' = (.call t n', [])) (entries : n.entries = n'.entries)
    (children : n.children = n'.children)
    (written : ∀ v, n.Writes v → ∀ x, v.inner = .string x → V x)
    (held : Node.AllSpokenIn V n.children) :
    (expandNode c used depth s n).Matches (expandNode c used depth s' n') := by
  rcases check : c.exceededLimit? depth used with _ | limit
  · obtain ⟨frame, silent⟩ := t.bindCall_elsewhere (s := s') entries children
    have calls := agree.answers.calls t written held
    have errors : (Journal.report (t.bindCall n s).2).hasErrors =
        (Journal.report (t.bindCall n' s').2).hasErrors :=
      Journal.hasErrors_report_congr (t.areOwnFaults_bindCall n s).areFaults
        (t.areOwnFaults_bindCall n' s').areFaults (by rw [calls.problems_eq, silent])
    -- the frame that is built elsewhere is the one that is built here, only with other captured
    -- scopes
    generalize binding : t.bindCall n s = made, t.bindCall n s' = made' at calls frame errors
    rcases binding' : t.bindCall n' s' with ⟨there, faults⟩
    rw [binding'] at frame errors
    obtain rfl : made'.1 = there := frame
    cases calls with
    | refused problems =>
      rw [expandNode_of_refused reading check binding,
        expandNode_of_refused reading' check binding']
      exact ⟨rfl, errors, rfl⟩
    -- the body is the same and lives in the template's home; by simulation the two frames expand
    -- it alike
    | made problems frames =>
      rw [expandNode_of_called reading check binding, expandNode_of_called reading' check binding',
        Agreement.isSimulation.expandNode_eq frames]
      have quiet : ∀ call, (c.callJournal (used + 1) call).hasErrors = false := fun _ => rfl
      exact ⟨rfl, by simp only [Journal.hasErrors_append, errors, quiet], rfl⟩
  · -- the limits depend on the depth and the calls so far only, so both calls are refused
    rw [expandNode_of_limited reading check, expandNode_of_limited reading' check]
    exact ⟨rfl, by simp, rfl⟩

end Calls

/-! ## The two scopes -/

lemma QualifiedName.text_ne_expandWord {q : QualifiedName} : q.text ≠ expandWord := by
  intro same
  have slash : '/' ∈ q.text.toList := by simp [QualifiedName.text]
  rw [same] at slash
  exact absurd slash (by decide)

/-- A word that a file neither declares nor, as one of its qualified names, offers to others.  The
second part is asked of every member, since whether the file has an import of that name in the scope
decides whether an unknown member is reported. -/
def Apart (declarations : List Node) (file word : String) : Prop :=
  word ∉ declarations.map (fun d => d.name.inner) ∧
    ∀ member, word ≠ QualifiedName.text ⟨file, member⟩

lemma apart_of_unqualified {declarations : List Node} {file word : String}
    (unqualified : '/' ∉ word.toList)
    (undeclared : word ∉ declarations.map fun d => d.name.inner) :
    Apart declarations file word := by
  refine ⟨undeclared, ?_⟩
  rintro member rfl
  exact unqualified (by simp [QualifiedName.text])

section Scopes

variable {declarations : List Node} {outer : Scope} {t : Template} {file name : String}
  (proper : outer.Proper)
  (clean : (collect .error declarations outer).2.hasErrors = false)
  (unbound : outer.lookup (QualifiedName.text ⟨file, name⟩) = none)
  (values : ∀ word v x, outer.lookup word = some (.value v) → v.inner = .string x →
    Apart declarations file x)

/-- The scope under which a document calls an imported template. -/
def Scope.importing (outer : Scope) (t : Template) (file name : String) : Scope :=
  (outer.bind (QualifiedName.text ⟨file, name⟩) (.template (some t) .imported (some file) t.span)
    .imports).enterDocument []

lemma lookup_importing (word : String) :
    (outer.importing t file name).lookup word =
      if QualifiedName.text ⟨file, name⟩ = word then
        some (.template (some t) .imported (some file) t.span)
      else outer.lookup word := by
  rw [Scope.importing, Scope.lookup_enterDocument, Scope.lookup_bind]

include proper clean unbound in
/-- A word that is apart from the file lacks its import under both scopes or under neither: what
else is imported is visible under both. -/
lemma lacksImport_importing {word : String} (apart : Apart declarations file word) :
    (outer.importing t file name).lacksImport word =
      (collect .error declarations outer).1.lacksImport word := by
  have proper' : (outer.importing t file name).Proper := (proper.extend _ _).enterDocument _
  rw [Bool.eq_iff_iff, Scope.lacksImport_iff proper', Scope.lacksImport_iff (proper.collect clean)]
  constructor
  · rintro ⟨q, qualified, other, b, found, imported⟩
    rw [lookup_importing] at found
    split at found
    · -- the word would be qualified by the file itself
      obtain rfl := Option.some.inj found
      have same : file = q.file := by simpa [Binding.isImportFrom] using imported
      refine absurd (QualifiedName.text_of_ofString? qualified).symm ?_
      rw [show q = ⟨file, q.member⟩ by rw [same]]
      exact apart.2 _
    · exact ⟨q, qualified, other, b, (lookup_import_collect clean imported).2 found, imported⟩
  · rintro ⟨q, qualified, other, b, found, imported⟩
    have around := (lookup_import_collect clean imported).1 found
    refine ⟨q, qualified, other, b, ?_, imported⟩
    rw [lookup_importing, if_neg, around]
    rintro rfl
    rw [unbound] at around
    cases around

include proper clean unbound values in
/-- **The scope of an import and the scope of the declarations agree** on every word that is apart
from the file. -/
theorem agree_importing :
    (outer.importing t file name).Agree (Apart declarations file)
      (collect .error declarations outer).1 where
  lookup word apart := by
    rw [lookup_importing, if_neg (apart.2 name).symm, lookup_collect_of_not_mem apart.1]
  -- the file's scope counts as declaring what it declares, which an apart word is not
  reports word apart := by
    have undeclared : (collect .error declarations outer).1.declares word = false := by
      rw [declares_collect clean]
      simpa using apart.1
    rw [lacksImport_importing proper clean unbound apart, undeclared]
    rfl
  closed word v x apart found string := by
    rw [lookup_importing, if_neg (apart.2 name).symm] at found
    exact values word v x found string

include proper clean unbound values in
/-- **A call of the import and a call of the declared template match**, if what they write and hold
is apart from the file. -/
theorem matches_importing (c : Config) (used : Nat) (depth : Depth) {call call' : Node}
    {origin : Origin} {source : Option String} {span : Span} (ordinary : name ≠ expandWord)
    (found : (collect .error declarations outer).1.lookup name =
      some (.template (some t) origin source span))
    (named : call.name.inner = QualifiedName.text ⟨file, name⟩) (named' : call'.name.inner = name)
    (entries : call.entries = call'.entries) (children : call.children = call'.children)
    (spoken : ∀ word, word ∈ Entry.strings call.entries ∨ word ∈ Node.namesAll call.children ∨
      word ∈ Node.stringsAll call.children → Apart declarations file word) :
    (expandNode c used depth (outer.importing t file name) call).Matches
      (expandNode c used depth (collect .error declarations outer).1 call') := by
  have reading : (outer.importing t file name).reading call = (.call t call, []) := by
    refine Scope.reading_of_template ?_ ((lookup_importing _).trans (if_pos named.symm))
    rw [named]
    exact QualifiedName.text_ne_expandWord
  have reading' : (collect .error declarations outer).1.reading call' = (.call t call', []) :=
    Scope.reading_of_template (named' ▸ ordinary) (named' ▸ found)
  have agree := agree_importing (t := t) proper clean unbound values
  -- both nodes are calls of the same template with the same targuments; what is left is that these
  -- speak only words on which the two scopes agree
  refine matches_call agree reading reading' entries children ?_ ?_
  · intro v written x string
    have mem := written.mem_strings string
    rw [Node.strings_eq, List.mem_append] at mem
    exact spoken x (mem.imp_right .inr)
  · exact fun word mem => spoken word (.inr mem)

/-- A name that is bound neither by a scope nor by a file, and that is neither qualified nor
reserved. -/
structure IsPlainName (declarations : List Node) (outer : Scope) (name : String) : Prop where
  unqualified : '/' ∉ name.toList
  unbound : outer.lookup name = none
  undeclared : name ∉ declarations.map fun d => d.name.inner
  unreserved : name ≠ expandWord ∧ name ≠ importWord ∧ name ≠ exportWord

namespace IsPlainName

variable {body : Node} (plain : IsPlainName declarations outer body.name.inner)
include plain

lemma isExportList_eq : body.isExportList = false :=
  beq_eq_false_iff_ne.2 plain.unreserved.2.2

lemma unboundName_eq_nil {s : Scope} (undeclared : s.declares body.name.inner = false) :
    s.unboundName body.name = [] := by
  unfold Scope.unboundName Scope.lacksImport
  rw [undeclared, QualifiedName.ofString?_eq_none plain.unqualified]
  rfl

lemma reading_importing : (outer.importing t file name).reading body = (.plain body, []) := by
  have apart : Apart declarations file body.name.inner :=
    apart_of_unqualified plain.unqualified plain.undeclared
  rw [Scope.reading_of_unbound plain.unreserved.1, plain.unboundName_eq_nil rfl]
  rw [lookup_importing, if_neg (apart.2 name).symm, plain.unbound]

include clean in
lemma reading_collect :
    (collect .error declarations outer).1.reading body = (.plain body, []) := by
  have undeclared : (collect .error declarations outer).1.declares body.name.inner = false := by
    rw [declares_collect clean]
    simpa using plain.undeclared
  rw [Scope.reading_of_unbound plain.unreserved.1, plain.unboundName_eq_nil undeclared]
  rw [lookup_collect_of_not_mem plain.undeclared, plain.unbound]

end IsPlainName

end Scopes

/-! ## The documents -/

section Documents

variable {c : Config} {d : Document} {declarations : List Node} {last : Node} {outer : Scope}

/-- A document that opens with no import directive is its declarations and its last node. -/
lemma content_concat (nodes : d.nodes = declarations ++ [last])
    (noImport : ∀ first ∈ declarations.head?, first.name.inner ≠ importWord)
    (ordinary : last.name.inner ≠ importWord) :
    d.importDirective? = none ∧ d.terminal? = some last ∧ d.declarations = declarations := by
  have none : d.importDirective? = none := by
    rw [Document.importDirective?_eq_none_iff, nodes]
    cases declarations with
    | nil => simpa using ordinary
    | cons first rest => exact noImport
  have content : d.content = declarations ++ [last] := by
    rw [← nodes, d.nodes_eq, none, Option.toList_none, List.nil_append]
  refine ⟨none, ?_, ?_⟩
  · rw [Document.terminal?, content, List.getLast?_concat]
  · rw [Document.declarations, content, List.dropLast_concat]

/-- Exporting one name makes a table of the template that the scope binds to it. -/
lemma exists_of_has_ofList {s : Scope} {list : Node} {t : String}
    (sole : list.soleString?.map Spanned.inner = some t)
    (has : Keyed.has (ExportTable.ofList list s).1 t = true) :
    ∃ template origin file span,
      s.lookup t = some (.template (some template) origin file span) ∧
        (ExportTable.ofList list s).1 = [(t, template)] := by
  obtain ⟨spelled, single, rfl⟩ := Option.map_eq_some_iff.1 sole
  unfold Node.soleString? at single
  split at single
  · next t _ _ entries =>
    obtain rfl := Option.some.inj single
    simp only [ExportTable.ofList, entries, List.foldl_cons, List.foldl_nil,
      ExportTable.addEntry, Option.map_none, Option.getD_none] at has ⊢
    -- only a template with a body gets into the table: for any other binding the table is empty
    rcases found : s.lookup t with _ | (⟨_ | template, origin, file, span⟩ | _ | _ | _) <;>
      rw [found] at has
    case some.template.some =>
      exact ⟨template, origin, file, span, rfl, by simp [Keyed.has, Keyed.get?, Keyed.put]⟩
    all_goals cases has
  · cases single

/-- A file of some declarations, without imports, that exports one name: its table holds the
name. -/
structure ExportsOne (c : Config) (declarations : List Node) (outer : Scope) (t : String)
    (table : ExportTable) : Prop where
  noImport : ∀ first ∈ declarations.head?, first.name.inner ≠ importWord
  listed : ∃ (d : Document) (list : Node) (info : RunInfo), d.nodes = declarations ++ [list] ∧
    list.isExportList = true ∧ list.soleString?.map Spanned.inner = some t ∧
    (d.collectExports c outer).outcome = .done table info
  has : table.has t = true

/-- The table holds the template that the scope of the declarations binds to the name, and no
other. -/
lemma ExportsOne.exists_template {table : ExportTable} {t : String}
    (h : ExportsOne c declarations outer t table) (policy : c.collisions = .error) :
    (collect .error declarations outer).2.hasErrors = false ∧
      ∃ template origin file span, (collect .error declarations outer).1.lookup t =
        some (.template (some template) origin file span) ∧ table = [(t, template)] := by
  obtain ⟨d, list, info, nodes, exports, sole, done⟩ := h.listed
  have ordinary : list.name.inner ≠ importWord := by
    rw [Node.isExportList, beq_iff_eq] at exports
    rw [exports]
    decide
  obtain ⟨_, terminal, before⟩ := content_concat nodes h.noImport ordinary
  obtain ⟨value, clean, _⟩ := Run.of_done (d.graded_exportsOn c outer) done
  simp only [Document.exportsOn, terminal, before, exports, if_true, policy] at value clean
  obtain rfl := Option.some.inj value
  rw [Journal.hasErrors_append, Bool.or_eq_false_iff] at clean
  exact ⟨clean.1, exists_of_has_ofList sole h.has⟩

/-- A document that is some nodes and a body without entries, which holds one call. -/
def Document.EndsInCall (d : Document) (before : List Node) (root name : String)
    (entries : List Entry) (children : List Node) : Prop :=
  ∃ body call : Node, d.nodes = before ++ [body] ∧ body.name.inner = root ∧ body.entries = [] ∧
    body.children = [call] ∧ call.name.inner = name ∧ call.entries = entries ∧
    call.children = children

/-- A document whose body stands for itself and holds one call is done if the call expands without
an error, and has the record of the call. -/
lemma expand_of_call {body call : Node} (noImport : d.importDirective? = none)
    (terminal : d.terminal? = some body) (isBody : body.isExportList = false)
    (clean : (collect c.collisions d.declarations outer).2.hasErrors = false) {s : Scope}
    (collected : (collect c.collisions d.declarations outer).1 = s)
    (reading : s.reading body = (.plain body, [])) (bare : body.entries = [])
    (children : body.children = [call]) {e : Expansion}
    (expanded : expandNode c 0 .top s call = e) :
    (d.expand c outer).outcome.isDone = !e.journal.hasErrors ∧
      ∀ v info, (d.expand c outer).outcome = .done v info → v = body.rebuild [] e.nodes ∧
        info.budget = some ⟨some e.journal.callCount, some e.journal.peak⟩ := by
  subst collected
  have resolved : d.unresolvedImports outer = [] := by
    unfold Document.unresolvedImports ImportRequest.ofDocument
    rw [noImport]
    rfl
  -- the body is plain, so its expansion is the call's nodes under the body's name, and its journal
  -- the call's
  have nodes : (d.bodyExpansion c 0 outer body).nodes = [body.rebuild [] e.nodes] := by
    rw [Document.bodyExpansion, expandNode_of_plain reading, bare, children, expandNodes_cons,
      expandNodes_nil, expanded]
    simp [Scope.entriesOf]
  have journal : (d.bodyExpansion c 0 outer body).journal =
      .report [] ++ (e.journal ++ .report []) := by
    rw [Document.bodyExpansion, expandNode_of_plain reading, bare, children, expandNodes_cons,
      expandNodes_nil, expanded]
    rfl
  have errors : (d.bodyExpansion c 0 outer body).journal.hasErrors = e.journal.hasErrors := by
    rw [journal]
    simp [Journal.hasErrors]
  have calls : (d.bodyExpansion c 0 outer body).journal.calls = e.journal.calls := by
    rw [journal]
    simp
  constructor
  · -- without errors the document is done; with an error it cannot be, since a document that is
    -- done was silent
    rcases faultless : e.journal.hasErrors with _ | _
    · rw [Document.expand_done_iff.2 ⟨body, terminal, isBody, by rw [resolved]; rfl, clean,
        errors.trans faultless, nodes, rfl⟩]
      rfl
    · rcases ended : (d.expand c outer).outcome with ⟨v, info⟩ | _
      · obtain ⟨body', terminal', _, _, _, silent, _, _⟩ := Document.expand_done_iff.1 ended
        obtain rfl := Option.some.inj (terminal.symm.trans terminal')
        rw [errors, faultless] at silent
        cases silent
      · rfl
  · intro v info done
    obtain ⟨body', terminal', _, _, _, _, nodes', rfl⟩ := Document.expand_done_iff.1 done
    obtain rfl := Option.some.inj (terminal.symm.trans terminal')
    refine ⟨List.singleton_inj.1 (nodes'.symm.trans nodes), ?_⟩
    have all := (Document.calls_expandJournal terminal isBody nodes').trans calls
    simp only [RunInfo.withWarnings, RunInfo.ofJournal, Journal.callCount, Journal.peak, all]

end Documents

/-- Matching expansions make as many calls, to the same depth. -/
lemma Expansion.Matches.budget {a b : Expansion} (h : a.Matches b) :
    a.journal.callCount = b.journal.callCount ∧ a.journal.peak = b.journal.peak := by
  constructor
  · simpa [Journal.callCount] using congrArg List.length h.depths
  · have peak : ∀ j : Journal, j.peak = (j.calls.map Call.depth).foldl max 0 :=
      fun j => List.foldl_map.symm
    rw [peak, peak, h.depths]

/-- **An imported template behaves like a local one.**  A file exports a template, and its table
is composed on an outer scope.  A document that calls the template by its qualified name on that
scope, and one that repeats the declarations of the file and calls it by its own name, are done or
fail together, if what the calls write and the strings of the outer scope are apart from the file.
If they are done, it is with nodes alike and with the same budget. -/
theorem imported_as_local {c₀ c : Config} (policy₀ : c₀.collisions = .error)
    (policy : c.collisions = .error) {outer : Scope} (reads : outer.IsOuter)
    {declarations : List Node} {t file : String} {table : ExportTable}
    (exports : ExportsOne c₀ declarations outer t table) (ordinary : t ≠ expandWord)
    (unbound : outer.lookup (QualifiedName.text ⟨file, t⟩) = none)
    {entries : List Entry} {children : List Node}
    (spoken : ∀ word, word ∈ Entry.strings entries ∨ word ∈ Node.namesAll children ∨
      word ∈ Node.stringsAll children → Apart declarations file word)
    (values : ∀ word v x, outer.lookup word = some (.value v) → v.inner = .string x →
      Apart declarations file x)
    {root : String} (plain : IsPlainName declarations outer root) {d d' : Document}
    (ends : d.EndsInCall [] root (QualifiedName.text ⟨file, t⟩) entries children)
    (ends' : d'.EndsInCall declarations root t entries children) :
    ∃ scope info, (outer.compose c table file).outcome = .done scope info ∧
      (d.expand c scope).outcome.isDone = (d'.expand c outer).outcome.isDone ∧
      ∀ v v' i i', (d.expand c scope).outcome = .done v i →
        (d'.expand c outer).outcome = .done v' i' → v.alike v' = true ∧ i.budget = i'.budget := by
  obtain ⟨clean, template, _, _, _, found, rfl⟩ := exports.exists_template policy₀
  obtain ⟨body, call, nodes, rfl, bare, only, named, rfl, rfl⟩ := ends
  obtain ⟨body', call', nodes', root, bare', only', named', entries, children⟩ := ends'
  have free : ∀ pair ∈ [(t, template)],
      outer.lookup (QualifiedName.text ⟨file, pair.1⟩) = none := by
    simpa using unbound
  obtain ⟨info, composed⟩ := exists_done_compose free c
  refine ⟨_, info, composed, ?_⟩
  have matching := matches_importing reads.proper clean unbound values c 0 .top ordinary found named
    named' entries.symm children.symm spoken
  have plain' : IsPlainName declarations outer body'.name.inner := root ▸ plain
  obtain ⟨noImport, terminal, before⟩ := content_concat nodes nofun plain.unreserved.2.1
  obtain ⟨noImport', terminal', before'⟩ := content_concat nodes' exports.noImport
    plain'.unreserved.2.1
  -- what is collected is nothing for the one document, and the declarations for the other
  have collected : collect c.collisions d.declarations
      (outer.extend (ExportTable.bindings [(t, template)] file) .imports) =
      (outer.importing template file t, (collect c.collisions [] outer).2) := by
    rw [before]
    rfl
  have collected' : collect c.collisions d'.declarations outer =
      collect .error declarations outer := by
    rw [before', policy]
  obtain ⟨isDone, done⟩ := expand_of_call noImport terminal plain.isExportList_eq
    (by rw [collected]; rfl) (congrArg Prod.fst collected) plain.reading_importing bare only rfl
  obtain ⟨isDone', done'⟩ := expand_of_call noImport' terminal' plain'.isExportList_eq
    (by rw [collected', clean]) (congrArg Prod.fst collected') (plain'.reading_collect clean) bare'
    only' rfl
  refine ⟨by rw [isDone, isDone', matching.hasErrors], ?_⟩
  intro v v' i i' ended ended'
  obtain ⟨rfl, budget⟩ := done v i ended
  obtain ⟨rfl, budget'⟩ := done' v' i' ended'
  obtain ⟨calls, peak⟩ := matching.budget
  refine ⟨?_, by rw [budget, budget', calls, peak]⟩
  simp [Node.alike, Node.rebuild, root, matching.nodes]

/-- A template that puts what it is called with into a frame. -/
def Node.panel : Node :=
  .bare "panel" [.naming "expand" "content", .bare "frame" [.naming "expand" "content"]]

/-- What a panel is called with: a size in the unit of the outer scope. -/
def Node.sized : List Node :=
  [.bare "content" [.naming "size" "unit"]]

/-- A scope of one value. -/
def Scope.pixels : Scope :=
  Scope.root.bind "unit" (.value ⟨.string "px", .none⟩) .external

lemma withValues_singleton (s : Scope) (name : String) (value : Scalar) :
    s.withValues [(name, value)] = s.bind name (.value ⟨value, .none⟩) .external := by
  have fields : Keyed.fieldsOfPairs [(name, value)] = [(name, value)] := by
    rcases index : Keyed.index? name with _ | n <;>
      simp [Keyed.fieldsOfPairs, Keyed.ofPairs, Keyed.put, index]
  rw [Scope.withValues, fields]
  rfl

lemma Scope.isOuter_pixels : Scope.pixels.IsOuter := by
  rw [pixels, ← withValues_singleton]
  exact .withValues .root _

/-- A file that exports the panel. -/
def Document.panels : Document :=
  ⟨[.panel, .naming "export" "panel"], .none⟩

/-- A page with an imported panel. -/
def Document.importedPanel : Document :=
  ⟨[.bare "page" [.bare "shapes/panel" Node.sized]], .none⟩

/-- A page with a panel of its own. -/
def Document.localPanel : Document :=
  ⟨[.panel, .bare "page" [.bare "panel" Node.sized]], .none⟩

lemma exists_exports_panel : ∃ table, ExportsOne .default [.panel] .pixels "panel" table := by
  have holds : ((Document.panels.collectExports .default .pixels).outcome.map fun table =>
      table.has "panel").getD false = true := by
    decide +kernel
  rcases h : (Document.panels.collectExports .default .pixels).outcome with ⟨table, info⟩ | _
  · rw [h] at holds
    exact ⟨table, by decide, ⟨_, _, _, rfl, rfl, rfl, h⟩, holds⟩
  · rw [h] at holds
    cases holds

lemma apart_of_mem_sized {word : String}
    (h : word ∈ Node.namesAll Node.sized ∨ word ∈ Node.stringsAll Node.sized) :
    Apart [.panel] "shapes" word := by
  have words : ∀ word ∈ Node.namesAll Node.sized ++ Node.stringsAll Node.sized,
      '/' ∉ word.toList ∧ word ∉ [Node.panel].map fun d => d.name.inner := by
    decide
  obtain ⟨unqualified, undeclared⟩ := words word (List.mem_append.2 h)
  exact apart_of_unqualified unqualified undeclared

lemma apart_of_lookup_pixels {word x : String} {v : Spanned Scalar}
    (found : Scope.pixels.lookup word = some (.value v)) (string : v.inner = .string x) :
    Apart [.panel] "shapes" x := by
  rw [Scope.pixels, Scope.lookup_bind] at found
  split at found
  · obtain rfl : v = ⟨.string "px", .none⟩ := by simpa [eq_comm] using found
    obtain rfl : "px" = x := by simpa using string
    exact apart_of_unqualified (by decide) (by decide)
  · cases found

/-- A page with an imported panel and a page with a panel of its own are alike. -/
theorem page_with_either_panel : ∃ table scope info,
    (Scope.pixels.compose .default table "shapes").outcome = .done scope info ∧ ∃ v v' i i',
      (Document.importedPanel.expand .default scope).outcome = .done v i ∧
      (Document.localPanel.expand .default .pixels).outcome = .done v' i' ∧
      v.alike v' = true ∧ i.budget = i'.budget := by
  have policy : Config.default.collisions = .error := rfl
  obtain ⟨table, exports⟩ := exists_exports_panel
  have plain : IsPlainName [.panel] .pixels "page" :=
    ⟨by decide, rfl, by decide, by decide, by decide, by decide⟩
  have ends : Document.importedPanel.EndsInCall [] "page" "shapes/panel" [] Node.sized :=
    ⟨_, _, rfl, rfl, rfl, rfl, rfl, rfl, rfl⟩
  have ends' : Document.localPanel.EndsInCall [.panel] "page" "panel" [] Node.sized :=
    ⟨_, _, rfl, rfl, rfl, rfl, rfl, rfl, rfl⟩
  obtain ⟨scope, info, composed, same, alike⟩ := imported_as_local policy policy
    Scope.isOuter_pixels exports (by decide) rfl
    (fun _ h => apart_of_mem_sized (h.resolve_left List.not_mem_nil))
    (fun _ _ _ => apart_of_lookup_pixels) plain ends ends'
  -- that one of the two is done is evaluated; that the other is, and alike, is the theorem
  have isDone : (Document.localPanel.expand .default .pixels).outcome.isDone = true := by
    decide +kernel
  refine ⟨table, scope, info, composed, ?_⟩
  rcases ended : (Document.importedPanel.expand .default scope).outcome with ⟨v, i⟩ | _
  · rcases ended' : (Document.localPanel.expand .default .pixels).outcome with ⟨v', i'⟩ | _
    · exact ⟨v, v', i, i', rfl, rfl, alike v v' i i' ended ended'⟩
    · rw [ended'] at isDone
      cases isDone
  · rw [ended, isDone] at same
    cases same

end Stencil
