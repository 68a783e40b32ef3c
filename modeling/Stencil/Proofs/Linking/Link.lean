import Stencil.Proofs.Document.Budget
import Stencil.Proofs.Linking.Linkage
import Stencil.Proofs.Linking.Units

/-!
# What a successful link means

`IsLinking` says it without running anything: the files are given once each, none imports itself
through others, each gives what was linked under its name when it is read on its own, and the
limit admits all their calls.  A link is done exactly if there is such a linking, and it then
finds it (`isLinking_of_done`, `done_of_isLinking`).

Two things follow.  A link amounts to reading each of its files alone, with the tables that were
linked (`link_reads_each_alone`).  And since `IsLinking` does not speak of an order, the order in
which the files are given makes no difference (`link_perm`).

The run of a link depends on its order in two places: which tables are there when a file is read,
and how many calls have been made before it.  Neither shows in `IsLinking`.  There every file is
read with all the tables, and after no calls; the linkage invariant makes up for the first by saying
that a table which comes later belongs to a file that was not requested, and for the second by
asking the limit for all calls at once.
-/

namespace Stencil

variable {c : Config} {sources sources' : List SourceFile} {outer : Scope}
variable {linked linked' : Linked} {info info' : RunInfo} {callsOf : String → List Call}

/-! ## Runs and linkings -/

/-- Some files link to `linked`, each by its calls.  No field speaks of an order of the files, nor
of a state that one file leaves to the next. -/
structure IsLinking (c : Config) (sources : List SourceFile) (outer : Scope) (linked : Linked)
    (callsOf : String → List Call) : Prop where
  given : WellGiven sources
  acyclic : (importGraph (linkUnits sources).1).Acyclic
  links : Links c (linkUnits sources).1 outer (sources.map SourceFile.id) linked callsOf
  admits : c.Admits ((sources.map SourceFile.id).flatMap callsOf).length

/-- The order of the files does not matter to what they link to. -/
lemma IsLinking.perm (h : IsLinking c sources outer linked callsOf)
    (perm : sources.Perm sources') : IsLinking c sources' outer linked callsOf where
  given := h.given.perm perm
  acyclic := (acyclic_importGraph_congr (get?_linkUnits_perm h.given perm)).1 h.acyclic
  links := h.links.congr (get?_linkUnits_perm h.given perm) (perm.map SourceFile.id)
  admits := by
    have calls := ((perm.map SourceFile.id).flatMap_right callsOf).length_eq
    rw [← calls]
    exact h.admits

/-- The journal before the first file is linked. -/
def linkStart (sources : List SourceFile) (files : List String) : Journal :=
  (linkUnits sources).2 ++ .line .log ("link order: " ++ ", ".intercalate files)

lemma linkOn_of_sorted (c : Config) (outer : Scope) {files : List String}
    (h : (importGraph (linkUnits sources).1).order = .sorted files) :
    linkOn c sources outer =
      (some (Linkage.after c (linkUnits sources).1 outer (linkStart sources files) files).linked,
        (Linkage.after c (linkUnits sources).1 outer (linkStart sources files) files).journal) := by
  rw [linkOn]
  simp only [h]
  rfl

lemma exists_sorted (h : (linkOn c sources outer).1 = some linked) :
    ∃ files, (importGraph (linkUnits sources).1).order = .sorted files := by
  rcases order : (importGraph (linkUnits sources).1).order with files | files
  · exact ⟨files, rfl⟩
  · simp [linkOn, order] at h

lemma calls_linkStart (sources : List SourceFile) (files : List String) :
    (linkStart sources files).calls = [] := by
  rw [linkStart, Journal.calls_append, calls_linkUnits]
  rfl

/-- A link is done exactly if no error is reported, and its budget is that of its calls. -/
lemma link_done_iff :
    (link c sources outer).outcome = .done linked info ↔
      (linkOn c sources outer).1 = some linked ∧
        (linkOn c sources outer).2.hasErrors = false ∧
        info = (RunInfo.ofJournal c (linkOn c sources outer).2).withWarnings
          (linkOn c sources outer).2 := by
  show (Run.ofJournal (linkOn c sources outer).1 (linkOn c sources outer).2 .link
    (.ofJournal c (linkOn c sources outer).2)).outcome = _ ↔ _
  constructor
  · exact Run.of_done (graded_linkOn c sources outer)
  · rintro ⟨value, clean, rfl⟩
    rw [value]
    exact Run.done_of_clean clean

/-- The order of the files of a linking, as far as the run needs it. -/
lemma perm_of_sorted {files : List String} (given : WellGiven sources)
    (h : (importGraph (linkUnits sources).1).order = .sorted files) :
    files.Perm (sources.map SourceFile.id) := by
  obtain ⟨nodup, inside, _⟩ := ImportGraph.of_order_eq_sorted h
  apply (List.perm_ext_iff_of_nodup nodup given.nodup).2
  intro id
  rw [inside, has_importGraph, linkUnits_eq given.nodup, has_map_entry_iff]

lemma hasErrors_linkStart {files : List String} (given : WellGiven sources) :
    (linkStart sources files).hasErrors = false := by
  rw [linkStart, Journal.hasErrors_append, hasErrors_linkUnits_iff.2 given]
  rfl

/-- **A link that is done has found a linking of its files.** -/
theorem isLinking_of_done (h : (link c sources outer).outcome = .done linked info) :
    ∃ callsOf, IsLinking c sources outer linked callsOf ∧
      (linkOn c sources outer).2.calls.Perm ((sources.map SourceFile.id).flatMap callsOf) := by
  obtain ⟨value, clean, -⟩ := link_done_iff.1 h
  obtain ⟨files, order⟩ := exists_sorted value
  obtain ⟨nodup, inside, _⟩ := ImportGraph.of_order_eq_sorted order
  rw [linkOn_of_sorted c outer order] at value clean ⊢
  have started : (linkUnits sources).2.hasErrors = false := by
    have begun := Linkage.hasErrors_start_of_after clean
    rw [linkStart, Journal.hasErrors_append, Bool.or_eq_false_iff] at begun
    exact begun.1
  have given := hasErrors_linkUnits_iff.1 started
  have perm := perm_of_sorted given order
  -- the order goes through just the given files, each of which has a unit
  have known : ∀ id ∈ files, ∃ u, (linkUnits sources).1.get? id = some u := by
    intro id hid
    have has := (inside id).1 hid
    rw [has_importGraph] at has
    exact Option.isSome_iff_exists.1 has
  have silent := calls_linkStart sources files
  -- the invariant over the run; from here on only the order has to be forgotten
  obtain ⟨callsOf, complete⟩ := Linkage.complete_of_clean silent nodup known clean
  have calls := perm.flatMap_right callsOf
  refine ⟨callsOf, ⟨given, ImportGraph.acyclic_iff_exists_order.2 ⟨files, order⟩, ?_, ?_⟩, ?_⟩
  · obtain rfl := Option.some.inj value
    exact complete.links.congr (fun _ => rfl) perm
  · rw [← calls.length_eq, ← complete.calls]
    exact complete.admits
  · rw [complete.calls]
    exact calls

/-- **A link finds the linking of its files**, if there is one. -/
theorem done_of_isLinking (h : IsLinking c sources outer linked callsOf) :
    ∃ linked' info, (link c sources outer).outcome = .done linked' info ∧
      (∀ id, linked'.entry id = linked.entry id) ∧
      (linkOn c sources outer).2.calls.Perm ((sources.map SourceFile.id).flatMap callsOf) := by
  obtain ⟨files, order⟩ := ImportGraph.acyclic_iff_exists_order.1 h.acyclic
  obtain ⟨nodup, _, first⟩ := ImportGraph.of_order_eq_sorted order
  have perm := perm_of_sorted h.given order
  have links : Links c (linkUnits sources).1 outer files linked callsOf :=
    h.links.congr (fun _ => rfl) perm.symm
  have calls := perm.flatMap_right callsOf
  -- in the order that the pass gives, what a file requests has been linked before it
  have imports_first : ∀ before id after, files = before ++ id :: after →
      ∀ u, (linkUnits sources).1.get? id = some u → ∀ r ∈ u.requests, r.file ∈ files →
        r.file ∈ before := by
    intro before id after split u hu r hr hf
    refine first before id after split r.file (imports_importGraph_iff.2 ⟨?_, u, hu, r, hr, rfl⟩)
    rw [linkUnits_eq h.given.nodup, has_map_entry_iff]
    exact perm.mem_iff.1 hf
  -- the limit was asked for all calls in one order of the files; their number is the same in
  -- another
  have admits : c.Admits (files.flatMap callsOf).length := by
    rw [calls.length_eq]
    exact h.admits
  have follows := Linkage.follows_of_links (calls_linkStart sources files)
    (hasErrors_linkStart h.given) links nodup imports_first admits List.prefix_rfl
  have run := linkOn_of_sorted c outer order
  rw [run, follows.calls]
  refine ⟨_, _, link_done_iff.2 ⟨congrArg Prod.fst run, ?_, rfl⟩, fun id => ?_, calls⟩
  · rw [run]
    exact follows.clean
  · by_cases hid : id ∈ files
    · exact follows.inside id hid
    · rw [follows.outside id hid, links.outside id hid]

/-! ## Each file alone -/

section Alone

variable {d : Document} {tables : Keyed ExportTable} {p : Product} {calls : List Call}

lemma done_importRequests (directive : (ImportRequest.ofDocument d).2 = []) :
    ∃ i, d.importRequests.outcome = .done (ImportRequest.ofDocument d).1 i :=
  importRequests_done_iff.2 (Prod.ext rfl directive)

lemma done_resolveImports {requests : List ImportRequest}
    (clean : (resolveOn c requests tables outer).2.hasErrors = false) :
    ∃ i, (resolveImports c requests tables outer).outcome =
      .done (resolveOn c requests tables outer).1 i :=
  ⟨_, Run.done_of_clean clean⟩

lemma done_collectExports {scope : Scope} {table : ExportTable} {j : Journal}
    (h : d.exportsOn c scope = (some table, j)) (clean : j.hasErrors = false) :
    ∃ i, (d.collectExports c scope).outcome = .done table i := by
  rw [Document.collectExports, h]
  exact ⟨_, Run.done_of_clean clean⟩

lemma done_expand {scope : Scope} {v : Node} {j : Journal}
    (h : d.expandOn c 0 scope = (some v, j)) (clean : j.hasErrors = false)
    (resolved : d.unresolvedImports scope = []) :
    ∃ i, (d.expand c scope).outcome = .done v i := by
  have clean' : (Journal.report [] ++ j).hasErrors = false := clean
  rw [Document.expand, resolved, h]
  exact ⟨_, Run.done_of_clean clean'⟩

lemma endsInExports_iff :
    Linkage.endsInExports d = true ↔
      ∃ last, d.nodes.getLast? = some last ∧ last.name.inner = exportWord := by
  rw [Linkage.endsInExports, Option.any_eq_true]
  simp [Node.isExportList]

end Alone

/-- **Linking amounts to reading each file alone.**  When a link is done, the names of its files
are distinct, and each of them has either a table, namely if its document ends in an export list,
or a body.  For each document the import requests are read and resolved among the tables that
were linked, and on the resulting scope the document's exports are its table, or its expansion is
its body. -/
theorem link_reads_each_alone (h : (link c sources outer).outcome = .done linked info) :
    (sources.map SourceFile.id).Nodup ∧ ∀ source ∈ sources,
      (linked.exports.has source.id = true ↔
        ∃ last, source.document.nodes.getLast? = some last ∧ last.name.inner = exportWord) ∧
      (linked.nodes.has source.id = true ↔ linked.exports.has source.id = false) ∧
      ∃ requests i, source.document.importRequests.outcome = .done requests i ∧
        ∃ scope i, (resolveImports c requests linked.exports outer).outcome = .done scope i ∧
          (∀ table, linked.exports.get? source.id = some table →
            ∃ i, (source.document.collectExports c scope).outcome = .done table i) ∧
          (∀ node, linked.nodes.get? source.id = some node →
            ∃ i, (source.document.expand c scope).outcome = .done node i) := by
  obtain ⟨callsOf, linking, -⟩ := isLinking_of_done h
  refine ⟨linking.given.nodup, ?_⟩
  intro source hs
  have directive := linking.given.directives source hs
  obtain ⟨u, p, hu, entry, gives⟩ := linking.links.gives source.id (List.mem_map_of_mem hs)
  obtain rfl : source.linkUnit = u :=
    Option.some.inj ((get?_linkUnits linking.given hs).symm.trans hu)
  obtain ⟨j, product, clean, _⟩ := gives.read
  obtain ⟨i, requests⟩ := done_importRequests directive
  obtain ⟨i', resolved⟩ := done_resolveImports gives.resolved
  have product : source.document.product c 0
      (resolveOn c source.linkUnit.requests linked.exports outer).1 = (some p, j) := product
  rw [← endsInExports_iff, Keyed.has, Keyed.has]
  -- a product is a table or a node, and each of them rules out the other under the same name
  rcases Document.product_eq_some_iff.1 product with
    ⟨table, rfl, exports, read⟩ | ⟨node, rfl, body, read⟩
  · have found : linked.exports.get? source.id = some table := congrArg Prod.fst entry
    have none : linked.nodes.get? source.id = none := congrArg Prod.snd entry
    refine ⟨by simp [found, exports], by simp [found, none], _, i, requests, _, i', resolved,
      ?_, ?_⟩
    · rw [found]
      rintro _ ⟨⟩
      exact done_collectExports read clean
    · rw [none]
      rintro _ ⟨⟩
  · have none : linked.exports.get? source.id = none := congrArg Prod.fst entry
    have found : linked.nodes.get? source.id = some node := congrArg Prod.snd entry
    refine ⟨by simp [none, body], by simp [none, found], _, i, requests, _, i', resolved, ?_, ?_⟩
    · rw [none]
      rintro _ ⟨⟩
    · rw [found]
      rintro _ ⟨⟩
      exact done_expand read clean (unresolvedImports_resolveOn directive gives.resolved)

/-- A file that exports a template. -/
def SourceFile.shapes : SourceFile where
  id := "shapes"
  document := ⟨[.bare "box" [.bare "rect" []], .naming "export" "box"], .none⟩

/-- A file whose body calls a template of another file. -/
def SourceFile.page : SourceFile where
  id := "page"
  document := ⟨[.naming "import" "shapes/box", .bare "page" [.bare "shapes/box" []]], .none⟩

lemma exists_done_page_shapes :
    ∃ linked info, (link .default [.page, .shapes] .root).outcome = .done linked info := by
  have graph : importGraph (linkUnits [.page, .shapes]).1 =
      [("page", ["shapes"]), ("shapes", [])] := by
    decide +kernel
  have order : (importGraph (linkUnits [.page, .shapes]).1).order = .sorted ["shapes", "page"] := by
    rw [graph]
    exact ImportGraph.order_pair (by decide)
  have run := linkOn_of_sorted .default .root order
  have clean : (linkOn .default [.page, .shapes] .root).2.hasErrors = false := by
    rw [run]
    decide +kernel
  exact ⟨_, _, link_done_iff.2 ⟨congrArg Prod.fst run, clean, rfl⟩⟩

/-- A page is linked with the node that it expands to by itself. -/
theorem page_expands_to_its_node :
    ∃ linked info, (link .default [.page, .shapes] .root).outcome = .done linked info ∧
      ∃ requests i, SourceFile.page.document.importRequests.outcome = .done requests i ∧
      ∃ scope i, (resolveImports .default requests linked.exports .root).outcome = .done scope i ∧
      ∃ node i, linked.nodes.get? "page" = some node ∧
        (SourceFile.page.document.expand .default scope).outcome = .done node i := by
  obtain ⟨linked, info, done⟩ := exists_done_page_shapes
  obtain ⟨_, each⟩ := link_reads_each_alone done
  obtain ⟨exports, nodes, requests, i, hr, scope, i', hs, _, body⟩ :=
    each .page List.mem_cons_self
  have no_list : linked.exports.has "page" = false := by
    apply Bool.eq_false_iff.2
    intro has
    obtain ⟨last, found, name⟩ := exports.1 has
    obtain rfl := Option.some.inj found
    exact absurd name (by decide)
  obtain ⟨node, found⟩ := Option.isSome_iff_exists.1 (nodes.2 no_list)
  obtain ⟨i'', expands⟩ := body node found
  exact ⟨linked, info, done, requests, i, hr, scope, i', hs, node, i'', found, expands⟩

/-! ## The order of the files -/

/-- Files that are linked are linked alike in any other order. -/
lemma exists_done_of_perm (perm : sources.Perm sources')
    (h : (link c sources outer).outcome = .done linked info) :
    ∃ linked' info', (link c sources' outer).outcome = .done linked' info' ∧
      (∀ id, linked.entry id = linked'.entry id) ∧ info.budget = info'.budget := by
  obtain ⟨callsOf, linking, calls⟩ := isLinking_of_done h
  obtain ⟨linked', info', done, entries, calls'⟩ := done_of_isLinking (linking.perm perm)
  have same : (linkOn c sources outer).2.calls.Perm (linkOn c sources' outer).2.calls :=
    (calls.trans ((perm.map SourceFile.id).flatMap_right callsOf)).trans calls'.symm
  have count : (linkOn c sources outer).2.callCount = (linkOn c sources' outer).2.callCount :=
    same.length_eq
  obtain ⟨_, _, rfl⟩ := link_done_iff.1 h
  obtain ⟨_, _, rfl⟩ := link_done_iff.1 done
  refine ⟨linked', _, done, fun id => (entries id).symm, ?_⟩
  simp only [RunInfo.withWarnings, RunInfo.ofJournal, count, Journal.peak_eq_of_perm same]

/-- **The order of the files makes no difference.**  Files that are given in another order are
linked if and only if they are in the first one, and then every name has the same table or the
same body, by equally many calls of equal depth. -/
theorem link_perm (c : Config) (outer : Scope) (perm : sources.Perm sources') :
    (link c sources outer).outcome.isDone = (link c sources' outer).outcome.isDone ∧
    ∀ linked info linked' info', (link c sources outer).outcome = .done linked info →
      (link c sources' outer).outcome = .done linked' info' →
      (∀ id, linked.exports.get? id = linked'.exports.get? id ∧
        linked.nodes.get? id = linked'.nodes.get? id) ∧ info.budget = info'.budget := by
  have done_iff : ∀ {a b : List SourceFile}, a.Perm b →
      (link c a outer).outcome.isDone = true → (link c b outer).outcome.isDone = true := by
    intro a b perm done
    rcases h : (link c a outer).outcome with ⟨linked, info⟩ | ⟨failure, info⟩
    · obtain ⟨_, _, h', _⟩ := exists_done_of_perm perm h
      rw [h']
      rfl
    · rw [h] at done
      cases done
  refine ⟨Bool.eq_iff_iff.2 ⟨done_iff perm, done_iff perm.symm⟩, ?_⟩
  intro linked info linked' info' h h'
  obtain ⟨linked'', info'', h'', entries, budget⟩ := exists_done_of_perm perm h
  rw [h', Outcome.done.injEq] at h''
  obtain ⟨rfl, rfl⟩ := h''
  exact ⟨fun id => Prod.mk.inj (entries id), budget⟩

/-- A page may be given before or after the shapes that it imports. -/
theorem page_before_or_after_shapes :
    ∃ linked info linked' info',
      (link .default [.page, .shapes] .root).outcome = .done linked info ∧
      (link .default [.shapes, .page] .root).outcome = .done linked' info' ∧
      (∀ id, linked.exports.get? id = linked'.exports.get? id ∧
        linked.nodes.get? id = linked'.nodes.get? id) ∧ info.budget = info'.budget := by
  have swap : [SourceFile.page, .shapes].Perm [.shapes, .page] := List.Perm.swap _ _ []
  obtain ⟨linked, info, done⟩ := exists_done_page_shapes
  obtain ⟨alike, same⟩ := link_perm .default .root swap
  rw [done] at alike
  rcases done' : (link .default [.shapes, .page] .root).outcome with
    ⟨linked', info'⟩ | ⟨failure, info'⟩
  · exact ⟨linked, info, linked', info', done, rfl, same linked info linked' info' done done'⟩
  · rw [done'] at alike
    cases alike

end Stencil
