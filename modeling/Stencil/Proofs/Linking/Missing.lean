import Stencil.Proofs.Linking.Link

/-!
# Imports that are missing

A file that fails is reported on its own, and what others request of it is passed over.  Passed over
are only the requests to a file that has left no table, though: a file with an export list leaves
the table of what it could read, and what is missing from that table is reported once more in every
file that requests it.

`missing_imports_iff` says exactly what is reported as missing from what: a file that was not given,
an export that a table does not have, or an export list that a file without errors does not have.

The proof follows one request through the run.  At its file's turn a request is sought in a table,
reported for want of an export list, or passed over (`Complains`), and which of these depends on the
tables and the failed files of that moment.  By the order of the pass every imported file has had
its turn by then, so the moment can be replaced by the end of the run (`complains_after_iff`), and
what is said about the end no longer mentions the order of the files.

The two parts of a file's report on imports come from different places: requests that find nothing
are reported by the resolution, requests to a file without a list by the linker itself.
`mem_own_iff` puts them together, and leaves out what the file reports on its own nodes, none of
which is of this kind.
-/

namespace Stencil

variable {c : Config} {units : Keyed LinkUnit} {outer : Scope} {l : Linkage} {id other : String}
variable {u : LinkUnit} {files rest : List String} {journal : Journal} {d : Diagnostic}

/-- Why a request finds nothing: by the files that are given, the tables that are linked and what is
reported on each file.  A file that has a table lacks an export whether it was read without an error
or not; only for a file without a table does it count. -/
inductive ImportRequest.Misses (given : String → Prop) (tables : Keyed ExportTable)
    (report : String → Journal) (r : ImportRequest) : Problem → Prop
  | noSuchFile (absent : ¬given r.file) : Misses given tables report r (.noSuchFile r.file r.member)
  | notExported {table : ExportTable} (present : given r.file)
      (linked : tables.get? r.file = some table) (lacking : table.get? r.member = none) :
      Misses given tables report r (.notExported r.file r.member)
  | noExportList (present : given r.file) (unlinked : tables.get? r.file = none)
      (clean : (report r.file).hasErrors = false) :
      Misses given tables report r (.noExportList r.file r.member)

lemma ImportRequest.Misses.kind_eq {given : String → Prop} {tables : Keyed ExportTable}
    {report : String → Journal} {r : ImportRequest} {problem : Problem}
    (h : r.Misses given tables report problem) : problem.kind = .missingImport := by
  cases h <;> rfl

lemma ImportRequest.Misses.congr {given : String → Prop} {tables tables' : Keyed ExportTable}
    {report : String → Journal} {r : ImportRequest} {problem : Problem}
    (h : r.Misses given tables report problem)
    (same : tables.get? r.file = tables'.get? r.file) : r.Misses given tables' report problem := by
  cases h with
  | noSuchFile absent => exact .noSuchFile absent
  | notExported present linked lacking => exact .notExported present (same ▸ linked) lacking
  | noExportList present unlinked clean => exact .noExportList present (same ▸ unlinked) clean

/-! ## Requests -/

lemma kind_of_mem_rebinding {p : CollisionPolicy} {name : String} {span : Span}
    {previous : Option Binding} (hd : d ∈ (rebinding p name span previous).diagnostics) :
    d.kind = .importCollision := by
  unfold rebinding at hd
  split at hd
  · exact Journal.kind_of_mem_collision hd
  · exact absurd hd List.not_mem_nil

/-- What is reported as missing, where some requests are resolved, is what none of the tables
has. -/
lemma mem_resolveOn_iff {requests : List ImportRequest} {tables : Keyed ExportTable}
    (missing : d.kind = .missingImport) :
    d ∈ (resolveOn c requests tables outer).2.diagnostics ↔ ∃ r ∈ requests,
      ∃ problem, Resolution.find tables r = .error problem ∧ d = problem.reportedAt r.span := by
  have journal : (resolveOn c requests tables outer).2.diagnostics =
      (Resolution.ofRequests c tables outer requests).journal.diagnostics := by
    rw [resolveOn_eq]
    simp
  rw [journal]
  clear journal
  -- requests are added one by one, and each is either bound or reported; the induction takes the
  -- last one off, as the fold does
  induction requests using List.reverseRecOn with
  | nil => simp [Resolution.ofRequests]
  | append_singleton requests r ih =>
    have last : d ∈ (Resolution.ofRequests c tables outer (requests ++ [r])).journal.diagnostics ↔
        d ∈ (Resolution.ofRequests c tables outer requests).journal.diagnostics ∨
          ∃ problem, Resolution.find tables r = .error problem ∧ d = problem.reportedAt r.span := by
      rw [Resolution.ofRequests_concat, Resolution.add]
      rcases Resolution.find tables r with problem | template
      · simp
      · -- a request that is found may still collide, which is reported as another kind
        have silent : ∀ previous,
            d ∉ (rebinding c.collisions r.localName r.span previous).diagnostics := by
          intro previous hd
          rw [kind_of_mem_rebinding hd] at missing
          cases missing
        simp [silent]
    refine last.trans ((or_congr_left ih).trans ?_)
    simp [or_and_right, exists_or]

namespace Linkage

/-! ## One file -/

lemma get?_exports_add (ne : id ≠ other) :
    (add c units outer l id).linked.exports.get? other = l.linked.exports.get? other := by
  rcases hu : units.get? id with _ | u
  · simp only [add, hu]
  · rw [add_eq hu]
    dsimp only
    rcases (u.document.product c l.journal.callCount
      (resolveOn c (l.bindable units u) l.linked.exports outer).1).1 with _ | p
    · rfl
    · exact Linked.get?_exports_put ne

/-- What linking some files reports about one of them, when its turn comes. -/
def reportOn (c : Config) (units : Keyed LinkUnit) (outer : Scope) (journal : Journal)
    (files : List String) (id : String) : Journal :=
  match units.get? id with
  | none => .empty
  | some u => (after c units outer journal (files.takeWhile (· != id))).own c units outer u

lemma takeWhile_append_of_mem (mem : id ∈ files) :
    (files ++ rest).takeWhile (· != id) = files.takeWhile (· != id) := by
  induction files with
  | nil => exact absurd mem List.not_mem_nil
  | cons first others ih =>
    rw [List.cons_append, List.takeWhile_cons, List.takeWhile_cons]
    by_cases same : first = id
    · simp [same]
    · rw [ih ((List.mem_cons.1 mem).resolve_left (Ne.symm same))]

/-- Files that are linked later make no difference to what is reported. -/
lemma reportOn_append (mem : id ∈ files) :
    reportOn c units outer journal (files ++ rest) id =
      reportOn c units outer journal files id := by
  unfold reportOn
  rw [takeWhile_append_of_mem mem]

/-- What is reported on a file is its journal after the files before it. -/
lemma reportOn_eq_own (fresh : id ∉ files) (hu : units.get? id = some u) :
    reportOn c units outer journal (files ++ id :: rest) id =
      (after c units outer journal files).own c units outer u := by
  have before : (files ++ id :: rest).takeWhile (· != id) = files := by
    rw [List.takeWhile_append_of_pos fun a ha => by simpa using ne_of_mem_of_not_mem ha fresh]
    simp
  unfold reportOn
  rw [hu, before]

/-! ## The run

A file is linked once, so what it reports, whether it has failed and which table it has left are
settled at its turn and do not change any more. -/

/-- A file has failed just if its report holds an error. -/
lemma mem_failed_after_iff (nodup : files.Nodup) :
    other ∈ (after c units outer journal files).failed ↔
      other ∈ files ∧ (reportOn c units outer journal files other).hasErrors = true := by
  induction files using List.reverseRecOn with
  | nil => exact ⟨fun h => absurd h List.not_mem_nil, fun h => absurd h.1 List.not_mem_nil⟩
  | append_singleton files id ih =>
    have fresh : id ∉ files := fun mem =>
      List.disjoint_of_nodup_append nodup mem List.mem_cons_self
    have before := ih nodup.of_append_left
    rw [after_concat]
    by_cases same : other = id
    · subst same
      -- the last file itself: it has failed if its own journal holds an error
      have unfailed : other ∉ (after c units outer journal files).failed :=
        fun h => fresh (before.1 h).1
      rcases hu : units.get? other with _ | u
      · simp [add, reportOn, hu, unfailed, Journal.hasErrors]
      · rw [add_eq hu, reportOn_eq_own fresh hu]
        dsimp only
        split <;> simp [*]
    · -- an earlier file: neither the failed ones nor its report change any more
      have earlier : other ∈ files ++ [id] ↔ other ∈ files := by simp [same]
      have failed : other ∈ (add c units outer (after c units outer journal files) id).failed ↔
          other ∈ (after c units outer journal files).failed := by
        rcases hu : units.get? id with _ | u
        · simp only [add, hu]
        · rw [add_eq hu]
          dsimp only
          split <;> simp [same]
      rw [failed, before, earlier]
      exact and_congr_right fun mem => by rw [reportOn_append mem]

/-- A file that is not linked yet has no table. -/
lemma get?_exports_after_of_not_mem (fresh : other ∉ files) :
    (after c units outer journal files).linked.exports.get? other = none := by
  induction files using List.reverseRecOn with
  | nil => rfl
  | append_singleton files id ih =>
    simp only [List.mem_append, List.mem_singleton, not_or] at fresh
    rw [after_concat, get?_exports_add (Ne.symm fresh.2)]
    exact ih fresh.1

/-- What a file has left as its table stays. -/
lemma get?_exports_after_append (fresh : other ∉ rest) :
    (after c units outer journal (files ++ rest)).linked.exports.get? other =
      (after c units outer journal files).linked.exports.get? other := by
  induction rest using List.reverseRecOn with
  | nil => rw [List.append_nil]
  | append_singleton rest id ih =>
    simp only [List.mem_append, List.mem_singleton, not_or] at fresh
    rw [← List.append_assoc, after_concat, get?_exports_add (Ne.symm fresh.2)]
    exact ih fresh.1

/-- All that a run reports was there before it or is reported on one of its files. -/
lemma mem_diagnostics_after_iff (nodup : files.Nodup) :
    d ∈ (after c units outer journal files).journal.diagnostics ↔
      d ∈ journal.diagnostics ∨
        ∃ id ∈ files, d ∈ (reportOn c units outer journal files id).diagnostics := by
  induction files using List.reverseRecOn with
  | nil => simp [after, start]
  | append_singleton files id ih =>
    have fresh : id ∉ files := fun mem =>
      List.disjoint_of_nodup_append nodup mem List.mem_cons_self
    have earlier : (∃ other ∈ files,
        d ∈ (reportOn c units outer journal (files ++ [id]) other).diagnostics) ↔
        ∃ other ∈ files, d ∈ (reportOn c units outer journal files other).diagnostics :=
      exists_congr fun other => and_congr_right fun mem => by rw [reportOn_append mem]
    -- one more file adds its own report to the journal, and leaves those of the others
    have last : d ∈ (after c units outer journal (files ++ [id])).journal.diagnostics ↔
        d ∈ (after c units outer journal files).journal.diagnostics ∨
          d ∈ (reportOn c units outer journal (files ++ [id]) id).diagnostics := by
      rw [after_concat]
      rcases hu : units.get? id with _ | u
      · simp [add, reportOn, hu]
      · rw [add_eq hu, reportOn_eq_own fresh hu, Journal.diagnostics_append, List.mem_append]
    rw [last, ih nodup.of_append_left, or_assoc, ← earlier]
    simp [or_and_right, exists_or]

/-! ## What is missing -/

/-- A request that is reported when its turn comes, and for what problem. -/
inductive Complains (units : Keyed LinkUnit) (l : Linkage) (r : ImportRequest) : Problem → Prop
  | unfound {problem : Problem} (sought : l.disposition units r = .bindable)
      (unfound : Resolution.find l.linked.exports r = .error problem) :
      Complains units l r problem
  | listless (unsought : l.disposition units r = .listless) :
      Complains units l r (.noExportList r.file r.member)

/-- A file's own document is read without a word on other files. -/
lemma kind_ne_of_mem_product {used : Nat} {document : Document} {scope : Scope}
    (hd : d ∈ (document.product c used scope).2.diagnostics) : d.kind ≠ .missingImport := by
  unfold Document.product at hd
  split at hd
  · exact (document.selfContained_exportsOn c scope).complete d hd
  · exact (document.selfContained_expandOn c used scope).complete d hd

lemma mem_own_iff (missing : d.kind = .missingImport) :
    d ∈ (l.own c units outer u).diagnostics ↔
      ∃ r ∈ u.requests, ∃ problem, Complains units l r problem ∧ d = problem.reportedAt r.span := by
  have unread : d ∉ (u.document.product c l.journal.callCount
      (resolveOn c (l.bindable units u) l.linked.exports outer).1).2.diagnostics :=
    fun hd => kind_ne_of_mem_product hd missing
  simp only [own, Journal.diagnostics_append, Journal.diagnostics_report, List.mem_append, unread,
    or_false, mem_resolveOn_iff missing]
  constructor
  · -- the two sources of a report are the two constructors of `Complains`
    rintro (hd | ⟨r, hr, problem, unfound, rfl⟩)
    · obtain ⟨r, hr, rfl⟩ := List.mem_map.1 hd
      obtain ⟨hr, unsought⟩ := List.mem_filter.1 hr
      exact ⟨r, hr, _, .listless (beq_iff_eq.1 unsought), rfl⟩
    · obtain ⟨hr, sought⟩ := List.mem_filter.1 hr
      exact ⟨r, hr, problem, .unfound (beq_iff_eq.1 sought) unfound, rfl⟩
  · rintro ⟨r, hr, problem, complains, rfl⟩
    cases complains with
    | unfound sought unfound =>
      exact .inr ⟨r, List.mem_filter.2 ⟨hr, beq_iff_eq.2 sought⟩, problem, unfound, rfl⟩
    | listless unsought =>
      have listed : r ∈ u.requests.filter fun r => l.disposition units r == .listless :=
        List.mem_filter.2 ⟨hr, beq_iff_eq.2 unsought⟩
      exact .inl (List.mem_map.2 ⟨r, listed, rfl⟩)

section Turn

variable {before : List String} {r : ImportRequest} {problem : Problem} {report : String → Journal}

lemma disposition_eq_bindable_iff :
    l.disposition units r = .bindable ↔
      units.has r.file = false ∨ l.linked.exports.has r.file = true := by
  unfold disposition
  rcases units.has r.file with _ | _ <;> rcases l.linked.exports.has r.file with _ | _ <;>
    by_cases failed : r.file ∈ l.failed <;> simp [failed]

lemma disposition_eq_listless_iff :
    l.disposition units r = .listless ↔
      units.has r.file = true ∧ l.linked.exports.has r.file = false ∧ r.file ∉ l.failed := by
  unfold disposition
  rcases units.has r.file with _ | _ <;> rcases l.linked.exports.has r.file with _ | _ <;>
    by_cases failed : r.file ∈ l.failed <;> simp [failed]

/-- A request is reported for what it misses at its turn, as long as the files that have failed are
those with errors in their reports. -/
lemma complains_iff_misses
    (unknown : units.has r.file = false → l.linked.exports.get? r.file = none)
    (failed : units.has r.file = true →
      (r.file ∈ l.failed ↔ (report r.file).hasErrors = true)) :
    Complains units l r problem ↔
      r.Misses (units.has · = true) l.linked.exports report problem := by
  constructor
  · intro complains
    cases complains with
    | unfound sought unfound =>
      rcases table : l.linked.exports.get? r.file with _ | table'
      · -- a request that was sought in no table is to a file that was not given
        rw [Resolution.find, table] at unfound
        obtain rfl := Except.error.inj unfound
        have absent := disposition_eq_bindable_iff.1 sought
        rw [Keyed.has_eq_false_iff.2 table] at absent
        exact .noSuchFile (by simpa using absent)
      · -- sought in a table, it can only have lacked the export
        have given : units.has r.file = true := by
          by_contra absent
          rw [unknown (Bool.eq_false_iff.2 absent)] at table
          cases table
        rw [Resolution.find, table] at unfound
        dsimp only at unfound
        split at unfound
        · next lacking =>
          obtain rfl := Except.error.inj unfound
          exact .notExported given table lacking
        · cases unfound
    | listless unsought =>
      -- the linker asks whether the file has failed, which is whether its report holds an error
      obtain ⟨given, none, unfailed⟩ := disposition_eq_listless_iff.1 unsought
      rw [failed given, Bool.not_eq_true] at unfailed
      exact .noExportList given (Keyed.has_eq_false_iff.1 none) unfailed
  · intro misses
    cases misses with
    | noSuchFile absent =>
      have absent := Bool.eq_false_iff.2 absent
      refine .unfound (disposition_eq_bindable_iff.2 (.inl absent)) ?_
      rw [Resolution.find, unknown absent]
    | notExported present linked lacking =>
      have table : l.linked.exports.has r.file = true := by
        rw [Keyed.has, linked]
        rfl
      refine .unfound (disposition_eq_bindable_iff.2 (.inr table)) ?_
      rw [Resolution.find, linked]
      dsimp only
      rw [lacking]
    | noExportList present unlinked clean =>
      have unfailed : r.file ∉ l.failed := by
        rw [failed present, clean]
        exact Bool.false_ne_true
      exact .listless (disposition_eq_listless_iff.2
        ⟨present, Keyed.has_eq_false_iff.2 unlinked, unfailed⟩)

/-- When a file's turn comes, the files that it imports have been linked, so what a request of it
misses is settled by what is linked in the end. -/
lemma complains_after_iff (nodup : (before ++ id :: rest).Nodup)
    (known : ∀ file ∈ before ++ id :: rest, units.has file = true)
    (first : units.has r.file = true → r.file ∈ before) :
    Complains units (after c units outer journal before) r problem ↔
      r.Misses (units.has · = true)
        (after c units outer journal (before ++ id :: rest)).linked.exports
        (reportOn c units outer journal (before ++ id :: rest)) problem := by
  have unlinked : units.has r.file = false → r.file ∉ before ++ id :: rest := by
    intro absent mem
    rw [known _ mem] at absent
    cases absent
  -- the file has had its turn, so no later file can change its table or its report
  have later : r.file ∉ id :: rest := by
    intro mem
    have given := known _ (List.mem_append_right _ mem)
    exact List.disjoint_of_nodup_append nodup (first given) mem
  have same : (after c units outer journal (before ++ id :: rest)).linked.exports.get? r.file =
      (after c units outer journal before).linked.exports.get? r.file :=
    get?_exports_after_append later
  rw [complains_iff_misses]
  · exact ⟨fun misses => misses.congr same.symm, fun misses => misses.congr same⟩
  · exact fun absent =>
      get?_exports_after_of_not_mem fun mem => unlinked absent (List.mem_append_left _ mem)
  · intro given
    rw [mem_failed_after_iff nodup.of_append_left, reportOn_append (first given)]
    exact and_iff_right (first given)

end Turn

end Linkage

/-! ## The whole link -/

variable {sources : List SourceFile}

/-- What a link reports on one file when its turn comes: on its requests and on what it says beyond
its import directive.  In a circle no file's turn comes. -/
def linkReport (c : Config) (sources : List SourceFile) (outer : Scope) (id : String) : Journal :=
  match (importGraph (linkUnits sources).1).order with
  | .circle _ => .empty
  | .sorted files =>
    Linkage.reportOn c (linkUnits sources).1 outer (linkStart sources files) files id

lemma linkReport_of_sorted (h : (importGraph (linkUnits sources).1).order = .sorted files) :
    linkReport c sources outer =
      Linkage.reportOn c (linkUnits sources).1 outer (linkStart sources files) files := by
  funext id
  rw [linkReport, h]

/-- Before the first file is read, nothing is missing. -/
lemma not_mem_linkStart (missing : d.kind = .missingImport) :
    d ∉ (linkUnits sources).2.diagnostics :=
  fun hd => (selfContained_linkUnits .error sources).complete d hd missing

lemma given_eq : ((linkUnits sources).1.has · = true) = (· ∈ sources.map SourceFile.id) :=
  funext fun _ => propext has_linkUnits_iff

/-- What a link reports as missing when the turn of a file comes. -/
lemma mem_linkReport_iff (order : (importGraph (linkUnits sources).1).order = .sorted files)
    (mem : id ∈ files) (missing : d.kind = .missingImport) :
    d ∈ (linkReport c sources outer id).diagnostics ↔
      ∃ u r problem, (linkUnits sources).1.get? id = some u ∧ r ∈ u.requests ∧
        r.Misses (· ∈ sources.map SourceFile.id)
          (Linkage.after c (linkUnits sources).1 outer
            (linkStart sources files) files).linked.exports
          (linkReport c sources outer) problem ∧ d = problem.reportedAt r.span := by
  obtain ⟨nodup, inside, first⟩ := ImportGraph.of_order_eq_sorted order
  have known : ∀ file ∈ files, (linkUnits sources).1.has file = true := by
    intro file hf
    rw [← has_importGraph]
    exact (inside file).1 hf
  obtain ⟨u, hu⟩ := Option.isSome_iff_exists.1 (known id mem)
  obtain ⟨before, rest, rfl⟩ := List.append_of_mem mem
  have fresh : id ∉ before := fun mem =>
    List.disjoint_of_nodup_append nodup mem List.mem_cons_self
  rw [linkReport_of_sorted order, Linkage.reportOn_eq_own fresh hu, Linkage.mem_own_iff missing,
    ← given_eq]
  -- the files that this one imports have had their turn
  have imported : ∀ r ∈ u.requests, (linkUnits sources).1.has r.file = true → r.file ∈ before :=
    fun r hr given =>
      first before id rest rfl r.file (imports_importGraph_iff.2 ⟨given, u, hu, r, hr, rfl⟩)
  constructor
  · rintro ⟨r, hr, problem, complains, rfl⟩
    have misses := (Linkage.complains_after_iff nodup known (imported r hr)).1 complains
    exact ⟨u, r, problem, hu, hr, misses, rfl⟩
  · rintro ⟨u', r, problem, hu', hr, misses, rfl⟩
    obtain rfl := Option.some.inj (hu.symm.trans hu')
    exact ⟨r, hr, problem, (Linkage.complains_after_iff nodup known (imported r hr)).2 misses, rfl⟩

lemma mem_linkOn_iff (missing : d.kind = .missingImport) :
    d ∈ (linkOn c sources outer).2.diagnostics ↔
      ∃ linked, (linkOn c sources outer).1 = some linked ∧
        ∃ id u r problem, (linkUnits sources).1.get? id = some u ∧ r ∈ u.requests ∧
          r.Misses (· ∈ sources.map SourceFile.id) linked.exports (linkReport c sources outer)
            problem ∧ d = problem.reportedAt r.span := by
  rcases order : (importGraph (linkUnits sources).1).order with files | files
  · obtain ⟨nodup, inside, _⟩ := ImportGraph.of_order_eq_sorted order
    have started : d ∉ (linkStart sources files).diagnostics := by
      simpa [linkStart] using not_mem_linkStart missing
    rw [linkOn_of_sorted c outer order, Linkage.mem_diagnostics_after_iff nodup,
      ← linkReport_of_sorted order]
    simp only [started, false_or, Option.some.injEq, exists_eq_left']
    constructor
    · rintro ⟨id, mem, hd⟩
      exact ⟨id, (mem_linkReport_iff order mem missing).1 hd⟩
    · rintro ⟨id, u, r, problem, hu, misses⟩
      have mem : id ∈ files := by
        rw [inside, has_importGraph, Keyed.has, hu]
        rfl
      exact ⟨id, mem, (mem_linkReport_iff order mem missing).2 ⟨u, r, problem, hu, misses⟩⟩
  · -- in a circle nothing is linked, and all that is reported is the circle
    have circle : linkOn c sources outer = (none, (linkUnits sources).2 ++
        .report [(Problem.importCycle files).diagnostic none]) := by
      simp only [linkOn, order]
    have other : d ≠ (Problem.importCycle files).diagnostic none := by
      rintro rfl
      cases missing
    simp [circle, not_mem_linkStart missing, other]

/-- **What a link reports as missing.**  A request of a file is reported as missing just if its file
is not among the given ones, or has a table without the requested export, or was read without an
error and has no export list.  What is requested of a file that has failed and left no table is not
reported. -/
theorem missing_imports_iff (c : Config) (sources : List SourceFile) (outer : Scope)
    (d : Diagnostic) :
    d ∈ (linkOn c sources outer).2.diagnostics ∧ d.kind = .missingImport ↔
      ∃ linked, (linkOn c sources outer).1 = some linked ∧
        ∃ id u r problem, (linkUnits sources).1.get? id = some u ∧ r ∈ u.requests ∧
          r.Misses (· ∈ sources.map SourceFile.id) linked.exports (linkReport c sources outer)
            problem ∧ d = problem.reportedAt r.span := by
  constructor
  · rintro ⟨hd, missing⟩
    exact (mem_linkOn_iff missing).1 hd
  · rintro ⟨linked, value, id, u, r, problem, hu, hr, misses, rfl⟩
    have missing : (problem.reportedAt r.span).kind = .missingImport := misses.kind_eq
    exact ⟨(mem_linkOn_iff missing).2 ⟨linked, value, id, u, r, problem, hu, hr, misses, rfl⟩,
      missing⟩

/-- A file whose only declaration, which it exports, has no body. -/
def SourceFile.bodiless : SourceFile where
  id := "lib"
  document := ⟨[.bare "box" [], .naming exportWord "box"], .none⟩

/-- A page that asks for what the file exports. -/
def SourceFile.bodilessPage : SourceFile where
  id := "page"
  document := ⟨[.naming importWord "lib/box", .bare "page" []], .none⟩

/-- A file that fails with a table has what is missing from the table reported a second time, in the
file that requests it. -/
theorem failed_file_is_reported_twice :
    ∃ d ∈ (linkOn .default [.bodilessPage, .bodiless] .root).2.diagnostics,
      d.kind = .missingImport ∧
      ∀ id u r, (linkUnits [.bodilessPage, .bodiless]).1.get? id = some u → r ∈ u.requests →
        r.file ∈ [SourceFile.bodilessPage, .bodiless].map SourceFile.id ∧
        (linkReport .default [.bodilessPage, .bodiless] .root r.file).hasErrors = true := by
  have graph : importGraph (linkUnits [.bodilessPage, .bodiless]).1 =
      [("page", ["lib"]), ("lib", [])] := by
    decide +kernel
  have order : (importGraph (linkUnits [.bodilessPage, .bodiless]).1).order =
      .sorted ["lib", "page"] := by
    rw [graph]
    exact ImportGraph.order_pair (by decide)
  have reported : (linkOn .default [.bodilessPage, .bodiless] .root).2.diagnostics.any
      (fun d => d.kind = .missingImport) = true := by
    rw [linkOn_of_sorted .default .root order]
    decide +kernel
  obtain ⟨d, hd, missing⟩ := List.any_eq_true.1 reported
  refine ⟨d, hd, of_decide_eq_true missing, ?_⟩
  intro id u r hu hr
  -- the only request is to the file that has failed, and that file is among the given ones
  have requested : r.file = "lib" := by
    have known : ∀ pair ∈ (linkUnits [.bodilessPage, .bodiless]).1, ∀ r ∈ pair.2.requests,
        r.file = "lib" := by decide +kernel
    exact known (id, u) (Keyed.mem_of_get? hu) r hr
  rw [requested, linkReport_of_sorted order]
  decide +kernel

end Stencil
