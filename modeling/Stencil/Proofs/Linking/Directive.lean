import Stencil.Proofs.Scope.Outer
import Stencil.Proofs.Scope.Visible

/-!
# Exports that a directive can ask for

A template comes out of a file under an exported name, and it comes into a document under a
qualified one.  Composing a table joins the file and the exported name with a slash; a directive is
split at its last slash.  The two agree as long as the exported name is a name that a qualified name
can end in: not empty, and without a slash of its own (`QualifiedName.ofString?_text_iff`).

An exported name can be any string, however, for instance the qualified name of a template that was
itself imported.  For the others a directive brings in what composing brings in
(`directive_brings_export`); for these it finds nothing (`not_done_of_asksFor`).
-/

namespace Stencil

/-! ## Spelled names -/

namespace QualifiedName

lemma splitLast_eq_none_iff {text : List Char} : splitLast text = none ↔ '/' ∉ text := by
  induction text with
  | nil => simp [splitLast]
  | cons c rest ih =>
    rw [splitLast, List.mem_cons, not_or, ← ih]
    rcases splitLast rest with _ | _
    · by_cases slash : c = '/'
      · simp [slash]
      · simp [slash, Ne.symm slash]
    · simp

/-- The last slash of a text is the one that no other follows. -/
lemma splitLast_eq_some_iff {text before after : List Char} :
    splitLast text = some (before, after) ↔ text = before ++ '/' :: after ∧ '/' ∉ after := by
  constructor
  · intro h
    -- that the parts make up the text is known; that no slash follows is an induction along the
    -- text, since a slash further on would have been taken instead
    refine ⟨append_of_splitLast h, ?_⟩
    induction text generalizing before with
    | nil => cases h
    | cons c rest ih =>
      rw [splitLast] at h
      rcases found : splitLast rest with _ | ⟨_, _⟩
      · rw [found] at h
        by_cases slash : c = '/'
        · rw [if_pos slash, Option.some.injEq, Prod.mk.injEq] at h
          obtain ⟨_, rfl⟩ := h
          exact splitLast_eq_none_iff.1 found
        · rw [if_neg slash] at h
          cases h
      · rw [found, Option.some.injEq, Prod.mk.injEq] at h
        obtain ⟨_, rfl⟩ := h
        exact ih found
  · rintro ⟨rfl, last⟩
    -- the split passes over each character in front, as there is a slash after it
    induction before with
    | nil =>
      rw [List.nil_append, splitLast, splitLast_eq_none_iff.2 last]
      rfl
    | cons c rest ih => rw [List.cons_append, splitLast, ih]

/-- A file and a member of it that the text of their qualified name tells apart.  The file may have
slashes of its own: only the last one of the text parts it from the member. -/
structure IsSpelled (q : QualifiedName) : Prop where
  file : q.file ≠ ""
  member : q.member ≠ ""
  unslashed : '/' ∉ q.member.toList

/-- **A text spells the qualified name that it is the text of** just if neither part is empty and
the member has no slash. -/
theorem ofString?_text_iff {q : QualifiedName} : ofString? q.text = some q ↔ q.IsSpelled := by
  have parts : q.text.toList = q.file.toList ++ '/' :: q.member.toList := by
    simp [QualifiedName.text]
  constructor
  · intro spelled
    unfold ofString? at spelled
    split at spelled
    · next c file d member split =>
      obtain rfl := Option.some.inj spelled
      have last := (splitLast_eq_some_iff.1 split).2
      exact ⟨by simp, by simp, by simpa using last⟩
    · cases spelled
  · rintro ⟨file, member, unslashed⟩
    have split : splitLast q.text.toList = some (q.file.toList, q.member.toList) :=
      splitLast_eq_some_iff.2 ⟨parts, unslashed⟩
    -- neither part is empty, so the split is not refused, and what it gives are the two parts
    -- again
    obtain ⟨c, before, hc⟩ := List.exists_cons_of_ne_nil (mt String.toList_eq_nil_iff.1 file)
    obtain ⟨d, after, hd⟩ := List.exists_cons_of_ne_nil (mt String.toList_eq_nil_iff.1 member)
    rw [hc, hd] at split
    unfold ofString?
    rw [split]
    show some (QualifiedName.mk (String.ofList (c :: before)) (String.ofList (d :: after))) = some q
    rw [← hc, ← hd, String.ofList_toList, String.ofList_toList]

end QualifiedName

/-! ## Tables -/

lemma nodup_eraseDups (names : List String) : names.eraseDups.Nodup := by
  induction h : names.length using Nat.strongRecOn generalizing names with
  | _ length ih =>
    cases names with
    | nil => exact List.nodup_nil
    | cons name rest =>
      have shorter := List.length_filter_le (fun other => !other == name) rest
      rw [List.eraseDups_cons, List.nodup_cons]
      refine ⟨?_, ih _ ?_ _ rfl⟩
      · rw [List.mem_eraseDups, List.mem_filter]
        simp
      · rw [← h, List.length_cons]
        omega

namespace ExportTable

lemma names_ofNames_sublist (s : Scope) (names : List String) :
    (Keyed.names (ofNames s names)).Sublist names := by
  induction names with
  | nil => exact List.Sublist.slnil
  | cons name rest ih =>
    rw [ofNames, List.filterMap_cons]
    split
    · exact ih.cons name
    · next made =>
      split at made
      · obtain rfl := Option.some.inj made
        exact ih.cons_cons name
      · cases made

lemma nodup_addEntry {s : Scope} {read : ExportTable × List Diagnostic}
    (h : (Keyed.names read.1).Nodup) (e : Entry) : (Keyed.names (addEntry s read e).1).Nodup := by
  unfold addEntry
  dsimp only
  split
  · split
    · next template _ _ _ _ =>
      split
      · exact h
      · rcases template with _ | t
        · exact h
        · exact Keyed.nodup_put h _ t
    · exact h
  · exact h

end ExportTable

/-- A table has each exported name once. -/
lemma nodup_of_exports {c : Config} {d : Document} {outer : Scope} {table : ExportTable}
    {info : RunInfo} (done : (d.collectExports c outer).outcome = .done table info) :
    (Keyed.names table).Nodup := by
  obtain ⟨value, _, _⟩ := Run.of_done (d.graded_exportsOn c outer) done
  rcases terminal : d.terminal? with _ | terminal'
  · simp [terminal] at value
  · rcases list : terminal'.isExportList with _ | _
    · simp only [terminal, list] at value
      obtain rfl := Option.some.inj value
      exact (nodup_eraseDups _).sublist (ExportTable.names_ofNames_sublist _ _)
    · simp only [terminal, list] at value
      obtain rfl := Option.some.inj value
      exact List.foldlRecOn
        (motive := fun read : ExportTable × List Diagnostic => (Keyed.names read.1).Nodup) _ _
        List.nodup_nil fun _ nodup e _ => ExportTable.nodup_addEntry nodup e

section Composed

variable {c : Config} {s : Scope} {table : ExportTable} {file name : String} {t : Template}

/-- A composed scope binds a qualified name to what the table has under the exported one. -/
lemma lookup_composed (nodup : (Keyed.names table).Nodup) (offered : table.get? name = some t) :
    (s.extend (table.bindings file) .imports).lookup (QualifiedName.text ⟨file, name⟩) =
      some (.template (some t) .imported (some file) t.span) := by
  have named : QualifiedName.text ⟨file, name⟩ ∈ (table.bindings file).map Prod.fst :=
    List.mem_map.2 ⟨_, List.mem_map_of_mem (Keyed.mem_of_get? offered), rfl⟩
  obtain ⟨b, found, bound⟩ := Keyed.exists_get?_ofPairs named
  obtain ⟨⟨other, t'⟩, member, same⟩ := List.mem_map.1 bound
  obtain ⟨text, rfl⟩ := Prod.mk.inj same
  obtain rfl : other = name := by simpa [QualifiedName.text] using text
  obtain rfl : t' = t :=
    Option.some.inj (((Keyed.get?_eq_some_iff nodup).2 member).symm.trans offered)
  rw [Scope.lookup_extend, found]
  rfl

end Composed

/-! ## Directives -/

/-- A document whose directive asks for one template, by its qualified name. -/
def Document.AsksFor (d : Document) (q : QualifiedName) : Prop :=
  ∃ directive e, d.importDirective? = some directive ∧ directive.entries = [e] ∧
    directive.children = [] ∧ e.name = none ∧ e.value.inner = .string q.text

section Asking

variable {c : Config} {d : Document} {q q' : QualifiedName} {s : Scope} {table : ExportTable}
variable {t : Template}

/-- What is asked for is what the text of the qualified name spells. -/
lemma ofDocument_of_asksFor (asks : d.AsksFor q) :
    ∃ span place, ImportRequest.ofDocument d =
      match QualifiedName.ofString? q.text with
      | some q' => ([⟨q.text, q'.file, q'.member, span⟩], [])
      | none => ([], [(Problem.importNotQualified (.string q.text)).reportedAt place]) := by
  obtain ⟨directive, ⟨_, ⟨_, place⟩, span⟩, opens, entries, children, rfl, rfl⟩ := asks
  refine ⟨span, span, ?_⟩
  rw [ImportRequest.ofDocument, opens]
  dsimp only
  rw [ImportRequest.ofDirective, entries, children, List.map_singleton, ImportRequest.ofEntry]
  dsimp only
  rcases QualifiedName.ofString? q.text with _ | q'
  · rfl
  · rfl

/-- A request for what a file has is resolved under a scope where its name is unbound. -/
lemma exists_done_resolveImports {r : ImportRequest} {tables : Keyed ExportTable}
    (given : tables.get? r.file = some table) (offered : table.get? r.member = some t)
    (unbound : s.lookup r.localName = none) (c : Config) :
    ∃ scope info, (resolveImports c [r] tables s).outcome = .done scope info ∧
      scope.lookup r.localName = some (.template (some t) .imported (some r.file) r.span) := by
  have found : Resolution.find tables r = .ok t := by
    rw [Resolution.find, given]
    dsimp only
    rw [offered]
  -- a single request: found, bound under a name that was not taken, and nothing to report
  have resolved : Resolution.ofRequests c tables s [r] =
      ⟨[(r.localName, .template (some t) .imported (some r.file) r.span)], .empty⟩ := by
    rw [Resolution.ofRequests, List.foldl_cons, List.foldl_nil, Resolution.add, found]
    dsimp only
    rw [unbound]
    rfl
  have silent : (resolveOn c [r] tables s).2.hasErrors = false := by
    rw [resolveOn_eq, resolved]
    rfl
  have lookup : (resolveOn c [r] tables s).1.lookup r.localName =
      some (.template (some t) .imported (some r.file) r.span) := by
    rw [resolveOn_eq, resolved, Scope.lookup_extend]
    simp [Keyed.ofPairs, Keyed.put, Keyed.get?_cons]
  exact ⟨_, _, Run.done_of_clean silent, lookup⟩

/-- A request for what no table has is not resolved. -/
lemma isDone_resolveImports_eq_false {r : ImportRequest} {tables : Keyed ExportTable}
    {problem : Problem} (missing : Resolution.find tables r = .error problem) (c : Config)
    (s : Scope) : (resolveImports c [r] tables s).outcome.isDone = false := by
  rcases ended : (resolveImports c [r] tables s).outcome with ⟨_, _⟩ | _
  · obtain ⟨_, clean, _⟩ := Run.of_done (graded_resolveOn c [r] tables s) ended
    obtain ⟨_, template, found⟩ := Resolution.exists_find_of_clean (hasErrors_ofRequests clean)
    rw [missing] at found
    cases found
  · rfl

end Asking

/-- **A directive brings in what composing brings in.**  A file exports a template under a name that
is not empty and has no slash.  Under a scope that binds no name of the file, a directive that asks
for the template is read and resolved against the table of the file, and the qualified name is bound
to the template, as an import from the file.  Composing the table binds it to the same. -/
theorem directive_brings_export {c₀ : Config} {source : Document} {outer : Scope}
    {table : ExportTable} {info : RunInfo}
    (exported : (source.collectExports c₀ outer).outcome = .done table info)
    {q : QualifiedName} (spelled : q.IsSpelled) {t : Template}
    (offered : table.get? q.member = some t) {s : Scope}
    (unbound : ∀ member, s.lookup (QualifiedName.text ⟨q.file, member⟩) = none)
    {d : Document} (asks : d.AsksFor q) (c c' : Config) :
    ∃ requests i, d.importRequests.outcome = .done requests i ∧
      ∃ scope i, (resolveImports c requests [(q.file, table)] s).outcome = .done scope i ∧
      ∃ composed i, (s.compose c' table q.file).outcome = .done composed i ∧
      ∃ span span', scope.lookup q.text = some (.template (some t) .imported (some q.file) span) ∧
        composed.lookup q.text = some (.template (some t) .imported (some q.file) span') := by
  obtain ⟨span, _, read⟩ := ofDocument_of_asksFor asks
  rw [QualifiedName.ofString?_text_iff.2 spelled] at read
  obtain ⟨i, requested⟩ := importRequests_done_iff.2 read
  have given : Keyed.get? [(q.file, table)] q.file = some table := by
    rw [Keyed.get?_cons, if_pos rfl]
  -- the resolved request and the composed table both bind the name of the request, to the same
  -- export
  obtain ⟨scope, i', resolved, bound⟩ := exists_done_resolveImports
    (r := ⟨q.text, q.file, q.member, span⟩) given offered (unbound q.member) c
  obtain ⟨i'', composed⟩ := exists_done_compose (fun pair _ => unbound pair.1) c'
  exact ⟨_, i, requested, scope, i', resolved, _, i'', composed, span, t.span, bound,
    lookup_composed (nodup_of_exports exported) offered⟩

/-- A file that exports a box under a name. -/
def Document.exporting (name : String) : Document where
  nodes := [.bare "box" [.bare "rect" []],
    ⟨⟨exportWord, .none⟩, [⟨some ⟨name, .none⟩, ⟨.string "box", .none⟩, .none⟩], [], .none⟩]
  span := .none

/-- A page that asks for one template. -/
def Document.asking (q : QualifiedName) : Document :=
  ⟨[.naming importWord q.text, .bare "page" []], .none⟩

lemma exists_done_exporting (name : String) : ∃ t info,
    ((Document.exporting name).collectExports .default .root).outcome = .done [(name, t)] info :=
  ⟨_, _, rfl⟩

lemma Document.asksFor_asking (q : QualifiedName) : (Document.asking q).AsksFor q :=
  ⟨_, _, rfl, rfl, rfl, rfl, rfl⟩

/-- A box that is exported under its own name can be asked for. -/
theorem box_is_brought : ∃ table info t,
    ((Document.exporting "box").collectExports .default .root).outcome = .done table info ∧
    table.get? "box" = some t ∧ ∃ requests i,
      (Document.asking ⟨"shapes", "box"⟩).importRequests.outcome = .done requests i ∧
      ∃ scope i, (resolveImports .default requests [("shapes", table)] .root).outcome =
        .done scope i ∧
      ∃ composed i, (Scope.root.compose .default table "shapes").outcome = .done composed i ∧
      ∃ span span',
        scope.lookup "shapes/box" = some (.template (some t) .imported (some "shapes") span) ∧
        composed.lookup "shapes/box" =
          some (.template (some t) .imported (some "shapes") span') := by
  obtain ⟨t, info, exported⟩ := exists_done_exporting "box"
  have spelled : (QualifiedName.mk "shapes" "box").IsSpelled :=
    ⟨by decide, by decide, by decide⟩
  exact ⟨_, info, t, exported, rfl, directive_brings_export exported spelled rfl (fun _ => rfl)
    (Document.asksFor_asking _) .default .default⟩

/-- **No directive brings in an export whose name is empty or has a slash**: it is not read, or it
is read as asking for something of another file. -/
theorem not_done_of_asksFor {table : ExportTable} {q : QualifiedName} (unspelled : ¬q.IsSpelled)
    (s : Scope) {d : Document} (asks : d.AsksFor q) {requests : List ImportRequest} {i : RunInfo}
    (requested : d.importRequests.outcome = .done requests i) (c : Config) :
    (resolveImports c requests [(q.file, table)] s).outcome.isDone = false := by
  obtain ⟨span, _, read⟩ := ofDocument_of_asksFor asks
  rw [importRequests_done_iff.1 ⟨i, requested⟩] at read
  rcases found : QualifiedName.ofString? q.text with _ | q'
  · rw [found] at read
    cases read
  · rw [found] at read
    obtain ⟨rfl, _⟩ := Prod.mk.inj read
    -- what was read is spelled by the same text, so with the same file it would have the same
    -- member, and the name would be spelled
    have elsewhere : q.file ≠ q'.file := by
      rintro same
      obtain ⟨file, member⟩ := q
      obtain ⟨file', member'⟩ := q'
      obtain rfl : file = file' := same
      obtain rfl : member' = member := by
        simpa [QualifiedName.text] using QualifiedName.text_of_ofString? found
      exact unspelled (QualifiedName.ofString?_text_iff.1 found)
    have missing : Resolution.find [(q.file, table)] ⟨q.text, q'.file, q'.member, span⟩ =
        .error (.noSuchFile q'.file q'.member) := by
      rw [Resolution.find, Keyed.get?_cons, if_neg elsewhere]
      rfl
    exact isDone_resolveImports_eq_false missing c s

/-- A box that is exported under a name with a slash cannot be asked for. -/
theorem slashed_box_is_not_brought : ∃ table info t,
    ((Document.exporting "a/b").collectExports .default .root).outcome = .done table info ∧
    table.get? "a/b" = some t ∧
    (∀ member, Scope.root.lookup (QualifiedName.text ⟨"shapes", member⟩) = none) ∧
    (Document.asking ⟨"shapes", "a/b"⟩).AsksFor ⟨"shapes", "a/b"⟩ ∧ ∃ requests i,
      (Document.asking ⟨"shapes", "a/b"⟩).importRequests.outcome = .done requests i ∧
      (resolveImports .default requests [("shapes", table)] .root).outcome.isDone = false := by
  obtain ⟨t, info, exported⟩ := exists_done_exporting "a/b"
  have asks := Document.asksFor_asking ⟨"shapes", "a/b"⟩
  have read : ImportRequest.ofDocument (.asking ⟨"shapes", "a/b"⟩) =
      ([⟨"shapes/a/b", "shapes/a", "b", .none⟩], []) := by decide
  obtain ⟨i, requested⟩ := importRequests_done_iff.2 read
  refine ⟨_, info, t, exported, rfl, fun _ => rfl, asks, _, i, requested, ?_⟩
  exact not_done_of_asksFor (fun spelled => absurd spelled.unslashed (by decide)) .root asks
    requested .default

end Stencil
