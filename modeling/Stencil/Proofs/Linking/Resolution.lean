import Mathlib.Data.List.Basic
import Mathlib.Data.List.Induction
import Stencil.Proofs.Keyed
import Stencil.Proofs.Outcome.Graded

/-!
# Requests that are resolved

Resolving requests reads nothing of the other files but the tables of those that are requested
(`resolveOn_congr`).  When it reports no error, every requested template was found, and the scope
binds a template to the name of every request, so an expansion on that scope has no unresolved
imports left (`unresolvedImports_resolveOn`).

The induction is along the requests from the first on, as they are resolved: an error of an earlier
request is still there in the end, so a clean journal was clean all the way (`add_of_clean`).
-/

namespace Stencil

variable {c : Config} {tables tables' : Keyed ExportTable} {outer : Scope}
variable {requests : List ImportRequest}

namespace Resolution

/-- What some requests bind, and the journal. -/
def ofRequests (c : Config) (tables : Keyed ExportTable) (outer : Scope)
    (requests : List ImportRequest) : Resolution :=
  requests.foldl (add c tables outer) ⟨[], .empty⟩

lemma ofRequests_concat (requests : List ImportRequest) (r : ImportRequest) :
    ofRequests c tables outer (requests ++ [r]) =
      add c tables outer (ofRequests c tables outer requests) r := by
  rw [ofRequests, List.foldl_append]
  rfl

lemma find_congr {r : ImportRequest} (same : tables.get? r.file = tables'.get? r.file) :
    find tables r = find tables' r := by
  rw [find, same, find]

lemma ofRequests_congr (same : ∀ r ∈ requests, tables.get? r.file = tables'.get? r.file) :
    ofRequests c tables outer requests = ofRequests c tables' outer requests := by
  apply List.foldl_ext
  intro done r hr
  rw [add, find_congr (same r hr), add]

lemma calls_ofRequests : (ofRequests c tables outer requests).journal.calls = [] := by
  refine List.foldlRecOn (motive := fun done => done.journal.calls = []) requests
    (add c tables outer) ?_ fun done h r _ => ?_
  · rfl
  · rw [add]
    split
    · simp [h]
    · next template _ =>
      simp only [Journal.calls_append, h, List.nil_append]
      unfold rebinding
      split <;> simp

/-- A request that is added without an error was found. -/
lemma exists_find_of_clean {done : Resolution} {r : ImportRequest}
    (clean : (add c tables outer done r).journal.hasErrors = false) :
    done.journal.hasErrors = false ∧ ∃ template, find tables r = .ok template := by
  rw [add] at clean
  rcases found : find tables r with problem | template
  · simp only [found, Journal.hasErrors_append, Bool.or_eq_false_iff] at clean
    have fault : Diagnostic.AreFaults [problem.reportedAt r.span] := by
      simp [kind_of_find found]
    exact absurd ((Journal.hasErrors_report_eq_false_iff fault).1 clean.2) (List.cons_ne_nil _ _)
  · simp only [found, Journal.hasErrors_append, Bool.or_eq_false_iff] at clean
    exact ⟨clean.1, template, rfl⟩

/-- The name of a request that is added without an error is bound to a template. -/
lemma add_of_clean {done : Resolution} {r : ImportRequest}
    (clean : (add c tables outer done r).journal.hasErrors = false) :
    done.journal.hasErrors = false ∧ tables.has r.file = true ∧ ∃ binding : Binding,
      binding.isTemplate = true ∧
        (add c tables outer done r).bound = done.bound.put r.localName binding := by
  obtain ⟨silent, template, found⟩ := exists_find_of_clean clean
  rw [add, found]
  refine ⟨silent, ?_, _, rfl, rfl⟩
  unfold find at found
  rcases table : tables.get? r.file with _ | table'
  · rw [table] at found
    cases found
  · rw [Keyed.has, table]
    rfl

/-- When no error is reported, every requested file has a table, and the name of every request
is bound to a template. -/
lemma of_clean (clean : (ofRequests c tables outer requests).journal.hasErrors = false) :
    (∀ r ∈ requests, tables.has r.file = true ∧
      (ofRequests c tables outer requests).bound.has r.localName = true) ∧
    ∀ pair ∈ (ofRequests c tables outer requests).bound, pair.2.isTemplate = true := by
  induction requests using List.reverseRecOn with
  | nil => exact ⟨fun r hr => absurd hr List.not_mem_nil, fun p hp => absurd hp List.not_mem_nil⟩
  | append_singleton requests r ih =>
    rw [ofRequests_concat] at clean ⊢
    obtain ⟨clean', table, binding, template, bound⟩ := add_of_clean clean
    obtain ⟨named, templates⟩ := ih clean'
    rw [bound]
    -- what was bound before stays bound, be it to another template when a name is bound again
    constructor
    · intro r' hr
      rw [Keyed.has_put]
      rcases List.mem_append.1 hr with hr | hr
      · obtain ⟨table', has⟩ := named r' hr
        exact ⟨table', by simp [has]⟩
      · rw [List.mem_singleton.1 hr]
        exact ⟨table, by simp⟩
    · intro pair hp
      rcases Keyed.mem_put hp with hp | rfl
      · exact templates pair hp
      · exact template

end Resolution

open Resolution

lemma resolveOn_eq :
    resolveOn c requests tables outer =
      (outer.extend (ofRequests c tables outer requests).bound .imports,
        (ofRequests c tables outer requests).journal ++
          .line .log ("imported " ++ toString (ofRequests c tables outer requests).bound.length ++
            "/" ++ toString requests.length ++ " templates")) :=
  rfl

/-- **Resolving requests reads the tables of the requested files**, and no others. -/
theorem resolveOn_congr (same : ∀ r ∈ requests, tables.get? r.file = tables'.get? r.file) :
    resolveOn c requests tables outer = resolveOn c requests tables' outer := by
  rw [resolveOn_eq, ofRequests_congr same, resolveOn_eq]

@[simp] lemma calls_resolveOn : (resolveOn c requests tables outer).2.calls = [] := by
  rw [resolveOn_eq, Journal.calls_append, calls_ofRequests]
  rfl

section Clean

variable (clean : (resolveOn c requests tables outer).2.hasErrors = false)
include clean

lemma hasErrors_ofRequests :
    (ofRequests c tables outer requests).journal.hasErrors = false := by
  rw [resolveOn_eq, Journal.hasErrors_append, Bool.or_eq_false_iff] at clean
  exact clean.1

lemma has_of_resolved {r : ImportRequest} (hr : r ∈ requests) : tables.has r.file = true :=
  ((of_clean (hasErrors_ofRequests clean)).1 r hr).1

lemma isResolved_resolveOn {r : ImportRequest} (hr : r ∈ requests) :
    Document.isResolved (resolveOn c requests tables outer).1 r = true := by
  obtain ⟨named, templates⟩ := of_clean (hasErrors_ofRequests clean)
  obtain ⟨_, has⟩ := named r hr
  obtain ⟨binding, found, mem⟩ := Keyed.exists_get?_ofPairs (Keyed.mem_names_of_has has)
  have lookup : (resolveOn c requests tables outer).1.lookup r.localName = some binding := by
    rw [resolveOn_eq, Scope.extend, Scope.lookup, found]
  rw [Document.isResolved, List.any_cons, lookup, Option.any_some, templates _ mem, Bool.true_or]

end Clean

/-! ## The requests of a document -/

/-- The requests of a document are read just if nothing is wrong with its directive. -/
lemma importRequests_done_iff {d : Document} :
    (∃ info, d.importRequests.outcome = .done requests info) ↔
      ImportRequest.ofDocument d = (requests, []) := by
  have faults := ImportRequest.areFaults_ofDocument d
  constructor
  · rintro ⟨info, done⟩
    obtain ⟨value, clean, _⟩ := Run.of_done (Journal.graded_report (p := .error) faults) done
    exact Prod.ext (Option.some.inj value) ((Journal.hasErrors_report_eq_false_iff faults).1 clean)
  · intro read
    rw [Document.importRequests, read]
    exact ⟨_, Run.done_of_clean rfl⟩

lemma unresolvedImports_eq (d : Document) (outer : Scope) :
    d.unresolvedImports outer = (ImportRequest.ofDocument d).2 ++
      ((ImportRequest.ofDocument d).1.filter fun r => !Document.isResolved outer r).map fun r =>
        (Problem.unresolvedImport r.file r.member).reportedAt r.span :=
  rfl

/-- A document whose requests are resolved has no unresolved imports. -/
lemma unresolvedImports_resolveOn {d : Document}
    (directive : (ImportRequest.ofDocument d).2 = [])
    (clean : (resolveOn c (ImportRequest.ofDocument d).1 tables outer).2.hasErrors = false) :
    d.unresolvedImports (resolveOn c (ImportRequest.ofDocument d).1 tables outer).1 = [] := by
  have resolved : (ImportRequest.ofDocument d).1.filter (fun r => !Document.isResolved
      (resolveOn c (ImportRequest.ofDocument d).1 tables outer).1 r) = [] := by
    apply List.filter_eq_nil_iff.2
    intro r hr
    rw [isResolved_resolveOn clean hr]
    exact Bool.false_ne_true
  rw [unresolvedImports_eq, directive, resolved]
  rfl

end Stencil
