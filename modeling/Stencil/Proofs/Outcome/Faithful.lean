import Stencil.Proofs.Document.Budget
import Stencil.Proofs.Linking.Product
import Stencil.Proofs.Scope.Outer

/-!
# Outcomes are faithful

The outcome of an operation says what its run reported, no more and no less
(`Outcome.Faithful`): it is a failure exactly if an error was reported, a failure carries every
error, and the warnings are those of the run, each once and in the order of first report.

Two things stand in the way.  Repeats are merged before errors are told from warnings, so an error
might be merged into a warning; but the kind settles the severity in a run, and merging goes by
sorts (`Journal.Graded.filter_distinct`).  And a run can end without a value; then an error must
have been reported (`Run.faithful`), or the failure would have no reason of its own.
-/

namespace Stencil

open Diagnostic Journal

namespace Journal

/-- The diagnostics of a severity that a journal reports, each once, in the order of first
report. -/
def reported (j : Journal) (severity : Severity) : List Diagnostic :=
  (j.diagnostics.filter fun d => d.severity == severity).eraseDupsBy isRepeat

variable {j : Journal} {p : CollisionPolicy} {d : Diagnostic}

lemma Graded.filter_distinct (graded : j.Graded p) (severity : Severity) :
    (distinct j.diagnostics).filter (fun d => d.severity == severity) = j.reported severity := by
  rw [reported, ← distinct_eq_eraseDupsBy]
  apply Diagnostic.filter_distinct
  intro a ha b hb same
  rw [graded a ha, graded b hb, kind_eq_of_isRepeat same]

/-- What is not an error is a warning. -/
lemma Graded.not_isError (graded : j.Graded p) (h : d ∈ j.diagnostics) :
    (!d.isError) = (d.severity == .warning) := by
  rw [isError, graded d h, CollisionPolicy.severity]
  split <;> rfl

end Journal

namespace Outcome

variable {α : Type}

/-- What an outcome knows of its run beside the value. -/
def info : Outcome α → RunInfo
  | .done _ info => info
  | .fail _ info => info

/-- An outcome that says what a journal reports, with a reason for failures.  The internal reason is
for a failure without an error, so excluding it says that every failure can be explained to its
reader. -/
structure Faithful (o : Outcome α) (reason : FailureReason) (j : Journal) : Prop where
  isFail_iff : o.isFail = true ↔ ∃ d ∈ j.diagnostics, d.severity = .error
  failure : ∀ f i, o = .fail f i →
    f.reason = reason ∧ f.reason ≠ .internal ∧ f.diagnostics = j.reported .error
  warnings : o.info.warnings = j.reported .warning

end Outcome

namespace Run

variable {α : Type} {value : Option α} {j : Journal} {reason : FailureReason} {info : RunInfo}
variable {p : CollisionPolicy}

lemma reported_ne_nil (h : j.hasErrors = true) : j.reported .error ≠ [] := by
  obtain ⟨d, hd, error⟩ := List.any_eq_true.1 h
  have mem : d ∈ j.diagnostics.filter fun d => d.severity == .error :=
    List.mem_filter.2 ⟨hd, error⟩
  rw [reported]
  rcases errors : j.diagnostics.filter (fun d => d.severity == .error) with _ | ⟨first, rest⟩
  · rw [errors] at mem
    exact absurd mem List.not_mem_nil
  · rw [errors, List.eraseDupsBy_cons]
    exact List.cons_ne_nil _ _

/-- A run that reports an error fails with all that it reports, whatever its value. -/
lemma fail_of_errors (graded : j.Graded p) (h : j.hasErrors = true) :
    (Run.ofJournal value j reason info).outcome =
      .fail (.ofReason reason (Outcome.summary (j.reported .error)) (j.reported .error))
        (info.withWarnings j) := by
  have errors : (distinct j.diagnostics).filter isError = j.reported .error :=
    graded.filter_distinct .error
  have nonempty := reported_ne_nil h
  unfold Run.ofJournal Outcome.ofDiagnostics RunInfo.withWarnings
  dsimp only
  rw [errors]
  split
  · exact absurd ‹_› nonempty
  · exact absurd ‹_› nonempty
  · rfl

/-- **The outcome of a run is faithful** if severities go by kinds and a run without an error has a
value. -/
theorem faithful (graded : j.Graded p) (own : reason ≠ .internal)
    (valued : j.hasErrors = false → ∃ v, value = some v) :
    (Run.ofJournal value j reason info).outcome.Faithful reason j := by
  have warnings : ((distinct j.diagnostics).filter fun d => !d.isError) = j.reported .warning := by
    rw [← graded.filter_distinct]
    exact List.filter_congr fun d hd => graded.not_isError (mem_of_mem_distinct hd)
  have reports : j.hasErrors = true ↔ ∃ d ∈ j.diagnostics, d.severity = .error := by
    simp [hasErrors, isError]
  -- without an error there is a value, and the run is done; with one it fails, whatever the value
  rcases errors : j.hasErrors with _ | _
  · obtain ⟨v, rfl⟩ := valued errors
    rw [done_of_clean errors]
    refine ⟨?_, ?_, warnings⟩
    · rw [← reports, errors]
      rfl
    · intro f i failed
      cases failed
  · rw [fail_of_errors graded errors]
    refine ⟨?_, ?_, warnings⟩
    · rw [← reports, errors]
      rfl
    · rintro f i ⟨⟩
      exact ⟨rfl, own, rfl⟩

end Run

/-! ## The operations -/

/-- A link without an error has linked its files: a circle is reported. -/
lemma exists_linkOn {c : Config} {sources : List SourceFile} {outer : Scope}
    (clean : (linkOn c sources outer).2.hasErrors = false) :
    ∃ linked, (linkOn c sources outer).1 = some linked := by
  unfold linkOn at clean ⊢
  dsimp only at clean ⊢
  split
  · next circle =>
    simp [circle, hasErrors, isError, Problem.diagnostic, Diagnostic.make, Kind.severity] at clean
  · exact ⟨_, rfl⟩

/-- **The outcomes of all operations are faithful** to what their runs report. -/
theorem outcomes_faithful :
    (∀ (c : Config) (d : Document) (outer : Scope),
      (d.expand c outer).outcome.Faithful .expansion (d.expandJournal c outer)) ∧
    (∀ (c : Config) (d : Document) (outer : Scope),
      (d.collectExports c outer).outcome.Faithful .declaration (d.exportsOn c outer).2) ∧
    (∀ (c : Config) (s : Scope) (table : ExportTable) (file : String),
      (s.compose c table file).outcome.Faithful .imports (s.composeJournal c table file)) ∧
    (∀ d : Document,
      d.importRequests.outcome.Faithful .imports (.report (ImportRequest.ofDocument d).2)) ∧
    (∀ (c : Config) (requests : List ImportRequest) (tables : Keyed ExportTable) (outer : Scope),
      (resolveImports c requests tables outer).outcome.Faithful .imports
        (resolveOn c requests tables outer).2) ∧
    (∀ (c : Config) (sources : List SourceFile) (outer : Scope),
      (link c sources outer).outcome.Faithful .link (linkOn c sources outer).2) := by
  -- of each operation it remains to say why its journal is graded, and why a run without an error
  -- has a value
  refine ⟨fun c d outer => ?_, fun c d outer => ?_, fun c s table file => ?_, fun d => ?_,
    fun c requests tables outer => ?_, fun c sources outer => ?_⟩
  · have graded : (d.expandJournal c outer).Graded c.collisions := Document.graded_expandJournal
    rw [d.expand_eq]
    refine Run.faithful graded (by decide) fun clean => ?_
    rw [Document.expandJournal, hasErrors_append, Bool.or_eq_false_iff] at clean
    exact Document.exists_expandOn clean.2
  · exact Run.faithful (d.graded_exportsOn c outer) (by decide) Document.exists_exportsOn
  · exact Run.faithful (graded_composeJournal c s table file) (by decide) fun _ => ⟨_, rfl⟩
  · have graded : (Journal.report (ImportRequest.ofDocument d).2).Graded .error :=
      graded_report (ImportRequest.areFaults_ofDocument d)
    exact Run.faithful graded (by decide) fun _ => ⟨_, rfl⟩
  · exact Run.faithful (graded_resolveOn c requests tables outer) (by decide) fun _ => ⟨_, rfl⟩
  · exact Run.faithful (graded_linkOn c sources outer) (by decide) exists_linkOn

end Stencil
