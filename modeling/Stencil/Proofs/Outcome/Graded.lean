import Stencil.Proofs.Diagnostic.Fault
import Stencil.Proofs.Diagnostic.Repeats

/-!
# Outcomes and what was reported

A run ends done or failed by its diagnostics *after* repeats were merged.  Repeats are recognised
by a joined text, so merging could hide an error behind a warning of the same text.  It does not:
the text opens with the code of the kind (`Diagnostic.kind_eq_of_key_eq`), and in a run the kind
settles the severity (`Journal.Graded`).

Hence an outcome can be read off the journal itself: a run is done exactly if it has a value and
reported no error (`Run.done_of_clean`, `Run.of_done`), and otherwise every kind of error that it
reported is among the errors of the failure (`Run.fails_with`).

Grading is a property of journals that goes with joining them, so it is shown of a run piece by
piece, in the order of the stages: declarations, expansion, exports, and then linking.  The stages
that read one document are shown to be self-contained in the same pass, since it is the same reports
that are looked at.
-/

namespace Stencil

open Diagnostic

/-! ## Graded journals -/

/-- How grave a diagnostic of a kind is under a policy. -/
def CollisionPolicy.severity (p : CollisionPolicy) (k : Kind) : Severity :=
  if k = .importCollision ∧ p = .lastWins then .warning else .error

namespace Journal

/-- A journal in which kind and policy settle how grave a diagnostic is. -/
def Graded (p : CollisionPolicy) (j : Journal) : Prop :=
  ∀ d ∈ j.diagnostics, d.severity = p.severity d.kind

lemma append_assoc (a b c : Journal) : a ++ b ++ c = a ++ (b ++ c) := by
  show append (append a b) c = append a (append b c)
  simp [append]

lemma append_empty (j : Journal) : j ++ empty = j := by
  show append j empty = j
  simp [append, empty]

variable {p : CollisionPolicy} {a b : Journal}

@[simp] lemma graded_append : (a ++ b).Graded p ↔ a.Graded p ∧ b.Graded p := by
  simp [Graded, or_imp, forall_and]

lemma graded_report {diagnostics : List Diagnostic} (h : AreFaults diagnostics) :
    (report diagnostics).Graded p := by
  intro d hd
  obtain ⟨severity, kind⟩ := h d hd
  simp [severity, kind, CollisionPolicy.severity]

@[simp] lemma graded_line (channel : Channel) (text : String) : (line channel text).Graded p := by
  simp [Graded]

@[simp] lemma graded_empty : empty.Graded p := by
  simp [Graded]

@[simp] lemma graded_collision (name : String) (span : Span) (previous : String) :
    (collision p name span previous).Graded p := by
  intro d hd
  cases p <;> simp [collision] at hd <;> subst hd <;>
    simp [CollisionPolicy.severity, Problem.reportedAt, Problem.diagnostic, Diagnostic.make,
      Kind.severity, Problem.kind]

/-- A graded journal of what lies in one document: nothing is missing from another file. -/
structure SelfContained (p : CollisionPolicy) (j : Journal) : Prop where
  graded : j.Graded p
  complete : ∀ d ∈ j.diagnostics, d.kind ≠ .missingImport

lemma selfContained_append :
    (a ++ b).SelfContained p ↔ a.SelfContained p ∧ b.SelfContained p := by
  constructor
  · rintro ⟨graded, complete⟩
    rw [graded_append] at graded
    exact ⟨⟨graded.1, fun d hd => complete d (List.mem_append_left _ hd)⟩,
      ⟨graded.2, fun d hd => complete d (List.mem_append_right _ hd)⟩⟩
  · rintro ⟨ha, hb⟩
    refine ⟨graded_append.2 ⟨ha.graded, hb.graded⟩, fun d hd => ?_⟩
    rcases List.mem_append.1 hd with hd | hd
    · exact ha.complete d hd
    · exact hb.complete d hd

lemma selfContained_report {diagnostics : List Diagnostic} (h : AreOwnFaults diagnostics) :
    (report diagnostics).SelfContained p :=
  ⟨graded_report h.areFaults, fun d hd => (h d hd).2⟩

lemma selfContained_line (channel : Channel) (text : String) :
    (line channel text).SelfContained p :=
  ⟨graded_line channel text, fun _ hd => absurd hd List.not_mem_nil⟩

lemma selfContained_empty : empty.SelfContained p :=
  ⟨graded_empty, fun _ hd => absurd hd List.not_mem_nil⟩

/-- A collision is about a name, and nothing is missing. -/
lemma kind_of_mem_collision {name : String} {span : Span} {previous : String} {d : Diagnostic}
    (hd : d ∈ (collision p name span previous).diagnostics) : d.kind = .importCollision := by
  cases p <;> simp [collision] at hd <;> subst hd <;> rfl

lemma selfContained_collision (name : String) (span : Span) (previous : String) :
    (collision p name span previous).SelfContained p := by
  refine ⟨graded_collision name span previous, fun d hd => ?_⟩
  rw [kind_of_mem_collision hd]
  decide

end Journal

open Journal

/-! ## The journals of documents -/

namespace Collection

variable {p : CollisionPolicy}

lemma selfContained_add {c : Collection} (h : c.journal.SelfContained p) (decl : Node) :
    (c.add p decl).journal.SelfContained p := by
  have clash : (collision p c.scope decl.name).SelfContained p := by
    unfold collision
    split
    · exact selfContained_collision _ _ _
    · exact selfContained_empty
  have before := selfContained_append.2 ⟨h, clash⟩
  unfold add
  dsimp only
  split
  · next template _ =>
    have faults := selfContained_report (p := p) template.areOwnFaults_allBadReferences
    exact selfContained_append.2 ⟨before, faults⟩
  · next problems he =>
    have faults := selfContained_report (p := p) (Template.areOwnFaults_ofDeclaration he)
    exact selfContained_append.2 ⟨before, faults⟩

lemma selfContained_ofDeclarations (declarations : List Node) (outer : Scope) :
    (ofDeclarations p declarations outer).journal.SelfContained p := by
  refine List.foldlRecOn (motive := fun c => c.journal.SelfContained p) declarations (add p) ?_
    fun _ h decl _ => selfContained_add h decl
  exact selfContained_empty

lemma selfContained_collect (declarations : List Node) (outer : Scope) :
    (collect p declarations outer).2.SelfContained p :=
  selfContained_append.2 ⟨selfContained_ofDeclarations declarations outer,
    selfContained_line _ _⟩

end Collection

namespace Document

lemma selfContained_soleNode {p : CollisionPolicy} {e : Expansion}
    (h : AreOwnFaults e.journal.diagnostics) (body : Node) :
    (soleNode body e).2.SelfContained p := by
  have expanded : e.journal.SelfContained p := ⟨graded_report h.areFaults, fun d hd => (h d hd).2⟩
  unfold soleNode
  split
  · exact expanded
  · dsimp only
    split
    · exact expanded
    · exact selfContained_append.2 ⟨expanded, selfContained_report (by simp [Problem.kind])⟩

lemma selfContained_emptyReport {p : CollisionPolicy} (d : Document) :
    d.emptyReport.SelfContained p :=
  selfContained_report (by simp [Problem.kind])

/-- Expanding a document reports nothing of other files. -/
lemma selfContained_expandOn (c : Config) (used : Nat) (d : Document) (outer : Scope) :
    (d.expandOn c used outer).2.SelfContained c.collisions := by
  unfold expandOn
  split
  · exact d.selfContained_emptyReport
  · split
    · exact selfContained_report (by simp [Problem.kind])
    · exact selfContained_append.2 ⟨Collection.selfContained_collect _ _,
        selfContained_soleNode (areOwnFaults_expandNode _ _ _ _ _) _⟩

lemma graded_expandOn (c : Config) (used : Nat) (d : Document) (outer : Scope) :
    (d.expandOn c used outer).2.Graded c.collisions :=
  (d.selfContained_expandOn c used outer).graded

lemma areFaults_unresolvedImports (d : Document) (outer : Scope) :
    AreFaults (d.unresolvedImports outer) := by
  rw [unresolvedImports, areFaults_append]
  refine ⟨ImportRequest.areFaults_ofDocument d, ?_⟩
  intro x hx
  obtain ⟨r, _, rfl⟩ := List.mem_map.1 hx
  simp [Problem.kind]

/-- Collecting the exports of a document reports nothing of other files. -/
lemma selfContained_exportsOn (c : Config) (d : Document) (outer : Scope) :
    (d.exportsOn c outer).2.SelfContained c.collisions := by
  unfold exportsOn
  split
  · exact d.selfContained_emptyReport
  · split
    · exact selfContained_append.2 ⟨Collection.selfContained_collect _ _,
        selfContained_report (ExportTable.areOwnFaults_ofList _ _)⟩
    · exact Collection.selfContained_collect _ _

lemma graded_exportsOn (c : Config) (d : Document) (outer : Scope) :
    (d.exportsOn c outer).2.Graded c.collisions :=
  (d.selfContained_exportsOn c outer).graded

end Document

/-! ## The journals of linking -/

lemma graded_rebinding (p : CollisionPolicy) (name : String) (span : Span)
    (previous : Option Binding) : (rebinding p name span previous).Graded p := by
  unfold rebinding
  split <;> simp

namespace Resolution

variable {c : Config} {tables : Keyed ExportTable} {outer : Scope}

lemma kind_of_find {r : ImportRequest} {problem : Problem}
    (h : find tables r = .error problem) : problem.kind = .missingImport := by
  unfold find at h
  split at h
  · rw [← Except.error.inj h, Problem.kind]
  · split at h
    · rw [← Except.error.inj h, Problem.kind]
    · simp at h

lemma graded_add {done : Resolution} (h : done.journal.Graded c.collisions)
    (r : ImportRequest) : (add c tables outer done r).journal.Graded c.collisions := by
  unfold add
  split
  · next he => exact graded_append.2 ⟨h, graded_report (by simp [kind_of_find he])⟩
  · exact graded_append.2 ⟨h, graded_rebinding _ _ _ _⟩

end Resolution

lemma graded_resolveOn (c : Config) (requests : List ImportRequest)
    (tables : Keyed ExportTable) (outer : Scope) :
    (resolveOn c requests tables outer).2.Graded c.collisions := by
  have bound : (requests.foldl (Resolution.add c tables outer) ⟨[], .empty⟩).journal.Graded
      c.collisions :=
    List.foldlRecOn (motive := fun done => done.journal.Graded c.collisions) requests
      (Resolution.add c tables outer) graded_empty fun _ h r _ => Resolution.graded_add h r
  simpa [resolveOn] using bound

namespace Linkage

lemma graded_read (c : Config) (used : Nat) (linked : Linked) (id : String) (d : Document)
    (scope : Scope) : (read c used linked id d scope).2.Graded c.collisions := by
  have exports := d.graded_exportsOn c scope
  have expanded := d.graded_expandOn c used scope
  unfold read
  split <;> split <;> simp_all

lemma areFaults_listless (units : Keyed LinkUnit) (l : Linkage) (u : LinkUnit) :
    AreFaults (l.listless units u) := by
  intro d hd
  obtain ⟨r, _, rfl⟩ := List.mem_map.1 hd
  simp [Problem.kind]

lemma graded_add {c : Config} {l : Linkage} (h : l.journal.Graded c.collisions)
    (units : Keyed LinkUnit) (outer : Scope) (id : String) :
    (add c units outer l id).journal.Graded c.collisions := by
  unfold add
  split
  · exact h
  · next u _ =>
    simp [h, graded_report (l.areFaults_listless units u), graded_resolveOn, graded_read]

end Linkage

lemma selfContained_linkUnits (p : CollisionPolicy) (sources : List SourceFile) :
    (linkUnits sources).2.SelfContained p := by
  refine List.foldlRecOn (motive := fun read => read.2.SelfContained p) sources addSource ?_
    fun read h source _ => ?_
  · exact selfContained_empty
  unfold addSource
  dsimp only
  split
  · exact selfContained_append.2 ⟨h, selfContained_report (by simp [Problem.kind])⟩
  · have own := ImportRequest.areOwnFaults_ofDocument source.document
    exact selfContained_append.2 ⟨h, selfContained_report own⟩

lemma graded_linkOn (c : Config) (sources : List SourceFile) (outer : Scope) :
    (linkOn c sources outer).2.Graded c.collisions := by
  have units := (selfContained_linkUnits c.collisions sources).graded
  unfold linkOn
  dsimp only
  split
  · refine graded_append.2 ⟨units, fun d hd => ?_⟩
    obtain rfl := List.mem_singleton.1 hd
    simp [Problem.diagnostic, Diagnostic.make, CollisionPolicy.severity, Kind.severity,
      Problem.kind]
  · next files _ =>
    refine List.foldlRecOn (motive := fun l => l.journal.Graded c.collisions) files
      (Linkage.add c _ outer) ?_ fun _ h id _ => Linkage.graded_add h _ outer id
    simpa using units

/-! ## Reading an outcome off the journal -/

/-- What a run tells of itself, with the warnings of its journal. -/
def RunInfo.withWarnings (info : RunInfo) (j : Journal) : RunInfo :=
  { info with warnings := (distinct j.diagnostics).filter fun d => !d.isError }

namespace Run

variable {α : Type} {value : Option α} {v : α} {j : Journal} {reason : FailureReason}
variable {info i : RunInfo} {p : CollisionPolicy}

lemma done_of_clean (h : j.hasErrors = false) :
    (Run.ofJournal (some v) j reason info).outcome = .done v (info.withWarnings j) := by
  have none : (distinct j.diagnostics).filter Diagnostic.isError = [] := by
    apply List.filter_eq_nil_iff.2
    intro d hd
    simp [hasErrors_eq_false_iff.1 h d (mem_of_mem_distinct hd)]
  simp only [Run.ofJournal, Outcome.ofDiagnostics, none]
  rfl

lemma fails_with {d : Diagnostic} (graded : j.Graded p) (hd : d ∈ j.diagnostics)
    (he : d.isError = true) :
    ∃ failure i, (Run.ofJournal value j reason info).outcome = .fail failure i ∧
      ∃ d' ∈ failure.diagnostics, d'.kind = d.kind := by
  obtain ⟨d', hd', kind⟩ := exists_mem_distinct hd
  -- grading turns the same kind into the same severity, so what is left is an error as well
  have error : d'.isError = true := by
    have same : d'.severity = d.severity := by
      rw [graded d' (mem_of_mem_distinct hd'), graded d hd, kind]
    simpa [Diagnostic.isError, same] using he
  have mem : d' ∈ (distinct j.diagnostics).filter Diagnostic.isError :=
    List.mem_filter.2 ⟨hd', error⟩
  have nonempty := List.ne_nil_of_mem mem
  unfold Run.ofJournal Outcome.ofDiagnostics
  dsimp only
  split
  · exact absurd ‹_ = []› nonempty
  · exact absurd ‹_ = []› nonempty
  · exact ⟨_, _, rfl, d', mem, kind⟩

lemma of_done (graded : j.Graded p)
    (h : (Run.ofJournal value j reason info).outcome = .done v i) :
    value = some v ∧ j.hasErrors = false ∧ i = info.withWarnings j := by
  -- an error would have been left after merging, and the run would have failed
  have clean : j.hasErrors = false := by
    apply Bool.eq_false_iff.2
    intro hc
    obtain ⟨d, hd, he⟩ := List.any_eq_true.1 hc
    have fails : ∃ failure i, (Run.ofJournal value j reason info).outcome = .fail failure i ∧ _ :=
      fails_with graded hd he
    obtain ⟨_, _, hf, _⟩ := fails
    simp [hf] at h
  cases value with
  | none =>
    unfold Run.ofJournal Outcome.ofDiagnostics at h
    dsimp only at h
    split at h <;> simp_all
  | some w =>
    rw [done_of_clean clean] at h
    simp only [Outcome.done.injEq] at h
    exact ⟨by rw [h.1], clean, h.2.symm⟩

lemma isDone_ofJournal (graded : j.Graded p) :
    (Run.ofJournal (some v) j reason info).outcome.isDone = !j.hasErrors := by
  rcases clean : j.hasErrors with _ | _
  · rw [done_of_clean clean]
    rfl
  · rcases outcome : (Run.ofJournal (some v) j reason info).outcome with ⟨w, i⟩ | ⟨f, i⟩
    · rw [(of_done graded outcome).2.1] at clean
      cases clean
    · rfl

/-- A run with a value fails with the errors that are left when repeats are merged. -/
lemma of_fail {f : Failure Diagnostic}
    (h : (Run.ofJournal (some v) j reason info).outcome = .fail f i) :
    f = .ofReason reason (Outcome.summary ((distinct j.diagnostics).filter Diagnostic.isError))
      ((distinct j.diagnostics).filter Diagnostic.isError) := by
  unfold Run.ofJournal Outcome.ofDiagnostics at h
  dsimp only at h
  split at h
  · cases h
  · next none => cases none
  · exact (Outcome.fail.inj h).1.symm

end Run

end Stencil
