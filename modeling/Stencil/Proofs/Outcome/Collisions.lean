import Stencil.Proofs.Outcome.Faithful
import Stencil.Proofs.Outcome.Settings

/-!
# Collisions and their policy

The policy on collisions says how grave a collision is, and everything else is the same until one
is reported (`policy_matters_at_collisions`): an operation is done under the strict policy exactly
if it is done under the lenient one without a warning of a collision, and then both give the same
value by the same calls; and under the lenient policy a collision is never an error.

A collision under the strict policy is an error, so a run that is done has none; and a run of the
lenient policy that is done warns of every collision, since merged repeats have the same kind.  So
in both directions there is no collision to tell the policies apart.

The two directions are not symmetric in what they have to show.  A strict run that is done has seen
no collision, so the lenient run repeats it.  A lenient run that is done may have seen some and gone
on with the later binding; it is the warnings that tell, so that none is lost in merging has to be
known first.
-/

namespace Stencil

open Diagnostic Journal

/-- The configuration with another policy. -/
def Config.withPolicy (c : Config) (p : CollisionPolicy) : Config :=
  { c with collisions := p }

lemma Config.sameLimits_withPolicy (c : Config) (p p' : CollisionPolicy) :
    (c.withPolicy p).SameLimits (c.withPolicy p') :=
  ⟨rfl, rfl⟩

/-- An outcome under the strict policy and one under the lenient policy between which nothing but a
collision makes a difference. -/
structure Outcome.DifferByCollisions {α : Type} (strict lenient : Outcome α) : Prop where
  done_iff : (∃ v i, strict = .done v i) ↔
    ∃ v i, lenient = .done v i ∧ ∀ w ∈ i.warnings, w.kind ≠ .importCollision
  same : ∀ v i v' i', strict = .done v i → lenient = .done v' i' → v = v' ∧ i.budget = i'.budget
  lenient_errors : ∀ f i, lenient = .fail f i → ∀ d ∈ f.diagnostics, d.kind ≠ .importCollision

/-! ## Journals without collisions -/

namespace Journal

variable {j : Journal}

/-- Under the strict policy a collision is an error. -/
lemma Graded.unaffected_of_clean (graded : j.Graded .error) (clean : j.hasErrors = false) :
    j.Unaffected .error .lastWins := by
  refine .inr fun d hd kind => ?_
  have severity := graded d hd
  have fine := hasErrors_eq_false_iff.1 clean d hd
  rw [isError, severity, kind] at fine
  cases fine

/-- Under the lenient policy a collision is warned of. -/
lemma Graded.unaffected_of_silent (graded : j.Graded .lastWins) {info : RunInfo}
    (silent : ∀ w ∈ (info.withWarnings j).warnings, w.kind ≠ .importCollision) :
    j.Unaffected .lastWins .error := by
  refine .inr fun d hd kind => ?_
  obtain ⟨d', hd', kind'⟩ := exists_mem_distinct hd
  refine silent d' (List.mem_filter.2 ⟨hd', ?_⟩) (kind'.trans kind)
  rw [graded.not_isError (mem_of_mem_distinct hd'), graded d' (mem_of_mem_distinct hd'), kind',
    kind]
  rfl

/-- Without a collision, none is warned of. -/
lemma Unaffected.silent (h : j.Unaffected .error .lastWins) {info : RunInfo} :
    ∀ w ∈ (info.withWarnings j).warnings, w.kind ≠ .importCollision := by
  intro w hw
  exact h.resolve_left (by decide) w (mem_of_mem_distinct (List.mem_filter.1 hw).1)

end Journal

/-! ## Runs under the two policies -/

namespace Run

variable {α : Type} {value value' : Option α} {j j' : Journal} {reason : FailureReason}
variable {info info' : RunInfo}

/-- Under the lenient policy no error of a failure is a collision. -/
lemma kind_ne_of_fail (graded : j.Graded .lastWins) {f : Failure Diagnostic} {i : RunInfo}
    (failed : (Run.ofJournal value j reason info).outcome = .fail f i) :
    ∀ d ∈ f.diagnostics, d.kind ≠ .importCollision := by
  intro d hd kind
  -- an error of a failure is one of the merged diagnostics, or the failure is an internal one and
  -- has none
  have error : d ∈ distinct j.diagnostics ∧ d.isError = true := by
    unfold Run.ofJournal Outcome.ofDiagnostics at failed
    dsimp only at failed
    split at failed
    · cases failed
    · cases failed
      exact absurd hd List.not_mem_nil
    · cases failed
      exact List.mem_filter.1 hd
  have severity := graded d (mem_of_mem_distinct error.1)
  rw [isError, severity, kind] at error
  cases error.2

/-- **Runs under the two policies differ by collisions only**, if their journals agree as long as
nothing collides. -/
theorem differByCollisions (graded : j.Graded .error) (graded' : j'.Graded .lastWins)
    (strict : j.Unaffected .error .lastWins → Stage.Agrees (value, j) (value', j'))
    (lenient : j'.Unaffected .lastWins .error → Stage.Agrees (value', j') (value, j))
    (budget : j.Agrees j' → info.budget = info'.budget) :
    Outcome.DifferByCollisions (Run.ofJournal value j reason info).outcome
      (Run.ofJournal value' j' reason info').outcome := by
  -- where the strict run is done nothing collides, and the lenient run goes the same way
  have follows : ∀ {v i}, (Run.ofJournal value j reason info).outcome = .done v i →
      (Run.ofJournal value' j' reason info').outcome = .done v (info'.withWarnings j') ∧
        j'.Unaffected .error .lastWins ∧ i.budget = info'.budget := by
    intro v i done
    obtain ⟨rfl, clean, rfl⟩ := of_done graded done
    have unaffected := graded.unaffected_of_clean clean
    obtain ⟨rfl, agrees⟩ := strict unaffected
    refine ⟨done_of_clean (agrees.hasErrors_eq ▸ clean), ?_, budget agrees⟩
    rwa [Unaffected, ← agrees.diagnostics]
  constructor
  · constructor
    · rintro ⟨v, i, done⟩
      obtain ⟨done', unaffected, _⟩ := follows done
      exact ⟨v, _, done', unaffected.silent⟩
    · -- a lenient run without a warning of a collision had none, since merging keeps the kinds
      rintro ⟨v, i, done, silent⟩
      obtain ⟨rfl, clean, rfl⟩ := of_done graded' done
      obtain ⟨rfl, agrees⟩ := lenient (graded'.unaffected_of_silent silent)
      exact ⟨v, _, done_of_clean (agrees.hasErrors_eq ▸ clean)⟩
  · intro v i v' i' done done'
    obtain ⟨same, _, budget⟩ := follows done
    rw [done'] at same
    cases same
    exact ⟨rfl, budget⟩
  · intro f i failed
    exact kind_ne_of_fail graded' failed

end Run

/-! ## The operations -/

variable (c : Config)

lemma compose_differByCollisions (s : Scope) (table : ExportTable) (file : String) :
    Outcome.DifferByCollisions (s.compose (c.withPolicy .error) table file).outcome
      (s.compose (c.withPolicy .lastWins) table file).outcome := by
  have same : ∀ p p' : CollisionPolicy,
      (s.composeJournal (c.withPolicy p) table file).Unaffected p p' →
        s.composeJournal (c.withPolicy p) table file =
          s.composeJournal (c.withPolicy p') table file :=
    fun _ _ h => composeJournal_eq h
  exact Run.differByCollisions (graded_composeJournal (c.withPolicy .error) s table file)
    (graded_composeJournal (c.withPolicy .lastWins) s table file)
    (fun h => .of_eq (congrArg (Prod.mk _) (same _ _ h)))
    (fun h => .of_eq (congrArg (Prod.mk _) (same _ _ h))) fun _ => rfl

lemma resolveImports_differByCollisions (requests : List ImportRequest)
    (tables : Keyed ExportTable) (outer : Scope) :
    Outcome.DifferByCollisions
      (resolveImports (c.withPolicy .error) requests tables outer).outcome
      (resolveImports (c.withPolicy .lastWins) requests tables outer).outcome := by
  have same : ∀ p p' : CollisionPolicy,
      (resolveOn (c.withPolicy p) requests tables outer).2.Unaffected p p' →
        resolveOn (c.withPolicy p) requests tables outer =
          resolveOn (c.withPolicy p') requests tables outer :=
    fun _ _ h => resolveOn_unaffected h
  have ends : ∀ {a b : Scope × Journal}, a = b → Stage.Agrees (some a.1, a.2) (some b.1, b.2) :=
    fun h => .of_eq (congrArg (fun x : Scope × Journal => (some x.1, x.2)) h)
  exact Run.differByCollisions (graded_resolveOn (c.withPolicy .error) requests tables outer)
    (graded_resolveOn (c.withPolicy .lastWins) requests tables outer)
    (fun h => ends (same _ _ h)) (fun h => ends (same _ _ h)) fun _ => rfl

/-- **The policy on collisions matters at collisions only**, in every operation.  Under two
configurations that differ in the policy, an operation is done with collisions as errors if and only
if it is done with collisions as warnings and warns of none; then both give the same value and use
the same calls.  With collisions as warnings no operation fails by one. -/
theorem policy_matters_at_collisions :
    (∀ (d : Document) (outer : Scope), Outcome.DifferByCollisions
      (d.expand (c.withPolicy .error) outer).outcome
      (d.expand (c.withPolicy .lastWins) outer).outcome) ∧
    (∀ (d : Document) (outer : Scope), Outcome.DifferByCollisions
      (d.collectExports (c.withPolicy .error) outer).outcome
      (d.collectExports (c.withPolicy .lastWins) outer).outcome) ∧
    (∀ (s : Scope) (table : ExportTable) (file : String), Outcome.DifferByCollisions
      (s.compose (c.withPolicy .error) table file).outcome
      (s.compose (c.withPolicy .lastWins) table file).outcome) ∧
    (∀ (requests : List ImportRequest) (tables : Keyed ExportTable) (outer : Scope),
      Outcome.DifferByCollisions
        (resolveImports (c.withPolicy .error) requests tables outer).outcome
        (resolveImports (c.withPolicy .lastWins) requests tables outer).outcome) ∧
    (∀ (sources : List SourceFile) (outer : Scope), Outcome.DifferByCollisions
      (link (c.withPolicy .error) sources outer).outcome
      (link (c.withPolicy .lastWins) sources outer).outcome) := by
  have limits := c.sameLimits_withPolicy
  have recorded : ∀ {j j' : Journal}, j.Agrees j' →
      (RunInfo.ofJournal (c.withPolicy .error) j).budget =
        (RunInfo.ofJournal (c.withPolicy .lastWins) j').budget := by
    intro j j' agrees
    simp only [RunInfo.ofJournal, agrees.callCount_eq, agrees.peak_eq]
  -- each operation is a stage whose journals agree without collisions, ended in the one common way
  refine ⟨fun d outer => ?_, fun d outer => ?_, fun s table file => ?_,
    fun requests tables outer => ?_, fun sources outer => ?_⟩
  · rw [d.expand_eq, d.expand_eq]
    exact Run.differByCollisions Document.graded_expandJournal Document.graded_expandJournal
      (Document.agrees_expansion (limits _ _)) (Document.agrees_expansion (limits _ _)) recorded
  · exact Run.differByCollisions (d.graded_exportsOn (c.withPolicy .error) outer)
      (d.graded_exportsOn (c.withPolicy .lastWins) outer)
      (fun h => .of_eq (Document.exportsOn_eq h)) (fun h => .of_eq (Document.exportsOn_eq h))
      recorded
  · exact compose_differByCollisions c s table file
  · exact resolveImports_differByCollisions c requests tables outer
  · exact Run.differByCollisions (graded_linkOn (c.withPolicy .error) sources outer)
      (graded_linkOn (c.withPolicy .lastWins) sources outer) (agrees_linkOn (limits _ _))
      (agrees_linkOn (limits _ _)) recorded

end Stencil
