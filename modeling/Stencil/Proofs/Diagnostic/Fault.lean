import Mathlib.Tactic.Lemma
import Stencil.Linking.Linker
import Stencil.Proofs.Expansion.Derivation

/-!
# Faults

Every problem is reported as an error, with one exception: a name that is bound twice across
imports is only a warning where the policy lets the last binding win.  A *fault* is an error
that is not about such a name, so no policy lowers it.

This module goes through the stages of the engine and shows of each that it reports faults and
nothing else, collisions apart.  From this follows `Journal.Graded`: in the journal of a run the
severity of a diagnostic is settled by its kind and the policy.  That is what makes merging
repeats harmless, since a warning never stands for an error.

The stages that read one document report *own* faults: none of them says that something is missing
from another file.  Only requests that are resolved are reported so.

The lemmas follow the definitions: one for each way of reading, for each part of a declaration and
of a call, for each entry of a directive.  Whoever adds a report to the engine has one lemma here to
look after, that of the function which reports it, and is told there whether the report may be a
warning.
-/

namespace Stencil

namespace Diagnostic

/-- An error that no collision policy lowers. -/
def IsFault (d : Diagnostic) : Prop :=
  d.severity = .error ∧ d.kind ≠ .importCollision

/-- Faults, all of them. -/
def AreFaults (diagnostics : List Diagnostic) : Prop :=
  ∀ d ∈ diagnostics, d.IsFault

@[simp] lemma isFault_reportedAt (p : Problem) (span : Span) :
    (p.reportedAt span).IsFault ↔ p.kind ≠ .importCollision := by
  simp [IsFault, Problem.reportedAt, Problem.diagnostic, make, Kind.severity]

@[simp] lemma areFaults_nil : AreFaults [] := by
  simp [AreFaults]

@[simp] lemma areFaults_cons {d : Diagnostic} {rest : List Diagnostic} :
    AreFaults (d :: rest) ↔ d.IsFault ∧ AreFaults rest := by
  simp [AreFaults]

@[simp] lemma areFaults_append {a b : List Diagnostic} :
    AreFaults (a ++ b) ↔ AreFaults a ∧ AreFaults b := by
  simp [AreFaults, or_imp, forall_and]

/-- A fault is an error. -/
lemma IsFault.isError {d : Diagnostic} (h : d.IsFault) : d.isError = true := by
  simp [Diagnostic.isError, h.1]

/-- A fault that lies in what a document says, and not in what another file lacks. -/
def IsOwnFault (d : Diagnostic) : Prop :=
  d.IsFault ∧ d.kind ≠ .missingImport

/-- Own faults, all of them. -/
def AreOwnFaults (diagnostics : List Diagnostic) : Prop :=
  ∀ d ∈ diagnostics, d.IsOwnFault

lemma AreOwnFaults.areFaults {diagnostics : List Diagnostic} (h : AreOwnFaults diagnostics) :
    AreFaults diagnostics :=
  fun d hd => (h d hd).1

@[simp] lemma isOwnFault_reportedAt (p : Problem) (span : Span) :
    (p.reportedAt span).IsOwnFault ↔ p.kind ≠ .importCollision ∧ p.kind ≠ .missingImport := by
  rw [IsOwnFault, isFault_reportedAt]
  rfl

@[simp] lemma areOwnFaults_nil : AreOwnFaults [] := by
  simp [AreOwnFaults]

@[simp] lemma areOwnFaults_cons {d : Diagnostic} {rest : List Diagnostic} :
    AreOwnFaults (d :: rest) ↔ d.IsOwnFault ∧ AreOwnFaults rest := by
  simp [AreOwnFaults]

@[simp] lemma areOwnFaults_append {a b : List Diagnostic} :
    AreOwnFaults (a ++ b) ↔ AreOwnFaults a ∧ AreOwnFaults b := by
  simp [AreOwnFaults, or_imp, forall_and]

lemma AreOwnFaults.flatMap {α : Type} {f : α → List Diagnostic} (h : ∀ x, AreOwnFaults (f x))
    (xs : List α) : AreOwnFaults (xs.flatMap f) := by
  intro d hd
  obtain ⟨x, _, hx⟩ := List.mem_flatMap.1 hd
  exact h x d hx

end Diagnostic

open Diagnostic

namespace Journal

lemma hasErrors_eq_false_iff {j : Journal} :
    j.hasErrors = false ↔ ∀ d ∈ j.diagnostics, d.isError = false := by
  simp [hasErrors]

/-- A problem that is reported is an error. -/
@[simp] lemma hasErrors_report_reportedAt (problem : Problem) (span : Span) :
    (report [problem.reportedAt span]).hasErrors = true := by
  simp [hasErrors, isError, Problem.reportedAt, Problem.diagnostic, make, Kind.severity]

/-- A journal of faults without errors holds nothing. -/
lemma eq_nil_of_areFaults {j : Journal} (h : AreFaults j.diagnostics)
    (clean : j.hasErrors = false) : j.diagnostics = [] := by
  apply List.eq_nil_iff_forall_not_mem.2
  intro d hd
  have := hasErrors_eq_false_iff.1 clean d hd
  rw [(h d hd).isError] at this
  exact Bool.noConfusion this

lemma hasErrors_report_eq_false_iff {diagnostics : List Diagnostic}
    (h : AreFaults diagnostics) : (report diagnostics).hasErrors = false ↔ diagnostics = [] := by
  constructor
  · intro clean
    exact eq_nil_of_areFaults h clean
  · rintro rfl
    rfl

lemma hasErrors_report_congr {a b : List Diagnostic} (faults : AreFaults a) (faults' : AreFaults b)
    (h : a = [] ↔ b = []) : (report a).hasErrors = (report b).hasErrors := by
  rcases clean : (report b).hasErrors with _ | _
  · have none := (hasErrors_report_eq_false_iff faults').1 clean
    exact (hasErrors_report_eq_false_iff faults).2 (h.2 none)
  · rw [← Bool.not_eq_false, hasErrors_report_eq_false_iff faults'] at clean
    rw [← Bool.not_eq_false, hasErrors_report_eq_false_iff faults]
    exact mt h.1 clean

end Journal

/-! ## Reading nodes -/

namespace Scope

variable (s : Scope)

lemma areOwnFaults_valueOf (v : Spanned Scalar) : AreOwnFaults (s.valueOf v).2 := by
  unfold valueOf
  split
  · split <;> simp [Problem.kind]
  · simp

lemma areOwnFaults_entriesOf (entries : List Entry) : AreOwnFaults (s.entriesOf entries).2 := by
  intro d hd
  simp only [entriesOf, List.mem_flatMap, List.mem_map] at hd
  obtain ⟨_, ⟨e, _, rfl⟩, hd⟩ := hd
  exact s.areOwnFaults_valueOf e.value d hd

lemma areOwnFaults_readMarker (n : Node) : AreOwnFaults (s.readMarker n).2 := by
  unfold readMarker
  split
  · split <;> simp [Problem.kind]
  · simp [Problem.kind]

lemma areOwnFaults_readRenamed (n : Node) (v : Spanned Scalar) :
    AreOwnFaults (s.readRenamed n v).2 := by
  unfold readRenamed
  split
  · dsimp only
    split <;> simp
  · simp [Problem.kind]

lemma areOwnFaults_unboundName (name : Spanned String) : AreOwnFaults (s.unboundName name) := by
  unfold unboundName
  split <;> simp [Problem.kind]

lemma areOwnFaults_reading (n : Node) : AreOwnFaults (s.reading n).2 := by
  unfold reading
  split
  · exact s.areOwnFaults_readMarker n
  · split
    · exact s.areOwnFaults_unboundName n.name
    · simp
    · exact s.areOwnFaults_readRenamed n _
    · simp
    · simp [Problem.kind]

end Scope

/-! ## Binding targuments -/

namespace Template

/-- An offer that brings nothing but faults. -/
def Offer.BringsFaults : Offer → Prop
  | .refused problem => problem.IsOwnFault
  | .made _ _ problems _ => AreOwnFaults problems

/-- A settlement that has found nothing but faults, and one at least if it is unsound.  The second
field is why a call that cannot be made is never silent. -/
structure Settlement.Accounted (s : Settlement) : Prop where
  faults : AreOwnFaults s.problems
  unsound : s.sound = false → s.problems ≠ []

variable {t : Template} {call : Node} {scope : Scope} {s : Settlement}

lemma Settlement.Accounted.refuse (h : s.Accounted) {problem : Diagnostic}
    (hp : problem.IsOwnFault) : (s.refuse problem).Accounted where
  faults := by simp [Settlement.refuse, h.faults, hp]
  unsound := by simp [Settlement.refuse]

lemma Settlement.Accounted.take (h : s.Accounted) (name : String) (b : Binding)
    {problems : List Diagnostic} (hp : AreOwnFaults problems) :
    (s.take name b problems).Accounted where
  faults := by simp [Settlement.take, h.faults, hp]
  unsound hs := by simp [Settlement.take, h.unsound hs]

lemma areOwnFaults_held {form : TparameterForm} {holder : Node} {b : Binding}
    {problems : List Diagnostic} (h : held? scope form holder = some (b, problems)) :
    AreOwnFaults problems := by
  rw [held?.eq_def] at h
  split at h
  all_goals
    split at h
    · simp only [Option.some.injEq, Prod.mk.injEq] at h
      rw [← h.2]
      first | exact scope.areOwnFaults_valueOf _ | exact areOwnFaults_nil
    · simp at h

lemma bringsFaults_of_mem_offers {o : Offer} (h : o ∈ t.offers call scope) :
    o.BringsFaults := by
  rcases List.mem_append.1 h with h | h
  · -- offers of named entries, whose values may name what is not bound
    obtain ⟨e, _, he⟩ := List.mem_filterMap.1 h
    unfold offerOfEntry? at he
    split at he
    · simp at he
    · obtain rfl := Option.some.inj he
      split
      · simp [Offer.BringsFaults, Problem.kind]
      · split
        · exact scope.areOwnFaults_valueOf e.value
        · simp [Offer.BringsFaults, Problem.kind]
  · -- offers of children, which are refused or hold what their form asks for
    obtain ⟨holder, _, rfl⟩ := List.mem_map.1 h
    unfold offerOfHolder
    split
    · simp [Offer.BringsFaults, Problem.kind]
    · split
      · next hb => exact areOwnFaults_held hb
      · simp [Offer.BringsFaults, Problem.kind]

lemma accounted_settle (h : s.Accounted) {o : Offer} (ho : o.BringsFaults) (name : String) :
    (s.settle name o).Accounted := by
  cases o with
  | refused problem => exact h.refuse ho
  | made name' b problems span =>
    rw [Settlement.settle]
    split
    · refine Settlement.Accounted.refuse ⟨?_, fun hs => ?_⟩ (by simp [Problem.kind])
      · simpa using ⟨h.faults, ho⟩
      · simp [h.unsound hs]
    · exact h.take name' b ho

lemma accounted_fillOpen (tparameters : List Tparameter) (entries : List Entry)
    (h : s.Accounted) : (fillOpen t scope tparameters entries s).Accounted := by
  -- entries and open tparameters are used up together; entries that are left over are refused
  induction entries generalizing tparameters s with
  | nil =>
    rw [fillOpen]
    exact h
  | cons e rest ih =>
    cases tparameters with
    | nil =>
      rw [fillOpen]
      exact ih _ (h.refuse (by simp [Problem.kind]))
    | cons p others =>
      rw [fillOpen]
      apply ih
      split
      · exact h.take _ _ (scope.areOwnFaults_valueOf e.value)
      · exact h.refuse (by simp [Problem.kind])

lemma accounted_fillDefault (p : Tparameter) (h : s.Accounted) :
    (t.fillDefault call s p).Accounted := by
  unfold fillDefault
  split
  · exact h
  · split
    · exact h.refuse (by simp [Problem.kind])
    · exact h.take _ _ (t.home.areOwnFaults_valueOf _)
    · exact h.take _ _ areOwnFaults_nil
    · exact h.take _ _ areOwnFaults_nil

lemma accounted_settlement (t : Template) (call : Node) (scope : Scope) :
    (t.settlement call scope).Accounted := by
  have none : Settlement.empty.Accounted := ⟨areOwnFaults_nil, by simp [Settlement.empty]⟩
  have named := List.foldlRecOn (motive := Settlement.Accounted) (t.offers call scope)
    (Settlement.settle t.name) none fun _ h _ ho =>
      accounted_settle h (bringsFaults_of_mem_offers ho) t.name
  exact List.foldlRecOn (motive := Settlement.Accounted) t.tparameters (t.fillDefault call)
    (accounted_fillOpen _ _ named) fun _ h p _ => accounted_fillDefault p h

lemma areOwnFaults_bindCall (t : Template) (call : Node) (scope : Scope) :
    AreOwnFaults (t.bindCall call scope).2 :=
  (accounted_settlement t call scope).faults

/-- A call that cannot be made is reported. -/
lemma ne_nil_of_bindCall_eq_none {faults : List Diagnostic}
    (h : t.bindCall call scope = (none, faults)) : faults ≠ [] := by
  have hs := accounted_settlement t call scope
  simp only [bindCall, Prod.mk.injEq, ite_eq_right_iff, reduceCtorEq, imp_false] at h
  exact h.2 ▸ hs.unsound (by simpa using h.1)

end Template

/-! ## Expanding -/

lemma Config.kind_of_exceededLimit {c : Config} {depth : Depth} {used : Nat} {limit : Problem}
    (h : c.exceededLimit? depth used = some limit) : limit.kind = .expansionLimit := by
  unfold exceededLimit? at h
  split at h
  · rw [← Option.some.inj h, Problem.kind]
  · split at h
    · rw [← Option.some.inj h, Problem.kind]
    · simp at h

/-- All that an expansion reports is faults of its own. -/
lemma Expands.areOwnFaults {c : Config} {used : Nat} {depth : Depth} {s : Scope} {x : Subject}
    {e : Expansion} {k : Nat} (h : Expands c used depth s x e k) :
    AreOwnFaults e.journal.diagnostics := by
  -- each rule reports what its reading, its check or its binding has found, and what the inner run
  -- reports
  induction h with
  | @nothing _ _ s n _ reading =>
    have := s.areOwnFaults_reading n
    rwa [reading] at this
  | @kept _ _ s n _ _ reading =>
    have := s.areOwnFaults_reading n
    rwa [reading] at this
  | @plain _ _ s n m _ _ _ reading _ ih =>
    have := s.areOwnFaults_reading n
    rw [reading] at this
    simp only [Journal.diagnostics_append, Journal.diagnostics_report, areOwnFaults_append]
    exact ⟨⟨this, s.areOwnFaults_entriesOf m.entries⟩, ih⟩
  | captured _ _ ih => exact ih
  | limited _ check => simp [Config.kind_of_exceededLimit check]
  | @refused _ _ s _ t call _ _ _ _ binding =>
    have := t.areOwnFaults_bindCall call s
    rwa [binding] at this
  | @called _ _ s _ t call _ _ _ _ _ _ _ binding _ ih =>
    have := t.areOwnFaults_bindCall call s
    rw [binding] at this
    simp only [Journal.diagnostics_append, Journal.diagnostics_report, areOwnFaults_append]
    exact ⟨⟨this, by simp [Config.callJournal]⟩, ih⟩
  | nil => simp [Expansion.nothing]
  | cons _ _ ih₁ ih₂ => exact areOwnFaults_append.2 ⟨ih₁, ih₂⟩

lemma areOwnFaults_expandNode (c : Config) (used : Nat) (depth : Depth) (s : Scope) (n : Node) :
    AreOwnFaults (expandNode c used depth s n).journal.diagnostics := by
  obtain ⟨_, h⟩ := exists_expands c used depth s (.node n)
  exact h.areOwnFaults

/-! ## Declarations -/

namespace Template

/-- What reading one part of a declaration gives, if it gives no tparameter, is a fault. -/
def ReadsFaults (read : Except Diagnostic Tparameter) : Prop :=
  ∀ d, read = .error d → d.IsOwnFault

lemma readsFaults_tparameterOfEntry (name : String) (e : Entry) :
    ReadsFaults (tparameterOfEntry name e) := by
  intro d h
  unfold tparameterOfEntry at h
  split at h
  · simp at h
  · split at h
    · simp at h
    · rw [← Except.error.inj h]
      simp [Problem.kind]

lemma readsFaults_tparameterOfChild (name : String) (child : Node) :
    ReadsFaults (tparameterOfChild name child) := by
  intro d h
  unfold tparameterOfChild at h
  split at h
  · split at h
    · simp at h
    · rw [← Except.error.inj h]
      simp [Problem.kind]
  · split at h
    · rw [← Except.error.inj h]
      simp [Problem.kind]
    · split at h
      · simp at h
      · rw [← Except.error.inj h]
        simp [Problem.kind]

lemma areOwnFaults_faults {read : List (Except Diagnostic Tparameter)}
    (h : ∀ r ∈ read, ReadsFaults r) : AreOwnFaults (faults read) := by
  intro d hd
  obtain ⟨r, hr, he⟩ := List.mem_filterMap.1 hd
  split at he
  · next d' =>
    obtain rfl := Option.some.inj he
    exact h _ hr _ rfl
  · simp at he

lemma areOwnFaults_repeats (name : String) (seen : List String) (tparameters : List Tparameter) :
    AreOwnFaults (repeats name seen tparameters) := by
  induction tparameters generalizing seen with
  | nil => simp [repeats]
  | cons p rest ih =>
    rw [repeats, areOwnFaults_append]
    refine ⟨?_, ih _⟩
    split <;> simp [Problem.kind]

lemma areOwnFaults_ofDeclaration {decl : Node} {home : Scope} {problems : List Diagnostic}
    (h : ofDeclaration decl home = .error problems) : AreOwnFaults problems := by
  have entries : AreOwnFaults (faults (decl.entries.map (tparameterOfEntry decl.name.inner))) := by
    apply areOwnFaults_faults
    intro r hr
    obtain ⟨e, _, rfl⟩ := List.mem_map.1 hr
    exact readsFaults_tparameterOfEntry _ e
  -- the faults come from the entries, from their style, from the children and from names that come
  -- again
  have mixed : AreOwnFaults (mixedStyle decl.name.inner decl.entries) := by
    unfold mixedStyle
    split <;> simp [Problem.kind]
  have children : AreOwnFaults
      (faults (decl.children.dropLast.map (tparameterOfChild decl.name.inner))) := by
    apply areOwnFaults_faults
    intro r hr
    obtain ⟨child, _, rfl⟩ := List.mem_map.1 hr
    exact readsFaults_tparameterOfChild _ child
  unfold ofDeclaration at h
  dsimp only at h
  split at h
  · rw [← Except.error.inj h]
    simp [entries, mixed, Problem.kind]
  · split at h
    · simp at h
    · rw [← Except.error.inj h]
      simp only [areOwnFaults_append]
      exact ⟨⟨⟨entries, mixed⟩, children⟩, areOwnFaults_repeats _ _ _⟩

mutual

lemma areOwnFaults_badReferences (home : Scope) (tparameters : List Tparameter) :
    (n : Node) → AreOwnFaults (badReferences home tparameters n)
  | ⟨name, entries, children, span⟩ => by
    rw [badReferences]
    split
    · split
      · split <;> simp [Problem.kind]
      · simp
    · split
      · simp
      · exact areOwnFaults_badReferencesOfAll home tparameters children
      · split
        · exact areOwnFaults_badReferencesOfHolders home tparameters children
        · exact areOwnFaults_badReferencesOfAll home tparameters children
        · rw [areOwnFaults_append]
          refine ⟨?_, areOwnFaults_badReferencesOfAll home tparameters children⟩
          split <;> simp [Problem.kind]

lemma areOwnFaults_badReferencesOfAll (home : Scope) (tparameters : List Tparameter) :
    (nodes : List Node) → AreOwnFaults (badReferencesOfAll home tparameters nodes)
  | [] => by simp [badReferencesOfAll]
  | n :: rest => by
    rw [badReferencesOfAll, areOwnFaults_append]
    exact ⟨areOwnFaults_badReferences home tparameters n,
      areOwnFaults_badReferencesOfAll home tparameters rest⟩

lemma areOwnFaults_badReferencesOfHolders (home : Scope) (tparameters : List Tparameter) :
    (holders : List Node) → AreOwnFaults (badReferencesOfHolders home tparameters holders)
  | [] => by simp [badReferencesOfHolders]
  | ⟨_, _, held, _⟩ :: rest => by
    rw [badReferencesOfHolders, areOwnFaults_append]
    exact ⟨areOwnFaults_badReferencesOfAll home tparameters held,
      areOwnFaults_badReferencesOfHolders home tparameters rest⟩

end

lemma areOwnFaults_allBadReferences (t : Template) : AreOwnFaults t.allBadReferences := by
  rw [allBadReferences, areOwnFaults_append]
  refine ⟨areOwnFaults_badReferences t.home t.tparameters t.body,
    AreOwnFaults.flatMap (fun p => ?_) _⟩
  unfold badReferencesOfDefault
  split
  · exact areOwnFaults_badReferences t.home [] _
  · exact areOwnFaults_badReferencesOfAll t.home [] _
  · simp
  · simp

end Template

/-! ## Directives -/

lemma ImportRequest.areOwnFaults_ofDirective (directive : Node) :
    AreOwnFaults (ofDirective directive).2 := by
  rw [ofDirective, areOwnFaults_append]
  constructor
  · intro d hd
    obtain ⟨r, hr, he⟩ := List.mem_filterMap.1 hd
    obtain ⟨e, _, rfl⟩ := List.mem_map.1 hr
    unfold ofEntry at he
    split at he
    · next d' heq =>
      obtain rfl := Option.some.inj he
      split at heq
      · split at heq
        · simp at heq
        · rw [← Except.error.inj heq]
          simp [Problem.kind]
      · rw [← Except.error.inj heq]
        simp [Problem.kind]
    · simp at he
  · split <;> simp [Problem.kind]

lemma ImportRequest.areOwnFaults_ofDocument (d : Document) : AreOwnFaults (ofDocument d).2 := by
  unfold ofDocument
  split
  · exact areOwnFaults_ofDirective _
  · simp

lemma ImportRequest.areFaults_ofDocument (d : Document) : AreFaults (ofDocument d).2 :=
  (areOwnFaults_ofDocument d).areFaults

namespace ExportTable

lemma areOwnFaults_addEntry {scope : Scope} {read : ExportTable × List Diagnostic}
    (h : AreOwnFaults read.2) (e : Entry) : AreOwnFaults (addEntry scope read e).2 := by
  unfold addEntry
  dsimp only
  split
  · split
    · split
      · simp [h, Problem.kind]
      · split <;> exact h
    · simp [h, Problem.kind]
  · simp [h, Problem.kind]

lemma areOwnFaults_ofList (list : Node) (scope : Scope) : AreOwnFaults (ofList list scope).2 := by
  have entries : AreOwnFaults (list.entries.foldl (addEntry scope) ([], [])).2 :=
    List.foldlRecOn (motive := fun read => AreOwnFaults read.2) list.entries (addEntry scope)
      areOwnFaults_nil fun _ h e _ => areOwnFaults_addEntry h e
  rw [ofList, areOwnFaults_append]
  refine ⟨entries, ?_⟩
  split <;> simp [Problem.kind]

end ExportTable

end Stencil
