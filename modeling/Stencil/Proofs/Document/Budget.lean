import Stencil.Proofs.Document.Body
import Stencil.Proofs.Outcome.Graded
import Stencil.Proofs.Tree.Words

/-!
# The budget of a document

A run reports the number of calls that it made and the greatest depth among them.  Those two
numbers are the budget that the run needs, neither more nor less: with limits that reach them the
document expands to the same node with the same record of its run, and with a lower limit on
either it fails and reports the limit (`expand_budget_tight`).

A run that succeeds reports no error, so by `agrees_or_stopped` another run of the document either
agrees with it or is stopped; and by `passed_of_called` no run makes more calls than its limits
allow.  The two facts together leave no room on either side.

A budget is a pair of numbers about one run, while a limit forbids single calls.  `Fits` is the
bridge: a journal fits two limits if all its calls are within them, and this is read off the two
numbers.  That the limits are integers is a hypothesis, because a configuration can also hold a
fraction or an infinity.
-/

namespace Stencil

/-! ## The depth and number of calls -/

namespace Journal

lemma foldl_max_le_iff (calls : List Call) (low bound : Int) :
    calls.foldl (fun depth call => max depth call.depth) low ≤ bound ↔
      low ≤ bound ∧ ∀ call ∈ calls, call.depth ≤ bound := by
  induction calls generalizing low with
  | nil => simp
  | cons call rest ih =>
    rw [List.foldl_cons, ih, List.forall_mem_cons, Int.max_le, and_assoc]

lemma peak_le_iff {j : Journal} {bound : Int} :
    j.peak ≤ bound ↔ 0 ≤ bound ∧ ∀ call ∈ j.calls, call.depth ≤ bound :=
  foldl_max_le_iff j.calls 0 bound

lemma peak_nonneg (j : Journal) : 0 ≤ j.peak :=
  (peak_le_iff.1 (Int.le_refl j.peak)).1

lemma depth_le_peak {j : Journal} {call : Call} (h : call ∈ j.calls) : call.depth ≤ j.peak :=
  (peak_le_iff.1 (Int.le_refl j.peak)).2 call h

/-- The greatest depth does not depend on the order of the calls. -/
lemma peak_eq_of_perm {a b : Journal} (h : a.calls.Perm b.calls) : a.peak = b.peak := by
  have bounds : ∀ bound, a.peak ≤ bound ↔ b.peak ≤ bound := by
    intro bound
    rw [peak_le_iff, peak_le_iff]
    simp only [h.mem_iff]
  exact Int.le_antisymm ((bounds _).2 (Int.le_refl _)) ((bounds _).1 (Int.le_refl _))

/-- A journal that stays within a limit on depth and one on calls. -/
def Fits (j : Journal) (depth calls : Nat) : Prop :=
  j.peak ≤ depth ∧ j.callCount ≤ calls

lemma fits_congr {a b : Journal} (h : a.calls = b.calls) {depth calls : Nat} :
    a.Fits depth calls ↔ b.Fits depth calls := by
  rw [Fits, Fits, peak, callCount, h, peak, callCount]

lemma Agrees.peak_eq {a b : Journal} (h : a.Agrees b) : a.peak = b.peak := by
  rw [peak, h.calls, peak]

end Journal

section FromTheTop

variable {c : Config} {s : Scope} {x : Subject} {e : Expansion} {k : Nat}

lemma call_of_expands (h : Expands c 0 .top s x e k) {i : Nat} {call : Call}
    (hc : e.journal.calls[i]? = some call) :
    ∃ j : Nat, j ≤ i ∧ call.depth = j + 1 ∧ c.exceededLimit? (.counted j) i = none := by
  obtain ⟨j, hj, hd, hl⟩ := passed_of_called h hc
  rw [Depth.top, Depth.iterate_next_counted, Nat.zero_add] at hd hl
  rw [Nat.zero_add] at hl
  exact ⟨j, hj, by simp [hd, Depth.value], hl⟩

/-- The nesting of calls is no deeper than their number. -/
lemma peak_le_callCount (h : Expands c 0 .top s x e k) : e.journal.peak ≤ e.journal.callCount := by
  refine Journal.peak_le_iff.2 ⟨Int.natCast_nonneg _, fun call hc => ?_⟩
  obtain ⟨i, hi, hg⟩ := List.getElem_of_mem hc
  obtain ⟨j, hj, hd, _⟩ := call_of_expands h (List.getElem?_eq_some_iff.2 ⟨hi, hg⟩)
  unfold Journal.callCount
  omega

/-- A run stays within its limits. -/
lemma fits_limits (h : Expands c 0 .top s x e k) {M N : Nat}
    (hM : c.maxDepth.toInt? = some (M : Int)) (hN : c.maxCalls.toInt? = some (N : Int)) :
    e.journal.Fits M N := by
  -- each call of the run has passed the check before it, which compared both numbers with the
  -- limits
  have checked : ∀ i (hi : i < e.journal.calls.length),
      e.journal.calls[i].depth ≤ M ∧ i < N := by
    intro i hi
    obtain ⟨j, _, hd, hl⟩ := call_of_expands h (List.getElem?_eq_some_iff.2 ⟨hi, rfl⟩)
    obtain ⟨depth, calls⟩ := Config.exceededLimit_eq_none_iff.1 hl
    have depth := mt (Number.atMost_iff hM j).2 (by simpa [Depth.value] using depth)
    have calls := mt (Number.atMost_iff hN i).2 (by simp [calls])
    omega
  constructor
  · refine Journal.peak_le_iff.2 ⟨Int.natCast_nonneg M, fun call hc => ?_⟩
    obtain ⟨i, hi, rfl⟩ := List.getElem_of_mem hc
    exact (checked i hi).1
  · -- the last call was still allowed, and there are no more calls than it and those before it
    rcases Nat.eq_zero_or_pos e.journal.callCount with zero | pos
    · omega
    · have := (checked (e.journal.callCount - 1) (Nat.sub_one_lt_of_lt pos)).2
      omega

/-- A run without errors goes the same way under any limits that it fits. -/
lemma agrees_of_fits (h : Expands c 0 .top s x e k) (clean : e.journal.hasErrors = false)
    {c' : Config} {M N : Nat} (hM : c'.maxDepth.toInt? = some (M : Int))
    (hN : c'.maxCalls.toInt? = some (N : Int)) (fits : e.journal.Fits M N) :
    e.Agrees (c'.expansion 0 .top s x) := by
  apply agrees_of_allowed h clean
  -- a check of the run is at a counted depth, that of its call less one, and after fewer calls
  -- than there are in all
  intro d i call reach hc hd _
  obtain ⟨m, rfl⟩ := Depth.eq_counted_of_reaches reach
  have depth := Journal.depth_le_peak (List.mem_of_getElem? hc)
  have number : i < e.journal.callCount := (List.getElem?_eq_some_iff.1 hc).1
  obtain ⟨peak, calls⟩ := fits
  rw [hd, Depth.next, Depth.value] at depth
  refine Config.exceededLimit_eq_none_iff.2 ⟨?_, ?_⟩
  · apply Bool.eq_false_iff.2
    intro hl
    have := (Number.atMost_iff hM _).1 hl
    rw [Depth.value] at this
    omega
  · apply Bool.eq_false_iff.2
    intro hl
    have := (Number.atMost_iff hN _).1 hl
    omega

end FromTheTop

/-! ## Documents -/

namespace Document

variable {c : Config} {d : Document} {outer : Scope} {v : Node} {info : RunInfo}

/-- The journal of the expansion of a document. -/
def expandJournal (c : Config) (d : Document) (outer : Scope) : Journal :=
  .report (d.unresolvedImports outer) ++ (d.expandOn c 0 outer).2

lemma expand_eq :
    d.expand c outer = Run.ofJournal (d.expandOn c 0 outer).1 (d.expandJournal c outer) .expansion
      (.ofJournal c (d.expandJournal c outer)) :=
  rfl

lemma graded_expandJournal : (d.expandJournal c outer).Graded c.collisions :=
  Journal.graded_append.2
    ⟨Journal.graded_report (d.areFaults_unresolvedImports outer), d.graded_expandOn c 0 outer⟩

/-- A document is done exactly if its imports are resolved, its declarations are collected without
an error, and so its body expands to one node. -/
lemma expand_done_iff :
    (d.expand c outer).outcome = .done v info ↔
      ∃ body, d.terminal? = some body ∧ body.isExportList = false ∧
        (Journal.report (d.unresolvedImports outer)).hasErrors = false ∧
        (collect c.collisions d.declarations outer).2.hasErrors = false ∧
        (d.bodyExpansion c 0 outer body).journal.hasErrors = false ∧
        (d.bodyExpansion c 0 outer body).nodes = [v] ∧
        info = (RunInfo.ofJournal c (d.expandJournal c outer)).withWarnings
          (d.expandJournal c outer) := by
  rw [expand_eq]
  constructor
  · -- a value without errors: each of the three journals is free of them
    intro h
    obtain ⟨value, clean, rfl⟩ := Run.of_done graded_expandJournal h
    have pair : d.expandOn c 0 outer = (some v, (d.expandOn c 0 outer).2) := Prod.ext value rfl
    obtain ⟨body, ht, hx, nodes, journal⟩ := expandOn_eq_some_iff.1 pair
    rw [expandJournal, journal] at clean
    simp only [Journal.hasErrors_append, Bool.or_eq_false_iff] at clean
    exact ⟨body, ht, hx, clean.1, clean.2.1, clean.2.2, nodes, rfl⟩
  · rintro ⟨body, ht, hx, imports, declarations, clean, nodes, rfl⟩
    have pair := expandOn_eq_some_iff.2 ⟨body, ht, hx, nodes, rfl⟩
    have clean : (d.expandJournal c outer).hasErrors = false := by
      simp [expandJournal, pair, imports, declarations, clean]
    rw [pair]
    exact Run.done_of_clean clean

lemma expandJournal_of_body {body : Node} (ht : d.terminal? = some body)
    (hx : body.isExportList = false) (nodes : (d.bodyExpansion c 0 outer body).nodes = [v]) :
    d.expandJournal c outer = .report (d.unresolvedImports outer) ++
      ((collect c.collisions d.declarations outer).2 ++
        (d.bodyExpansion c 0 outer body).journal) := by
  rw [expandJournal, expandOn_eq_some_iff.2 ⟨body, ht, hx, nodes, rfl⟩]

/-- Runs that agree are recorded alike. -/
lemma withWarnings_congr {c' : Config} {j j' : Journal} (trace : c'.trace = c.trace)
    (h : j.Agrees j') :
    (RunInfo.ofJournal c' j').withWarnings j' = (RunInfo.ofJournal c j).withWarnings j := by
  simp only [RunInfo.withWarnings, RunInfo.ofJournal, trace, h.diagnostics, h.calls,
    h.callCount_eq, h.peak_eq]

/-- The calls of a run that is done are those of the body. -/
lemma calls_expandJournal {body : Node} (ht : d.terminal? = some body)
    (hx : body.isExportList = false) (nodes : (d.bodyExpansion c 0 outer body).nodes = [v]) :
    (d.expandJournal c outer).calls = (d.bodyExpansion c 0 outer body).journal.calls := by
  simp [expandJournal_of_body ht hx nodes]

end Document

/-- The configuration with other limits. -/
def Config.withLimits (c : Config) (maxDepth maxCalls : Number) : Config :=
  { c with maxDepth, maxCalls }

namespace Document

variable {c : Config} {d : Document} {outer : Scope} {v : Node} {info : RunInfo}
variable {x y : Number} {M N : Nat}

/-- Under limits that its calls fit, a document that is done is done again. -/
lemma done_withLimits_of_fits (h : (d.expand c outer).outcome = .done v info)
    (hM : x.toInt? = some (M : Int)) (hN : y.toInt? = some (N : Int))
    (fits : (d.expandJournal c outer).Fits M N) :
    (d.expand (c.withLimits x y) outer).outcome = .done v info := by
  obtain ⟨body, ht, hx, imports, declarations, clean, nodes, rfl⟩ := expand_done_iff.1 h
  obtain ⟨_, run⟩ := d.exists_expands_body c 0 outer body
  have fits := (Journal.fits_congr (calls_expandJournal ht hx nodes)).1 fits
  have agrees : (d.bodyExpansion c 0 outer body).Agrees
      (d.bodyExpansion (c.withLimits x y) 0 outer body) :=
    agrees_of_fits run clean hM hN fits
  have nodes' := agrees.nodes.symm.trans nodes
  refine expand_done_iff.2 ⟨body, ht, hx, imports, declarations, ?_, nodes', ?_⟩
  · rw [← agrees.journal.hasErrors_eq, clean]
  · have same : (d.expandJournal c outer).Agrees (d.expandJournal (c.withLimits x y) outer) := by
      rw [expandJournal_of_body ht hx nodes, expandJournal_of_body ht hx nodes']
      exact (Journal.Agrees.refl _).append ((Journal.Agrees.refl _).append agrees.journal)
    exact (withWarnings_congr rfl same).symm

/-- Under limits that its calls do not fit, a document that is done fails. -/
lemma fails_withLimits_of_not_fits (h : (d.expand c outer).outcome = .done v info)
    (hM : x.toInt? = some (M : Int)) (hN : y.toInt? = some (N : Int))
    (fits : ¬(d.expandJournal c outer).Fits M N) :
    ∃ failure info', (d.expand (c.withLimits x y) outer).outcome = .fail failure info' ∧
      ∃ r ∈ failure.diagnostics, r.kind = .expansionLimit := by
  obtain ⟨body, ht, hx, imports, declarations, clean, nodes, rfl⟩ := expand_done_iff.1 h
  obtain ⟨_, run⟩ := d.exists_expands_body c 0 outer body
  obtain ⟨_, run'⟩ := d.exists_expands_body (c.withLimits x y) 0 outer body
  have unfit := mt (Journal.fits_congr (calls_expandJournal ht hx nodes)).2 fits
  rcases agrees_or_stopped run clean (c.withLimits x y) 0 with agrees | ⟨r, hr, kind⟩
  · -- a run that agrees would be within its own limits
    have same : (d.bodyExpansion c 0 outer body).journal.calls =
        (d.bodyExpansion (c.withLimits x y) 0 outer body).journal.calls := agrees.journal.calls
    have within := (Journal.fits_congr same).2 (fits_limits run' hM hN)
    exact absurd within unfit
  · have mem : r ∈ (d.expandJournal (c.withLimits x y) outer).diagnostics := by
      rw [expandJournal, expandOn_of_body ht hx]
      simp only [Journal.diagnostics_append, List.mem_append]
      exact .inr (.inr (mem_diagnostics_soleNode hr body))
    rw [← kind]
    exact Run.fails_with graded_expandJournal mem (run'.areOwnFaults.areFaults r hr).isError

/-- A document that is done reports the number and depth of its calls, which are within the limits
that it was run under. -/
lemma fits_of_done (hM : c.maxDepth.toInt? = some (M : Int))
    (hN : c.maxCalls.toInt? = some (N : Int)) (h : (d.expand c outer).outcome = .done v info) :
    info.budget = some ⟨some (d.expandJournal c outer).callCount,
        some (d.expandJournal c outer).peak⟩ ∧
      (d.expandJournal c outer).Fits M N ∧
      (d.expandJournal c outer).peak ≤ (d.expandJournal c outer).callCount := by
  obtain ⟨body, ht, hx, _, _, _, nodes, rfl⟩ := expand_done_iff.1 h
  obtain ⟨_, run⟩ := d.exists_expands_body c 0 outer body
  have calls := calls_expandJournal ht hx nodes
  have own := (Journal.fits_congr calls).2 (fits_limits run hM hN)
  have nested := peak_le_callCount run
  refine ⟨rfl, own, ?_⟩
  rw [Journal.peak, Journal.callCount, calls]
  exact nested

end Document

open Document in
/-- **The reported budget is tight.**  A document that is done under limits `M` and `N` has made
`C ≤ N` calls, nested to a depth `D ≤ M`, and `D ≤ C`.  Under any other limits that reach `D` and
`C` it is done with the same node and the same record; under all others it fails, and a limit is
among the errors. -/
theorem expand_budget_tight {c : Config} {M N : Nat} (hM : c.maxDepth.toInt? = some (M : Int))
    (hN : c.maxCalls.toInt? = some (N : Int)) {d : Document} {outer : Scope} {v : Node}
    {info : RunInfo} (h : (d.expand c outer).outcome = .done v info) :
    ∃ C D : Nat, info.budget = some ⟨some C, some D⟩ ∧ C ≤ N ∧ D ≤ M ∧ D ≤ C ∧
      ∀ (x y : Number) (M' N' : Nat), x.toInt? = some (M' : Int) →
        y.toInt? = some (N' : Int) →
        ((d.expand (c.withLimits x y) outer).outcome.isDone = true ↔ D ≤ M' ∧ C ≤ N') ∧
        (D ≤ M' ∧ C ≤ N' → (d.expand (c.withLimits x y) outer).outcome = .done v info) ∧
        (¬(D ≤ M' ∧ C ≤ N') → ∃ failure info',
          (d.expand (c.withLimits x y) outer).outcome = .fail failure info' ∧
            ∃ r ∈ failure.diagnostics, r.kind = .expansionLimit) := by
  obtain ⟨budget, own, nested⟩ := fits_of_done hM hN h
  have depth : ((d.expandJournal c outer).peak.toNat : Int) = (d.expandJournal c outer).peak :=
    Int.toNat_of_nonneg (Journal.peak_nonneg _)
  -- the greatest depth is an integer in the record and a natural number in the statement
  have fits_iff : ∀ M' N' : Nat, (d.expandJournal c outer).Fits M' N' ↔
      (d.expandJournal c outer).peak.toNat ≤ M' ∧ (d.expandJournal c outer).callCount ≤ N' := by
    intro M' N'
    rw [Journal.Fits, ← depth, Int.ofNat_le, Int.toNat_natCast]
  refine ⟨(d.expandJournal c outer).callCount, (d.expandJournal c outer).peak.toNat, ?_,
    own.2, ((fits_iff M N).1 own).1, by omega, fun x y M' N' hM' hN' => ?_⟩
  · rw [budget, depth]
  · rw [← fits_iff]
    have within := done_withLimits_of_fits h hM' hN'
    have beyond := fails_withLimits_of_not_fits h hM' hN'
    refine ⟨⟨fun done => ?_, fun fits => ?_⟩, within, beyond⟩
    · -- under limits that do not fit the document would have failed
      by_cases fits : (d.expandJournal c outer).Fits M' N'
      · exact fits
      · obtain ⟨failure, info', fails, _⟩ := beyond fits
        rw [fails] at done
        cases done
    · rw [within fits]
      rfl

/-- A document with a template that calls another, and a body that calls both. -/
def Document.boxAndCard : Document where
  nodes := [.bare "box" [.bare "rect" []], .bare "card" [.bare "box" []],
    .bare "page" [.bare "card" [], .bare "box" []]]
  span := .none

/-- Three calls, nested to a depth of two, are just enough for a box in a card and a box. -/
theorem boxAndCard_budget :
    ∃ v info, (Document.boxAndCard.expand .default .root).outcome = .done v info ∧
      info.budget = some ⟨some 3, some 2⟩ ∧
      (Document.boxAndCard.expand (Config.default.withLimits (.ofInt 2) (.ofInt 3)) .root).outcome =
        .done v info := by
  have isDone : (Document.boxAndCard.expand .default .root).outcome.isDone = true := by
    decide +kernel
  rcases h : (Document.boxAndCard.expand .default .root).outcome with ⟨v, info⟩ | ⟨failure, info⟩
  · obtain ⟨C, D, budget, _, _, _, tight⟩ := expand_budget_tight (M := 256) (N := 100000)
      (by decide +kernel) (by decide +kernel) h
    have enough := tight (.ofInt 2) (.ofInt 3) 2 3 (by decide +kernel) (by decide +kernel)
    have shallow := tight (.ofInt 1) (.ofInt 3) 1 3 (by decide +kernel) (by decide +kernel)
    have few := tight (.ofInt 2) (.ofInt 2) 2 2 (by decide +kernel) (by decide +kernel)
    have fits := enough.1.1 (by decide +kernel)
    -- one level or one call less is not enough, so the two numbers are exact
    have not_shallow := mt shallow.1.2 (by decide +kernel)
    have not_few := mt few.1.2 (by decide +kernel)
    obtain rfl : C = 3 := by omega
    obtain rfl : D = 2 := by omega
    exact ⟨v, info, rfl, budget, enough.2.1 fits⟩
  · rw [h] at isDone
    cases isDone

end Stencil
