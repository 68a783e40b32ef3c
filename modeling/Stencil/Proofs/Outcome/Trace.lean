import Stencil.Proofs.Expansion.Trace
import Stencil.Proofs.Outcome.Faithful
import Stencil.Proofs.Outcome.Settings

/-!
# The trace of a run

With tracing on, an operation tells of every call that it made.  The trace is a preorder listing of
the calls, numbered from one, that agrees with the budget: it has as many steps as the run made
calls, and its greatest depth is the depth of the run (`Step.Lists`).  Whether calls are traced and
at which level the console shows lines makes no difference beside the trace itself
(`trace_is_faithful`).

That holds of documents and of links.  Each file of a link begins at the top again, and what comes
between the files makes no calls, so the calls of a link are listed like those of siblings.

The listing is in preorder because calls are recorded when they are made and not when they end.  A
later call may be nested in the one before it, but no deeper than that, or it comes after any number
of calls have ended (`Call.Follow`).
-/

namespace Stencil

open Journal

/-! ## Steps and calls -/

/-- The depths of the calls that some steps list. -/
def Step.depths (steps : List Step) : List Int :=
  steps.map fun step => step.call.depth

/-- Steps that list calls of a number and a greatest depth in preorder.  The depths alone determine
the tree of the calls: a step is a child of the last step before it that is less deep. -/
structure Step.Lists (steps : List Step) (calls depth : Int) : Prop where
  count : steps.length = calls
  numbered : steps.map Step.number = List.range' 1 steps.length
  first : ∀ d ∈ (depths steps).head?, d = 1
  inside : ∀ d ∈ depths steps, 1 ≤ d
  nested : List.IsChain (fun a b : Int => b ≤ a + 1) (depths steps)
  le_depth : ∀ d ∈ depths steps, d ≤ depth
  deepest : steps ≠ [] → depth ∈ depths steps
  idle : steps = [] → depth = 0

namespace RunInfo

lemma length_steps (calls : List Call) : (steps calls).length = calls.length := by
  rw [steps, List.length_map, List.length_zipIdx]

lemma map_number_steps (calls : List Call) :
    (steps calls).map Step.number = List.range' 1 calls.length := by
  have numbers : (steps calls).map Step.number = (calls.zipIdx.map Prod.snd).map (1 + ·) := by
    rw [steps, List.map_map, List.map_map]
    exact List.map_congr_left fun pair _ => Nat.add_comm pair.2 1
  rw [numbers, List.zipIdx_map_snd, List.map_add_range']

lemma depths_steps (calls : List Call) : Step.depths (steps calls) = calls.map Call.depth := by
  have calls_eq : (steps calls).map Step.call = calls := by
    rw [steps, List.map_map]
    exact List.zipIdx_map_fst 0 calls
  conv_rhs => rw [← calls_eq, List.map_map]
  rfl

end RunInfo

namespace Journal

variable {j : Journal}

/-- The greatest depth is that of a call, if one is made inside the top. -/
lemma exists_depth_eq_peak {call : Call} (mem : call ∈ j.calls) (inside : 0 < call.depth) :
    ∃ call ∈ j.calls, call.depth = j.peak := by
  by_contra none
  have lower : j.peak ≤ j.peak - 1 := by
    refine peak_le_iff.2 ⟨?_, fun other ho => ?_⟩
    · have := depth_le_peak mem
      omega
    · have := depth_le_peak ho
      have : other.depth ≠ j.peak := fun same => none ⟨other, ho, same⟩
      omega
  omega

/-- The steps of calls in preorder list them, with the budget of the journal. -/
lemma lists_steps (follow : Call.Follow 0 j.calls) :
    Step.Lists (RunInfo.steps j.calls) j.callCount j.peak := by
  have empty_iff : RunInfo.steps j.calls = [] ↔ j.calls = [] := by
    rw [← List.length_eq_zero_iff, RunInfo.length_steps, List.length_eq_zero_iff]
  -- every call is inside the top, so each depth is at least one
  have inside : ∀ d ∈ j.calls.map Call.depth, 1 ≤ d := by
    intro d hd
    obtain ⟨call, hc, rfl⟩ := List.mem_map.1 hd
    exact follow.inside call hc
  constructor
  case count =>
    rw [RunInfo.length_steps]
    rfl
  case numbered => rw [RunInfo.map_number_steps, RunInfo.length_steps]
  case first =>
    rw [RunInfo.depths_steps]
    intro d hd
    obtain ⟨rest, list⟩ := List.head?_eq_some_iff.1 hd
    have low := inside d (List.mem_of_mem_head? hd)
    have steps := follow.steps
    rw [list] at steps
    have high := (List.isChain_cons_cons.1 steps).1
    omega
  case inside => rwa [RunInfo.depths_steps]
  case nested =>
    rw [RunInfo.depths_steps]
    exact follow.steps.tail
  case le_depth =>
    rw [RunInfo.depths_steps]
    intro d hd
    obtain ⟨call, hc, rfl⟩ := List.mem_map.1 hd
    exact depth_le_peak hc
  case deepest =>
    rw [RunInfo.depths_steps, Ne, empty_iff]
    intro some
    obtain ⟨call, mem⟩ := List.exists_mem_of_ne_nil _ some
    exact List.mem_map.2 (exists_depth_eq_peak mem (follow.inside call mem))
  case idle =>
    rw [empty_iff]
    intro none
    rw [peak, none]
    rfl

end Journal

/-! ## Outcomes without their traces -/

/-- An outcome without its trace. -/
def Outcome.withoutTrace {α : Type} : Outcome α → Outcome α
  | .done value info => .done value { info with trace := none }
  | .fail failure info => .fail failure { info with trace := none }

/-- An operation that traces its calls faithfully and for free. -/
structure TracesCalls {α : Type} (run : Config → Run α) : Prop where
  listed : ∀ c : Config, c.trace = true → ∃ steps calls depth,
    (run c).outcome.info.trace = some steps ∧
      (run c).outcome.info.budget = some ⟨some calls, some depth⟩ ∧ Step.Lists steps calls depth
  /-- Without tracing there is no trace, and everything else is the same. -/
  untraced : ∀ c : Config,
    (run { c with trace := false }).outcome = (run c).outcome.withoutTrace
  /-- The level of the console changes nothing. -/
  unleveled : ∀ (c : Config) (level : LogLevel), (run { c with level }).outcome = (run c).outcome

namespace Run

variable {α : Type} {value : Option α} {j : Journal} {reason : FailureReason} {info : RunInfo}

lemma info_ofJournal :
    (Run.ofJournal value j reason info).outcome.info = info.withWarnings j := by
  unfold Run.ofJournal Outcome.ofDiagnostics
  dsimp only
  split <;> rfl

lemma withoutTrace_ofJournal :
    (Run.ofJournal value j reason info).outcome.withoutTrace =
      (Run.ofJournal value j reason { info with trace := none }).outcome := by
  unfold Run.ofJournal Outcome.ofDiagnostics
  dsimp only
  split <;> rfl

/-- A run of calls in preorder traces them, if it is the same under settings with the same limits
and the same policy. -/
lemma tracesCalls {value : Config → Option α} {j : Config → Journal} {reason : FailureReason}
    (follow : ∀ c, Call.Follow 0 (j c).calls)
    (same : ∀ c c' : Config, c.SameLimits c' → c.collisions = c'.collisions →
      Stage.Agrees (value c, j c) (value c', j c')) :
    TracesCalls fun c => Run.ofJournal (value c) (j c) reason (.ofJournal c (j c)) where
  listed c traced := by
    rw [info_ofJournal]
    refine ⟨RunInfo.steps (j c).calls, (j c).callCount, (j c).peak, ?_, rfl,
      lists_steps (follow c)⟩
    exact if_pos traced
  -- the settings that are left out have the same limits and policy, so both stages end alike; only
  -- the trace is taken or not
  untraced c := by
    obtain ⟨values, journals⟩ := same { c with trace := false } c ⟨rfl, rfl⟩ rfl
    dsimp only at values journals ⊢
    rw [withoutTrace_ofJournal, values]
    simp only [Run.ofJournal, RunInfo.ofJournal, journals.diagnostics, journals.callCount_eq,
      journals.peak_eq]
    rfl
  unleveled c level := by
    obtain ⟨values, journals⟩ := same { c with level } c ⟨rfl, rfl⟩ rfl
    dsimp only at values journals ⊢
    rw [values]
    simp only [Run.ofJournal, RunInfo.ofJournal, journals.diagnostics, journals.callCount_eq,
      journals.peak_eq, journals.calls]

end Run

/-! ## Documents and links -/

lemma Document.follow_expandOn (c : Config) (used : Nat) (d : Document) (outer : Scope) :
    Call.Follow 0 (d.expandOn c used outer).2.calls := by
  rcases d.exists_body_or_report with ⟨body, terminal, list⟩ | ⟨_, report⟩
  · obtain ⟨_, run⟩ := d.exists_expands_body c used outer body
    rw [expandOn_of_body terminal list, calls_append, calls_collect, List.nil_append,
      calls_soleNode]
    exact run.follow
  · rw [report]
    exact .nil 0

lemma Document.follow_product (c : Config) (used : Nat) (d : Document) (scope : Scope) :
    Call.Follow 0 (d.product c used scope).2.calls := by
  unfold product
  split
  · rw [calls_exportsOn]
    exact .nil 0
  · exact d.follow_expandOn c used scope

/-- The calls of files come one after another. -/
lemma Linkage.follow_after (c : Config) (units : Keyed LinkUnit) (outer : Scope)
    (files : List String) {journal : Journal} (silent : journal.calls = []) :
    Call.Follow 0 (after c units outer journal files).journal.calls := by
  induction files using List.reverseRecOn with
  | nil =>
    rw [after, List.foldl_nil, start, silent]
    exact .nil 0
  | append_singleton files id ih =>
    rw [after_concat]
    rcases hu : units.get? id with _ | u
    · simpa only [add, hu] using ih
    · rw [add_eq hu, calls_append, own, calls_append, calls_append, calls_report, calls_resolveOn,
        List.nil_append, List.nil_append]
      exact ih.append (u.document.follow_product c _ _)

lemma follow_linkOn (c : Config) (sources : List SourceFile) (outer : Scope) :
    Call.Follow 0 (linkOn c sources outer).2.calls := by
  rcases order : (importGraph (linkUnits sources).1).order with files | files
  · rw [linkOn_of_sorted c outer order]
    exact Linkage.follow_after c _ outer files (calls_linkStart sources files)
  · rw [linkOn]
    simp only [order, calls_append, calls_linkUnits]
    exact .nil 0

/-- **The trace is faithful and free**, for documents and for links.  With tracing on, the trace has
as many steps as the budget has calls, numbered from one; the first call is made at depth one, each
later one at a depth between one and one more than that of the call before it, and the greatest
depth is that of the budget, or zero without calls.  With tracing off the outcome is the same but
for the trace, and the level of the console does not enter it. -/
theorem trace_is_faithful :
    (∀ (d : Document) (outer : Scope), TracesCalls fun c => d.expand c outer) ∧
      ∀ (sources : List SourceFile) (outer : Scope), TracesCalls fun c => link c sources outer := by
  constructor
  · intro d outer
    refine Run.tracesCalls (fun c => ?_) fun c c' limits policy => ?_
    · exact d.follow_expandOn c 0 outer
    · exact Document.agrees_expansion limits (.inl policy)
  · intro sources outer
    refine Run.tracesCalls (fun c => follow_linkOn c sources outer) fun c c' limits policy => ?_
    exact agrees_linkOn limits (.inl policy)

/-- A card with a box in it and a box beside it make three calls at the depths one, two and one. -/
example :
    (Document.boxAndCard.expand { Config.default with trace := true }
      .root).outcome.info.trace.map Step.depths = some [1, 2, 1] := by
  decide +kernel

end Stencil
