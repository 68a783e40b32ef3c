import Mathlib.Logic.Function.Iterate
import Stencil.Proofs.Diagnostic.Fault
import Stencil.Proofs.Number.Bound

/-!
# Expansions and limits

A run meets its limits at one kind of place only, before a call.  What it finds there is the
limit on depth, which depends on the nesting of calls, and the limit on calls, which depends on
the number of calls made so far.  Everything else in an expansion is blind to limits.

So two expansions of the same subject, under any two configurations and after any two numbers of
earlier calls, go the same way until a check at which one is stopped and the other is not
(`agrees_or_parts`).  If they never part they have the same nodes, the same diagnostics and the
same calls; only the log may differ, which numbers the calls of the run.

A single run in turn can be read backwards: every call that it made has passed its check
(`passed_of_called`).

To say where two runs part, a check has to be named without naming the run that it is part of.  It
is given by the number of calls made before it and by its depth (`Expansion.Checks`); both are
relative, so that a check of a part becomes one of the whole by adding the calls that came before
(`Expansion.Holds.checks`).  Everything else follows rule by rule.
-/

namespace Stencil

/-! ## Agreement -/

/-- Two journals that report the same and make the same calls.  The logs may differ. -/
structure Journal.Agrees (a b : Journal) : Prop where
  diagnostics : a.diagnostics = b.diagnostics
  calls : a.calls = b.calls

/-- Two expansions to the same nodes, with journals that agree. -/
structure Expansion.Agrees (a b : Expansion) : Prop where
  nodes : a.nodes = b.nodes
  journal : a.journal.Agrees b.journal

namespace Journal.Agrees

variable {a b a' b' : Journal}

lemma refl (a : Journal) : a.Agrees a :=
  ⟨rfl, rfl⟩

lemma append (h : a.Agrees b) (h' : a'.Agrees b') : (a ++ a').Agrees (b ++ b') where
  diagnostics := by simp [h.diagnostics, h'.diagnostics]
  calls := by simp [h.calls, h'.calls]

lemma callCount_eq (h : a.Agrees b) : a.callCount = b.callCount := by
  rw [Journal.callCount, h.calls, Journal.callCount]

lemma hasErrors_eq (h : a.Agrees b) : a.hasErrors = b.hasErrors := by
  rw [Journal.hasErrors, h.diagnostics, Journal.hasErrors]

end Journal.Agrees

namespace Expansion.Agrees

variable {a b a' b' : Expansion}

lemma refl (a : Expansion) : a.Agrees a :=
  ⟨rfl, .refl _⟩

lemma append (h : a.Agrees b) (h' : a'.Agrees b') : (a ++ a').Agrees (b ++ b') where
  nodes := by simp [h.nodes, h'.nodes]
  journal := h.journal.append h'.journal

end Expansion.Agrees

/-! ## Coming to a limit -/

/-- Some number of calls inside a depth lies another. -/
def Depth.Reaches (outer inner : Depth) : Prop :=
  ∃ j, inner = Depth.next^[j] outer

namespace Depth

lemma reaches_refl (d : Depth) : d.Reaches d :=
  ⟨0, rfl⟩

lemma reaches_of_next {outer inner : Depth} (h : outer.next.Reaches inner) :
    outer.Reaches inner := by
  obtain ⟨j, hj⟩ := h
  exact ⟨j + 1, hj⟩

lemma iterate_next_counted (j n : Nat) : next^[j] (.counted n) = .counted (n + j) := by
  induction j generalizing n with
  | zero => rfl
  | succ j ih =>
    rw [Function.iterate_succ_apply, next, ih]
    congr 1
    omega

/-- From the top down, depths are counted. -/
lemma eq_counted_of_reaches {n : Nat} {d : Depth} (h : (counted n).Reaches d) :
    ∃ m, d = .counted m := by
  obtain ⟨j, rfl⟩ := h
  exact ⟨n + j, iterate_next_counted j n⟩

end Depth

namespace Config

variable {c : Config} {depth : Depth} {used : Nat}

lemma exceededLimit_eq_none_iff :
    c.exceededLimit? depth used = none ↔
      c.maxDepth.atMost depth.value = false ∧ c.maxCalls.atMost used = false := by
  unfold exceededLimit?
  split
  · simp_all
  · split <;> simp_all

end Config

/-- After `i` of its calls the run comes to a check at a depth: a limit that forbids the call is
reported, and a run that passes goes on to the call, unless an error keeps it from being made. -/
structure Expansion.Checks (e : Expansion) (c : Config) (used : Nat) (depth : Depth)
    (i : Nat) : Prop where
  made : i ≤ e.journal.callCount
  stopped : ∀ limit, c.exceededLimit? depth (used + i) = some limit →
    ∃ span, limit.reportedAt span ∈ e.journal.diagnostics
  passed : c.exceededLimit? depth (used + i) = none →
    e.journal.hasErrors = true ∨
      ∃ call, e.journal.calls[i]? = some call ∧ call.depth = depth.next.value

/-- Two runs that began at a depth come to the same check, which forbids the call to one and not
to the other, or to both for different limits. -/
def Expansion.Parts (e e' : Expansion) (c c' : Config) (used used' : Nat) (depth : Depth) :
    Prop :=
  ∃ d i, depth.Reaches d ∧ e.Checks c used d i ∧ e'.Checks c' used' d i ∧
    c.exceededLimit? d (used + i) ≠ c'.exceededLimit? d (used' + i)

/-- A run that has another for a part: the calls of the part come after `before`, and all that
the part reports is reported. -/
structure Expansion.Holds (whole part : Expansion) (before : List Call) : Prop where
  calls : before ++ part.journal.calls <+: whole.journal.calls
  diagnostics : part.journal.diagnostics ⊆ whole.journal.diagnostics

namespace Expansion.Holds

variable {c c' : Config} {used used' : Nat} {whole part whole' part' : Expansion}

lemma checks {before : List Call} (h : whole.Holds part before) {depth : Depth} {i : Nat}
    (hp : part.Checks c (used + before.length) depth i) :
    whole.Checks c used depth (before.length + i) where
  made := by
    have := hp.made
    have := h.calls.length_le
    simp only [Journal.callCount, List.length_append] at *
    omega
  stopped limit hl := by
    rw [← Nat.add_assoc] at hl
    obtain ⟨span, hs⟩ := hp.stopped limit hl
    exact ⟨span, h.diagnostics hs⟩
  passed hn := by
    rw [← Nat.add_assoc] at hn
    rcases hp.passed hn with he | ⟨call, hc, hd⟩
    · -- an error of the part is one of the whole
      left
      obtain ⟨d, hd, hde⟩ := List.any_eq_true.1 he
      exact List.any_eq_true.2 ⟨d, h.diagnostics hd, hde⟩
    · -- the call of the part comes after the calls before it, and the whole has made it
      right
      obtain ⟨after, ha⟩ := h.calls
      refine ⟨call, ?_, hd⟩
      have lt : i < part.journal.calls.length := (List.getElem?_eq_some_iff.1 hc).1
      rw [← ha, List.append_assoc, List.getElem?_append_right (Nat.le_add_right _ _),
        Nat.add_sub_cancel_left, List.getElem?_append_left lt]
      exact hc

/-- Runs part if, after the same calls, parts of them do. -/
lemma parts (before : List Call) (h : whole.Holds part before) (h' : whole'.Holds part' before)
    {depth inner : Depth} (deeper : ∀ d, inner.Reaches d → depth.Reaches d)
    (hp : part.Parts part' c c' (used + before.length) (used' + before.length) inner) :
    whole.Parts whole' c c' used used' depth := by
  obtain ⟨d, i, reach, check, check', differ⟩ := hp
  refine ⟨d, before.length + i, deeper d reach, h.checks check, h'.checks check', ?_⟩
  rwa [← Nat.add_assoc, ← Nat.add_assoc]

end Expansion.Holds

/-! ## Two runs -/

section TwoRuns

variable {c c' : Config} {used used' : Nat} {depth : Depth} {s : Scope} {n : Node}

/-- A node that calls a template comes to a check first. -/
lemma checks_expandNode {t : Template} {call : Node} {problems : List Diagnostic}
    (hr : s.reading n = (.call t call, problems)) :
    (expandNode c used depth s n).Checks c used depth 0 where
  made := Nat.zero_le _
  stopped limit hl := by
    rw [Nat.add_zero] at hl
    rw [expandNode_of_limited hr hl]
    exact ⟨call.span, List.mem_singleton_self _⟩
  passed hn := by
    rw [Nat.add_zero] at hn
    rcases hb : t.bindCall call s with ⟨_ | frame, faults⟩
    · -- a call that is refused has been reported as an error
      left
      rw [expandNode_of_refused hr hn hb]
      obtain ⟨d, hd⟩ := List.exists_mem_of_ne_nil _ (Template.ne_nil_of_bindCall_eq_none hb)
      have fault := (t.areOwnFaults_bindCall call s).areFaults d (by rwa [hb])
      exact List.any_eq_true.2 ⟨d, hd, fault.isError⟩
    · right
      rw [expandNode_of_called hr hn hb]
      exact ⟨_, rfl, rfl⟩

lemma parts_expandNode {t : Template} {call : Node} {problems : List Diagnostic}
    (hr : s.reading n = (.call t call, problems))
    (differ : c.exceededLimit? depth used ≠ c'.exceededLimit? depth used') :
    (expandNode c used depth s n).Parts (expandNode c' used' depth s n) c c' used used' depth :=
  ⟨depth, 0, depth.reaches_refl, checks_expandNode hr, checks_expandNode hr, differ⟩

/-- **Two expansions of one subject agree, or they part at a limit.** -/
theorem agrees_or_parts {x : Subject} {e : Expansion} {k : Nat}
    (h : Expands c used depth s x e k) (c' : Config) (used' : Nat) :
    e.Agrees (c'.expansion used' depth s x) ∨
      e.Parts (c'.expansion used' depth s x) c c' used used' depth := by
  -- rule by rule: the run of the other configuration is unfolded by the same reading, and only a
  -- call can tell the two apart
  induction h generalizing used' with
  | nothing reading =>
    left
    rw [Config.expansion, expandNode_of_nothing reading]
    exact .refl _
  | kept reading =>
    left
    rw [Config.expansion, expandNode_of_kept reading]
    exact .refl _
  | plain reading _ ih =>
    rw [Config.expansion, expandNode_of_plain reading]
    -- where the children part, the node does, after the same calls
    rcases ih used' with agrees | parts
    · left
      rw [Config.expansion] at agrees
      exact ⟨by rw [agrees.nodes], (Journal.Agrees.refl _).append agrees.journal⟩
    · right
      refine Expansion.Holds.parts [] ?_ ?_ (fun _ => id) parts
      · exact ⟨List.prefix_refl _, List.subset_append_right _ _⟩
      · exact ⟨List.prefix_refl _, List.subset_append_right _ _⟩
  | captured reading _ ih =>
    rw [Config.expansion, expandNode_of_captured reading]
    exact ih used'
  | @limited used depth _ _ _ _ _ limit reading check =>
    rw [Config.expansion]
    -- both may be stopped, but by the same limit, or they part here
    by_cases check' : c'.exceededLimit? depth used' = some limit
    · left
      rw [expandNode_of_limited reading check']
      exact .refl _
    · right
      rw [← expandNode_of_limited reading check]
      exact parts_expandNode reading fun same => check' (same.symm.trans check)
  | @refused used depth _ _ _ _ _ _ reading check binding =>
    rw [Config.expansion]
    -- the call would be refused by the other run as well, if it comes to it
    by_cases check' : c'.exceededLimit? depth used' = none
    · left
      rw [expandNode_of_refused reading check' binding]
      exact .refl _
    · right
      rw [← expandNode_of_refused reading check binding]
      exact parts_expandNode reading fun same => check' (same.symm.trans check)
  | @called used depth _ _ _ call _ frame faults body _ reading check binding inner ih =>
    rw [Config.expansion]
    -- both make the call, or they part at its check; inside the body both have made one call more
    by_cases check' : c'.exceededLimit? depth used' = none
    · rw [expandNode_of_called reading check' binding]
      rcases ih (used' + 1) with agrees | parts
      · left
        rw [Config.expansion] at agrees
        exact ⟨agrees.nodes, (Journal.Agrees.append ⟨rfl, rfl⟩ agrees.journal)⟩
      · right
        refine Expansion.Holds.parts [⟨call.name.inner, depth.next.value, call.span⟩] ?_ ?_
          (fun _ => Depth.reaches_of_next) parts
        · exact ⟨List.prefix_refl _, List.subset_append_right _ _⟩
        · exact ⟨List.prefix_refl _, List.subset_append_right _ _⟩
    · right
      obtain rfl := inner.eq_expansion
      rw [Config.expansion, ← expandNode_of_called reading check binding]
      exact parts_expandNode reading fun same => check' (same.symm.trans check)
  | nil =>
    left
    rw [Config.expansion, expandNodes_nil]
    exact .refl _
  | @cons used _ _ _ rest first others _ _ head _ ih₁ ih₂ =>
    rw [Config.expansion, expandNodes_cons]
    -- if the first node parts the siblings do; otherwise both have made as many calls before the
    -- rest
    rcases ih₁ used' with agrees | parts
    · rw [Config.expansion] at agrees
      rcases ih₂ (used' + first.journal.callCount) with agrees' | parts'
      · left
        rw [agrees.journal.callCount_eq] at agrees'
        exact agrees.append agrees'
      · right
        rw [← agrees.journal.callCount_eq]
        refine Expansion.Holds.parts first.journal.calls ?_ ?_ (fun _ => id) parts'
        · exact ⟨List.prefix_refl _, List.subset_append_right _ _⟩
        · rw [agrees.journal.calls]
          exact ⟨List.prefix_refl _, List.subset_append_right _ _⟩
    · right
      refine Expansion.Holds.parts [] ?_ ?_ (fun _ => id) parts
      · exact ⟨List.prefix_append _ _, List.subset_append_left _ _⟩
      · exact ⟨List.prefix_append _ _, List.subset_append_left _ _⟩

end TwoRuns

/-! ## One run -/

section OneRun

variable {c : Config} {used : Nat} {depth : Depth} {s : Scope} {x : Subject} {e : Expansion}
variable {k : Nat}

/-- Every call has passed its check, and it is nested in no more calls of the run than were made
before it. -/
lemma passed_of_called (h : Expands c used depth s x e k) {i : Nat} {call : Call}
    (hc : e.journal.calls[i]? = some call) :
    ∃ j ≤ i, call.depth = (Depth.next^[j + 1] depth).value ∧
      c.exceededLimit? (Depth.next^[j] depth) (used + i) = none := by
  induction h generalizing i with
  | nothing | limited | refused | nil => simp at hc
  | kept => simp at hc
  | plain _ _ ih => exact ih (by simpa using hc)
  | captured _ _ ih => exact ih hc
  | @called used depth _ _ _ _ _ _ _ _ _ _ check _ _ ih =>
    -- the first call is the one that was checked here; the others are the body's, one deeper and
    -- one later
    cases i with
    | zero =>
      simp only [Config.callJournal, Journal.calls_append, Journal.calls_report, List.nil_append,
        List.cons_append, List.getElem?_cons_zero, Option.some.injEq] at hc
      exact ⟨0, Nat.le_refl 0, by rw [← hc]; rfl, check⟩
    | succ i =>
      simp only [Config.callJournal, Journal.calls_append, Journal.calls_report, List.nil_append,
        List.cons_append, List.getElem?_cons_succ] at hc
      obtain ⟨j, hj, hd, hl⟩ := ih hc
      exact ⟨j + 1, by omega, hd, by rwa [← Nat.add_right_comm] at hl⟩
  | @cons used _ _ _ _ first _ _ _ _ _ ih₁ ih₂ =>
    rw [Expansion.journal_append, Journal.calls_append, List.getElem?_append] at hc
    -- a call of the siblings is one of the first node or, after all of those, one of the rest
    split at hc
    · exact ih₁ hc
    · next outside =>
      obtain ⟨j, hj, hd, hl⟩ := ih₂ hc
      refine ⟨j, by omega, hd, ?_⟩
      have : used + first.journal.callCount + (i - first.journal.calls.length) = used + i := by
        unfold Journal.callCount
        omega
      rwa [this] at hl

/-- Where a run without errors parts from another, it goes on to a call that a limit forbids to
the other, and that limit is reported. -/
lemma stopped_of_parts (h : Expands c used depth s x e k) (clean : e.journal.hasErrors = false)
    {e' : Expansion} {c' : Config} {used' : Nat} (hp : e.Parts e' c c' used used' depth) :
    ∃ d i call limit, depth.Reaches d ∧ e.journal.calls[i]? = some call ∧
      call.depth = d.next.value ∧ c.exceededLimit? d (used + i) = none ∧
      c'.exceededLimit? d (used' + i) = some limit ∧
      ∃ span, limit.reportedAt span ∈ e'.journal.diagnostics := by
  obtain ⟨d, i, reach, check, check', differ⟩ := hp
  rcases hl : c.exceededLimit? d (used + i) with _ | limit
  · rcases hl' : c'.exceededLimit? d (used' + i) with _ | limit
    · exact absurd (hl.trans hl'.symm) differ
    · rcases check.passed hl with errors | ⟨call, hc, hd⟩
      · exact absurd (clean.symm.trans errors) Bool.false_ne_true
      · exact ⟨d, i, call, limit, reach, hc, hd, hl, hl', check'.stopped limit hl'⟩
  · obtain ⟨span, hs⟩ := check.stopped limit hl
    rw [Journal.eq_nil_of_areFaults h.areOwnFaults.areFaults clean] at hs
    exact absurd hs List.not_mem_nil

/-- Under another configuration, and after another number of calls, a run without errors goes the
same way as long as its calls are allowed there. -/
lemma agrees_of_allowed (h : Expands c used depth s x e k) (clean : e.journal.hasErrors = false)
    {c' : Config} {used' : Nat}
    (allowed : ∀ d i call, depth.Reaches d → e.journal.calls[i]? = some call →
      call.depth = d.next.value → c.exceededLimit? d (used + i) = none →
      c'.exceededLimit? d (used' + i) = none) :
    e.Agrees (c'.expansion used' depth s x) := by
  apply (agrees_or_parts h c' used').resolve_right
  intro parts
  obtain ⟨d, i, call, limit, reach, hc, hd, hl, hl', _⟩ := stopped_of_parts h clean parts
  simp [allowed d i call reach hc hd hl] at hl'

/-- A run either goes the way of one without errors or reports a limit. -/
lemma agrees_or_stopped (h : Expands c used depth s x e k) (clean : e.journal.hasErrors = false)
    (c' : Config) (used' : Nat) :
    e.Agrees (c'.expansion used' depth s x) ∨
      ∃ d ∈ (c'.expansion used' depth s x).journal.diagnostics, d.kind = .expansionLimit := by
  apply (agrees_or_parts h c' used').imp_right
  intro parts
  obtain ⟨_, _, _, limit, _, _, _, _, hl, span, hs⟩ := stopped_of_parts h clean parts
  exact ⟨_, hs, Config.kind_of_exceededLimit hl⟩

end OneRun

end Stencil
