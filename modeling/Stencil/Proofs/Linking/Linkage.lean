import Mathlib.Logic.Function.Basic
import Stencil.Proofs.Linking.Product

/-!
# Linking one file after another

`Links` says what a linking amounts to, without an order: each file gives what was linked under
its name when it is read on its own, after no calls and with the tables that were linked.

A run without errors ends with such a linking (`Linkage.complete_of_clean`).  Each file was read
with the tables that were there, and those that came later are of other files.  Conversely a run
finds any linking there is, provided that it takes each file after the ones it imports and that
the limit admits the calls of all files together (`Linkage.follows_of_links`).
-/

namespace Stencil

variable {c : Config} {units : Keyed LinkUnit} {outer : Scope} {l : Linkage} {id : String}
variable {u : LinkUnit} {p : Product} {calls : List Call}

/-! ## One file -/

namespace Linkage

/-- A linkage that has taken one more file without an error.  These four fields are all that the
runs need to know of a step (`takes_of_gives`); how a file is read stays in the lemmas on units. -/
structure Takes (l : Linkage) (id : String) (p : Product) (calls : List Call) (l' : Linkage) :
    Prop where
  linked : l'.linked = l.linked.put id p
  failed : l'.failed = l.failed
  calls : l'.journal.calls = l.journal.calls ++ calls
  hasErrors : l'.journal.hasErrors = l.journal.hasErrors

/-- The journal of a file in a linking. -/
def own (c : Config) (units : Keyed LinkUnit) (outer : Scope) (l : Linkage) (u : LinkUnit) :
    Journal :=
  .report (l.listless units u) ++
    (resolveOn c (l.bindable units u) l.linked.exports outer).2 ++
    (u.document.product c l.journal.callCount
      (resolveOn c (l.bindable units u) l.linked.exports outer).1).2

lemma add_eq (hu : units.get? id = some u) :
    add c units outer l id =
      { linked := (u.document.product c l.journal.callCount
          (resolveOn c (l.bindable units u) l.linked.exports outer).1).1.elim l.linked
            (l.linked.put id)
        failed := if (l.own c units outer u).hasErrors then l.failed ++ [id] else l.failed
        journal := l.journal ++ l.own c units outer u } := by
  simp only [add, hu, Document.read_eq]
  rfl

/-- The requests of a unit are bound if and only if none of them is to a file without an export
list, as long as no file failed. -/
lemma bindable_eq_iff (failed : l.failed = []) :
    l.bindable units u = u.requests ↔ l.listless units u = [] := by
  rw [bindable, listless, List.filter_eq_self, List.map_eq_nil_iff, List.filter_eq_nil_iff]
  apply forall₂_congr
  intro r _
  unfold disposition
  rw [failed]
  split <;> simp

lemma bindable_eq_of_has (h : ∀ r ∈ u.requests, l.linked.exports.has r.file = true) :
    l.bindable units u = u.requests := by
  apply List.filter_eq_self.2
  intro r hr
  simp [disposition, h r hr]

lemma hasErrors_of_add (clean : (add c units outer l id).journal.hasErrors = false) :
    l.journal.hasErrors = false := by
  rcases hu : units.get? id with _ | u
  · simpa only [add, hu] using clean
  · rw [add_eq hu, Journal.hasErrors_append, Bool.or_eq_false_iff] at clean
    exact clean.1

/-- A file that adds no error gives something. -/
lemma exists_gives (failed : l.failed = []) (hu : units.get? id = some u)
    (clean : (add c units outer l id).journal.hasErrors = false) :
    ∃ p calls, u.Gives c l.journal.callCount outer l.linked.exports p calls := by
  rw [add_eq hu] at clean
  simp only [own, Journal.hasErrors_append, Bool.or_eq_false_iff] at clean
  obtain ⟨_, ⟨listless, resolved⟩, read⟩ := clean
  have none : l.listless units u = [] := by
    have faults : Diagnostic.AreFaults (l.listless units u) := l.areFaults_listless units u
    exact (Journal.hasErrors_report_eq_false_iff faults).1 listless
  rw [(bindable_eq_iff failed).2 none] at resolved read
  obtain ⟨p, hp⟩ := Document.exists_product read
  exact ⟨p, _, resolved, _, Prod.ext hp rfl, read, rfl⟩

/-- A file that gives something adds that and no error. -/
lemma takes_of_gives (failed : l.failed = []) (hu : units.get? id = some u)
    (h : u.Gives c l.journal.callCount outer l.linked.exports p calls) :
    l.Takes id p calls (add c units outer l id) := by
  have bindable : l.bindable units u = u.requests :=
    bindable_eq_of_has fun r hr => has_of_resolved h.resolved hr
  have listless : l.listless units u = [] := (bindable_eq_iff failed).1 bindable
  obtain ⟨j, product, clean, rfl⟩ := h.read
  have own_eq : l.own c units outer u =
      .report [] ++ (resolveOn c u.requests l.linked.exports outer).2 ++ j := by
    rw [own, bindable, listless, product]
  have own_clean : (l.own c units outer u).hasErrors = false := by
    rw [own_eq, Journal.hasErrors_append, Journal.hasErrors_append, h.resolved, clean]
    rfl
  rw [add_eq hu]
  constructor
  · simp [bindable, product]
  · simp [own_clean]
  · simp [own_eq]
  · simp [own_clean]

end Linkage

/-! ## Linkings -/

/-- Some files link to `linked`: each gives what was linked under its name, by some calls, when it
is read on its own with the tables that were linked, and nothing else was linked.  The tables are
those of the end, so the definition is one equation for all files together and not a recursion over
them. -/
structure Links (c : Config) (units : Keyed LinkUnit) (outer : Scope) (files : List String)
    (linked : Linked) (calls : String → List Call) : Prop where
  gives : ∀ id ∈ files, ∃ u p, units.get? id = some u ∧ linked.entry id = p.entry ∧
    u.Gives c 0 outer linked.exports p (calls id)
  outside : ∀ id, id ∉ files → linked.entry id = (none, none)

lemma Linked.get?_exports_put {linked : Linked} {q : Product} {other : String}
    (ne : id ≠ other) : (linked.put id q).exports.get? other = linked.exports.get? other :=
  congrArg Prod.fst (Linked.entry_put_of_ne ne)

/-- What is linked under a new name makes no difference to what a unit gives. -/
lemma LinkUnit.Gives.put {used : Nat} {linked : Linked} {q : Product}
    (h : u.Gives c used outer linked.exports p calls) (fresh : linked.entry id = (none, none)) :
    u.Gives c used outer (linked.put id q).exports p calls := by
  apply h.congr
  intro r hr
  have table := has_of_resolved h.resolved hr
  have ne : id ≠ r.file := by
    rintro rfl
    have none : linked.exports.get? r.file = none := congrArg Prod.fst fresh
    rw [Keyed.has, none] at table
    cases table
  exact (Linked.get?_exports_put ne).symm

section Runs

variable {files before : List String} {linked : Linked} {callsOf : String → List Call}
variable {journal : Journal}

/-- Neither the order of the files nor that of the units matters to a linking. -/
lemma Links.congr {units' : Keyed LinkUnit} {files' : List String}
    (h : Links c units outer files linked callsOf)
    (same : ∀ id, units.get? id = units'.get? id) (perm : files.Perm files') :
    Links c units' outer files' linked callsOf where
  gives id hid := by
    rw [← same]
    exact h.gives id (perm.mem_iff.2 hid)
  outside id hid := h.outside id (mt perm.mem_iff.1 hid)

/-- A linking with one more file. -/
lemma Links.concat (h : Links c units outer files linked callsOf) (fresh : id ∉ files)
    (hu : units.get? id = some u) (hg : u.Gives c 0 outer linked.exports p calls) :
    Links c units outer (files ++ [id]) (linked.put id p)
      (Function.update callsOf id calls) where
  gives other ho := by
    have none := h.outside id fresh
    -- the earlier files go on giving what they gave, since they do not request the new one
    rcases List.mem_append.1 ho with ho | ho
    · have ne : id ≠ other := fun same => fresh (same ▸ ho)
      obtain ⟨u', p', hu', entry, gives⟩ := h.gives other ho
      refine ⟨u', p', hu', ?_, ?_⟩
      · rw [Linked.entry_put_of_ne ne, entry]
      · rw [Function.update_of_ne ne.symm]
        exact gives.put none
    · rw [List.mem_singleton.1 ho]
      refine ⟨u, p, hu, Linked.entry_put_self none, ?_⟩
      rw [Function.update_self]
      exact hg.put none
  outside other ho := by
    simp only [List.mem_append, List.mem_singleton, not_or] at ho
    rw [Linked.entry_put_of_ne (Ne.symm ho.2)]
    exact h.outside other ho.1

namespace Linkage

/-- The linkage that has not begun. -/
def start (journal : Journal) : Linkage :=
  ⟨⟨[], []⟩, [], journal⟩

/-- The linkage after some files. -/
def after (c : Config) (units : Keyed LinkUnit) (outer : Scope) (journal : Journal)
    (files : List String) : Linkage :=
  files.foldl (add c units outer) (start journal)

lemma after_concat (files : List String) (id : String) :
    after c units outer journal (files ++ [id]) =
      add c units outer (after c units outer journal files) id := by
  rw [after, List.foldl_append]
  rfl

lemma hasErrors_start_of_after
    (clean : (after c units outer journal files).journal.hasErrors = false) :
    journal.hasErrors = false := by
  induction files using List.reverseRecOn with
  | nil => exact clean
  | append_singleton files id ih =>
    rw [after_concat] at clean
    exact ih (hasErrors_of_add clean)

/-- A linkage to which some files link, each by its calls, of which the limit admits all. -/
structure Complete (c : Config) (units : Keyed LinkUnit) (outer : Scope) (files : List String)
    (callsOf : String → List Call) (l : Linkage) : Prop where
  links : Links c units outer files l.linked callsOf
  failed : l.failed = []
  calls : l.journal.calls = files.flatMap callsOf
  admits : c.Admits l.journal.callCount

lemma Complete.concat (h : l.Complete c units outer files callsOf) (fresh : id ∉ files)
    (hu : units.get? id = some u)
    (hg : u.Gives c l.journal.callCount outer l.linked.exports p calls) :
    (add c units outer l id).Complete c units outer (files ++ [id])
      (Function.update callsOf id calls) := by
  have takes := takes_of_gives h.failed hu hg
  -- what was read after some calls is read alike after none: the limit admits more there
  have alone : u.Gives c 0 outer l.linked.exports p calls := by
    apply hg.after
    intro i hi
    exact Number.atMost_eq_false_of_le (by omega) (hg.admitted hi)
  have same : ∀ other ∈ files, Function.update callsOf id calls other = callsOf other := by
    intro other ho
    have ne : other ≠ id := fun same => fresh (same ▸ ho)
    exact Function.update_of_ne ne _ _
  constructor
  · rw [takes.linked]
    exact h.links.concat fresh hu alone
  · rw [takes.failed, h.failed]
  · rw [takes.calls, h.calls, List.flatMap_append, List.flatMap_congr same]
    simp
  · -- the limit admits the old calls by the invariant, and the new ones since the file was read
    -- after the old
    intro i hi
    rw [Journal.callCount, takes.calls, List.length_append] at hi
    by_cases old : i < l.journal.callCount
    · exact h.admits i old
    · have admitted := hg.admitted (i := i - l.journal.callCount)
        (by unfold Journal.callCount at *; omega)
      rwa [show l.journal.callCount + (i - l.journal.callCount) = i by omega] at admitted

/-- **A run without errors ends with a linking of its files.** -/
theorem complete_of_clean (silent : journal.calls = []) (nodup : files.Nodup)
    (known : ∀ id ∈ files, ∃ u, units.get? id = some u)
    (clean : (after c units outer journal files).journal.hasErrors = false) :
    ∃ callsOf, (after c units outer journal files).Complete c units outer files callsOf := by
  induction files using List.reverseRecOn with
  | nil =>
    refine ⟨fun _ => [], ⟨fun id hid => absurd hid List.not_mem_nil, fun id _ => rfl⟩, rfl, ?_, ?_⟩
    · simpa [after, start] using silent
    · intro i hi
      simp [after, start, Journal.callCount, silent] at hi
  -- a later error would be there in the end, so the run was clean up to here
  | append_singleton files id ih =>
    rw [after_concat] at clean ⊢
    rw [List.nodup_append] at nodup
    obtain ⟨nodup, _, apart⟩ := nodup
    obtain ⟨callsOf, complete⟩ := ih nodup (fun other ho => known other (by simp [ho]))
      (hasErrors_of_add clean)
    obtain ⟨u, hu⟩ := known id (by simp)
    obtain ⟨p, calls, gives⟩ := exists_gives complete.failed hu clean
    have fresh : id ∉ files := fun hid => apart id hid id List.mem_cons_self rfl
    exact ⟨_, complete.concat fresh hu gives⟩

/-- A linkage that has come some way to a linking. -/
structure Follows (linked : Linked) (callsOf : String → List Call) (files : List String)
    (l : Linkage) : Prop where
  clean : l.journal.hasErrors = false
  failed : l.failed = []
  inside : ∀ id ∈ files, l.linked.entry id = linked.entry id
  outside : ∀ id, id ∉ files → l.linked.entry id = (none, none)
  calls : l.journal.calls = files.flatMap callsOf

lemma Follows.concat (h : l.Follows linked callsOf files) (fresh : id ∉ files)
    (hu : units.get? id = some u) (entry : linked.entry id = p.entry)
    (hg : u.Gives c 0 outer linked.exports p (callsOf id))
    (imported : ∀ r ∈ u.requests, r.file ∈ files)
    (admits : c.Admits (files.flatMap callsOf ++ callsOf id).length) :
    (add c units outer l id).Follows linked callsOf (files ++ [id]) := by
  have count : l.journal.callCount = (files.flatMap callsOf).length := by
    rw [Journal.callCount, h.calls]
  -- the tables it requests are there already, and the calls of the files so far are admitted
  -- together with its own
  have gives : u.Gives c l.journal.callCount outer l.linked.exports p (callsOf id) := by
    have tables : u.Gives c 0 outer l.linked.exports p (callsOf id) :=
      hg.congr fun r hr => congrArg Prod.fst (h.inside r.file (imported r hr)).symm
    refine tables.after fun i hi => admits _ ?_
    rw [count, List.length_append]
    omega
  have takes := takes_of_gives h.failed hu gives
  constructor
  · rw [takes.hasErrors, h.clean]
  · rw [takes.failed, h.failed]
  · intro other ho
    rw [takes.linked]
    rcases List.mem_append.1 ho with ho | ho
    · have ne : id ≠ other := fun same => fresh (same ▸ ho)
      rw [Linked.entry_put_of_ne ne, h.inside other ho]
    · rw [List.mem_singleton.1 ho, Linked.entry_put_self (h.outside id fresh), entry]
  · intro other ho
    simp only [List.mem_append, List.mem_singleton, not_or] at ho
    rw [takes.linked, Linked.entry_put_of_ne (Ne.symm ho.2), h.outside other ho.1]
  · rw [takes.calls, h.calls, List.flatMap_append]
    simp

/-- **A run finds the linking of its files**, if it takes imported files first and the limit admits
all calls. -/
theorem follows_of_links (silent : journal.calls = []) (clean : journal.hasErrors = false)
    (links : Links c units outer files linked callsOf) (nodup : files.Nodup)
    (first : ∀ before id after, files = before ++ id :: after → ∀ u, units.get? id = some u →
      ∀ r ∈ u.requests, r.file ∈ files → r.file ∈ before)
    (admits : c.Admits (files.flatMap callsOf).length) (hb : before <+: files) :
    (after c units outer journal before).Follows linked callsOf before := by
  induction before using List.reverseRecOn with
  | nil =>
    refine ⟨clean, rfl, fun id hid => absurd hid List.not_mem_nil, fun id _ => rfl, ?_⟩
    simpa [after, start] using silent
  | append_singleton before id ih =>
    obtain ⟨rest, rfl⟩ := hb
    rw [List.append_assoc] at links nodup first admits
    rw [after_concat]
    have follows := ih (by simp)
    obtain ⟨u, p, hu, entry, gives⟩ := links.gives id (by simp)
    have fresh : id ∉ before := by
      intro hid
      exact (List.nodup_append.1 nodup).2.2 id hid id (by simp) rfl
    -- it remains that what the file requests was linked before it, and that the limit admits this
    -- far
    refine follows.concat fresh hu entry gives (fun r hr => ?_) fun i hi => admits i ?_
    · refine first before id rest rfl u hu r hr (Decidable.byContradiction fun outside => ?_)
      -- a file outside has no table, and the request would not be resolved
      have none : linked.exports.get? r.file = none := congrArg Prod.fst (links.outside _ outside)
      have table := has_of_resolved gives.resolved hr
      rw [Keyed.has, none] at table
      cases table
    · simp only [List.flatMap_append, List.length_append, List.flatMap_cons,
        List.singleton_append] at hi ⊢
      omega

end Linkage

end Runs

end Stencil
