import Mathlib.Data.List.Induction
import Stencil.Proofs.Diagnostic.Fault
import Stencil.Proofs.Keyed
import Stencil.Proofs.Linking.Order

/-!
# The files of a linking

Files that are given once each, with import directives in order, become one unit each, in the
order in which they are given (`linkUnits_eq`), and only such files are taken without an error
(`hasErrors_linkUnits_iff`).  Who imports whom then does not depend on that order
(`imports_importGraph_iff`).

A file that is given a second time is reported and not taken, and a file whose directive is out of
order is reported and taken all the same.  Both reports are errors, so in a link that is done
neither has happened, and `WellGiven` is all that is left to say about the files together.
-/

namespace Stencil

variable {sources : List SourceFile} {source : SourceFile} {units units' : Keyed LinkUnit}
variable {id other : String} {u : LinkUnit}

/-! ## The units of some files -/

/-- The unit of a file. -/
def SourceFile.linkUnit (source : SourceFile) : LinkUnit :=
  ⟨source.document, (ImportRequest.ofDocument source.document).1⟩

/-- The unit of a file under the file's name. -/
def SourceFile.entry (source : SourceFile) : String × LinkUnit :=
  (source.id, source.linkUnit)

/-- Files that are given once each, with import directives in order. -/
structure WellGiven (sources : List SourceFile) : Prop where
  nodup : (sources.map SourceFile.id).Nodup
  directives : ∀ source ∈ sources, (ImportRequest.ofDocument source.document).2 = []

lemma WellGiven.perm {sources' : List SourceFile} (h : WellGiven sources)
    (perm : sources.Perm sources') : WellGiven sources' where
  nodup := (perm.map SourceFile.id).nodup_iff.1 h.nodup
  directives source hs := h.directives source (perm.mem_iff.2 hs)

lemma wellGiven_concat_iff :
    WellGiven (sources ++ [source]) ↔
      WellGiven sources ∧ source.id ∉ sources.map SourceFile.id ∧
        (ImportRequest.ofDocument source.document).2 = [] := by
  constructor
  · rintro ⟨nodup, directives⟩
    rw [List.map_append, List.nodup_append] at nodup
    obtain ⟨nodup, _, apart⟩ := nodup
    refine ⟨⟨nodup, fun s hs => directives s (by simp [hs])⟩, fun known => ?_,
      directives source (by simp)⟩
    exact apart source.id known source.id List.mem_cons_self rfl
  · rintro ⟨⟨nodup, directives⟩, fresh, directive⟩
    refine ⟨?_, fun s hs => ?_⟩
    · rw [List.map_append, List.nodup_append]
      refine ⟨nodup, by simp, ?_⟩
      intro known hk other ho same
      rw [List.map_singleton, List.mem_singleton] at ho
      exact fresh (ho ▸ same ▸ hk)
    · rcases List.mem_append.1 hs with hs | hs
      · exact directives s hs
      · rwa [List.mem_singleton.1 hs]

lemma linkUnits_concat (sources : List SourceFile) (source : SourceFile) :
    linkUnits (sources ++ [source]) = addSource (linkUnits sources) source := by
  rw [linkUnits, List.foldl_append]
  rfl

lemma names_map_entry (sources : List SourceFile) :
    Keyed.names (sources.map SourceFile.entry) = sources.map SourceFile.id := by
  rw [Keyed.names, List.map_map]
  rfl

lemma has_map_entry_iff :
    Keyed.has (sources.map SourceFile.entry) id = true ↔ id ∈ sources.map SourceFile.id := by
  rw [Keyed.has_iff_mem_names, names_map_entry]

/-- Files given once each make one unit each. -/
lemma linkUnits_eq (nodup : (sources.map SourceFile.id).Nodup) :
    (linkUnits sources).1 = sources.map SourceFile.entry := by
  induction sources using List.reverseRecOn with
  | nil => rfl
  | append_singleton sources source ih =>
    rw [List.map_append, List.nodup_append] at nodup
    obtain ⟨nodup, _, apart⟩ := nodup
    have units := ih nodup
    -- the names of the units so far are those of the files so far, and this one is not among them
    have fresh : (linkUnits sources).1.has source.id = false := by
      apply Bool.eq_false_iff.2
      intro found
      rw [units, has_map_entry_iff] at found
      exact apart source.id found source.id List.mem_cons_self rfl
    rw [linkUnits_concat, addSource]
    simp only [fresh, Bool.false_eq_true, if_false]
    rw [Keyed.put_eq_append fresh, units, List.map_append]
    rfl

/-- There is a unit for each file that is given. -/
lemma has_linkUnits_iff :
    (linkUnits sources).1.has id = true ↔ id ∈ sources.map SourceFile.id := by
  induction sources using List.reverseRecOn with
  | nil => exact ⟨fun h => absurd h Bool.false_ne_true, fun h => absurd h List.not_mem_nil⟩
  | append_singleton sources source ih =>
    rw [linkUnits_concat, addSource, List.map_append, List.mem_append, ← ih]
    by_cases given : (linkUnits sources).1.has source.id = true
    · rw [if_pos given]
      refine ⟨.inl, fun h => h.elim (fun has => has) fun same => ?_⟩
      rwa [List.mem_singleton.1 same]
    · rw [if_neg given, Keyed.has_put, Bool.or_eq_true, beq_iff_eq, or_comm, List.map_singleton,
        List.mem_singleton]
      exact or_congr_right eq_comm

lemma hasErrors_addSource_iff {read : Keyed LinkUnit × Journal} :
    (addSource read source).2.hasErrors = false ↔
      read.2.hasErrors = false ∧ read.1.has source.id = false ∧
        (ImportRequest.ofDocument source.document).2 = [] := by
  obtain ⟨units, journal⟩ := read
  have problems := Journal.hasErrors_report_eq_false_iff
    (ImportRequest.areFaults_ofDocument source.document)
  rw [addSource]
  rcases found : units.has source.id with _ | _
  · simp [problems]
  · simp

/-- **Only files that are well given are taken without an error.** -/
theorem hasErrors_linkUnits_iff :
    (linkUnits sources).2.hasErrors = false ↔ WellGiven sources := by
  induction sources using List.reverseRecOn with
  | nil => exact ⟨fun _ => ⟨List.nodup_nil, by simp⟩, fun _ => rfl⟩
  | append_singleton sources source ih =>
    rw [linkUnits_concat, hasErrors_addSource_iff, ih, wellGiven_concat_iff]
    refine and_congr_right fun given => and_congr_left fun _ => ?_
    rw [linkUnits_eq given.nodup, ← has_map_entry_iff, Bool.not_eq_true]

lemma calls_linkUnits (sources : List SourceFile) : (linkUnits sources).2.calls = [] := by
  refine List.foldlRecOn (motive := fun read => read.2.calls = []) sources addSource ?_
    fun read h source _ => ?_
  · rfl
  unfold addSource
  dsimp only
  split <;> simp [h]

/-- The unit under a name is that of the file of this name. -/
lemma get?_linkUnits_iff (given : WellGiven sources) :
    (linkUnits sources).1.get? id = some u ↔
      ∃ source ∈ sources, source.id = id ∧ source.linkUnit = u := by
  have nodup : (Keyed.names (sources.map SourceFile.entry)).Nodup := by
    rw [names_map_entry]
    exact given.nodup
  rw [linkUnits_eq given.nodup, Keyed.get?_eq_some_iff nodup, List.mem_map]
  simp [SourceFile.entry]

lemma get?_linkUnits (given : WellGiven sources) (hs : source ∈ sources) :
    (linkUnits sources).1.get? source.id = some source.linkUnit :=
  (get?_linkUnits_iff given).2 ⟨source, hs, rfl, rfl⟩

/-- The order of the files does not matter to the units that are found under their names. -/
lemma get?_linkUnits_perm {sources' : List SourceFile} (given : WellGiven sources)
    (perm : sources.Perm sources') (id : String) :
    (linkUnits sources).1.get? id = (linkUnits sources').1.get? id := by
  rw [linkUnits_eq given.nodup, linkUnits_eq (given.perm perm).nodup]
  refine Keyed.get?_eq_of_perm (perm.map _) ?_ id
  rw [names_map_entry]
  exact given.nodup

/-! ## Who imports whom -/

/-- A file imports another exactly if it requests a template of it. -/
lemma imports_importGraph_iff :
    (importGraph units).Imports id other ↔
      units.has other = true ∧ ∃ u, units.get? id = some u ∧
        ∃ r ∈ u.requests, r.file = other := by
  have found : ∀ name, Keyed.get? (importGraph units) name = (units.get? name).map LinkUnit.files :=
    Keyed.get?_map units LinkUnit.files
  have inside : Keyed.has (importGraph units) other = units.has other := by
    rw [Keyed.has, found, Keyed.has, Option.isSome_map]
  rw [ImportGraph.Imports, ImportGraph.importsOf, List.mem_filter, inside, found, and_comm]
  apply and_congr_right
  intro _
  rcases units.get? id with _ | u
  · simp
  · simp [LinkUnit.files]

lemma has_importGraph : Keyed.has (importGraph units) id = units.has id := by
  rw [Keyed.has, importGraph, Keyed.get?_map units LinkUnit.files, Keyed.has, Option.isSome_map]

/-- Units that are found alike import alike, so circles do not depend on their order. -/
lemma acyclic_importGraph_congr (same : ∀ id, units.get? id = units'.get? id) :
    (importGraph units).Acyclic ↔ (importGraph units').Acyclic := by
  have imports : (importGraph units).Imports = (importGraph units').Imports := by
    funext id other
    rw [eq_iff_iff, imports_importGraph_iff, imports_importGraph_iff, Keyed.has, Keyed.has, same,
      same]
  rw [ImportGraph.Acyclic, ImportGraph.Acyclic, imports]

end Stencil
