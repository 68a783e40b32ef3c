import Stencil.Proofs.Document.Declarations
import Stencil.Proofs.Linking.Resolution

/-!
# Outer scopes

The scopes that documents are read on are built from the empty one by binding values, by composing
export tables and by resolving imports, and the tables are those of documents that were read on
such scopes before.  `Scope.IsOuter` and `ExportTable.IsExported` define the two together, and
`Scope.IsOuter.throughout` is their induction: it follows a property through every frame that is
pushed on the way, in the scope itself and in the homes of the templates that it binds.

The two definitions are mutual, as a table is exported from a scope and an imported table makes a
new one.  Malformed declarations are not exported: a table comes only from a run without errors,
which is why no outer scope comes to one (`Scope.IsOuter.wellFormed`).
-/

namespace Stencil

open Journal

mutual

/-- A scope that a document can be read on: the empty one, or what an operation makes of such a
scope.  The tables that come in are those of documents that were read on one before. -/
inductive Scope.IsOuter : Scope → Prop
  | root : Scope.IsOuter .root
  | withValues {s : Scope} (outer : s.IsOuter) (values : List (String × Scalar)) :
      (s.withValues values).IsOuter
  | compose {c : Config} {s s' : Scope} {table : ExportTable} {file : String} {info : RunInfo}
      (outer : s.IsOuter) (exported : ExportTable.IsExported table)
      (done : (s.compose c table file).outcome = .done s' info) : s'.IsOuter
  | resolveImports {c : Config} {s s' : Scope} {tables : Keyed ExportTable}
      {requests : List ImportRequest} {info : RunInfo} (outer : s.IsOuter)
      (exported : ∀ pair ∈ tables, ExportTable.IsExported pair.2)
      (done : (Stencil.resolveImports c requests tables s).outcome = .done s' info) : s'.IsOuter

/-- A table that a document exports. -/
inductive ExportTable.IsExported : ExportTable → Prop
  | collected {c : Config} {d : Document} {outer : Scope} {table : ExportTable} {info : RunInfo}
      (reads : outer.IsOuter) (done : (d.collectExports c outer).outcome = .done table info) :
      ExportTable.IsExported table

end

/-! ## The frames of imports -/

/-- Bindings of imported templates, each of which is in one of some tables. -/
def AreImportsOf (exported : Template → Prop) (bs : List (String × Binding)) : Prop :=
  ∀ pair ∈ bs, ∃ t file span,
    pair.2 = .template (some t) .imported (some file) span ∧ exported t

/-- The collisions of a table are those of its first row and those of the rest. -/
lemma composeJournal_cons (c : Config) (s : Scope) (pair : String × Template) (rest : ExportTable)
    (file : String) : s.composeJournal c (pair :: rest) file =
      rebinding c.collisions (QualifiedName.text ⟨file, pair.1⟩) pair.2.span
          (s.lookup (QualifiedName.text ⟨file, pair.1⟩)) ++
        s.composeJournal c rest file := by
  -- the rows are folded into a journal, which is generalised from the empty one for the induction
  have along : ∀ (rows : ExportTable) (j : Journal),
      rows.foldl (fun journal pair =>
        journal ++ rebinding c.collisions (QualifiedName.text ⟨file, pair.1⟩) pair.2.span
          (s.lookup (QualifiedName.text ⟨file, pair.1⟩))) j =
        j ++ s.composeJournal c rows file := by
    intro rows
    induction rows with
    | nil => exact fun j => (Journal.append_empty j).symm
    | cons pair rest ih =>
      intro j
      rw [List.foldl_cons, ih, Journal.append_assoc, ← ih (rebinding ..)]
      rfl
  exact along rest (rebinding ..)

lemma graded_composeJournal (c : Config) (s : Scope) (table : ExportTable) (file : String) :
    (s.composeJournal c table file).Graded c.collisions := by
  refine List.foldlRecOn (motive := fun j : Journal => j.Graded c.collisions) table _ ?_ ?_
  · exact graded_empty
  · exact fun _ graded pair _ => graded_append.2 ⟨graded, graded_rebinding _ _ _ _⟩

lemma compose_done_iff {c : Config} {s s' : Scope} {table : ExportTable} {file : String}
    {info : RunInfo} : (s.compose c table file).outcome = .done s' info ↔
      s' = s.extend (table.bindings file) .imports ∧
        (s.composeJournal c table file).hasErrors = false ∧
        info = RunInfo.empty.withWarnings (s.composeJournal c table file) := by
  constructor
  · intro done
    obtain ⟨value, clean, known⟩ := Run.of_done (graded_composeJournal c s table file) done
    exact ⟨(Option.some.inj value).symm, clean, known⟩
  · rintro ⟨rfl, clean, rfl⟩
    exact Run.done_of_clean clean

/-- A table is composed without a clash if none of its qualified names is bound. -/
lemma exists_done_compose {s : Scope} {table : ExportTable} {file : String}
    (unbound : ∀ pair ∈ table, s.lookup (QualifiedName.text ⟨file, pair.1⟩) = none) (c : Config) :
    ∃ info, (s.compose c table file).outcome =
      .done (s.extend (table.bindings file) .imports) info := by
  have silent : (s.composeJournal c table file).hasErrors = false := by
    induction table with
    | nil => rfl
    | cons pair rest ih =>
      rw [composeJournal_cons, unbound pair List.mem_cons_self, hasErrors_append,
        ih fun pair hp => unbound pair (List.mem_cons_of_mem _ hp)]
      rfl
  exact ⟨_, compose_done_iff.2 ⟨rfl, silent, rfl⟩⟩

lemma areImportsOf_bindings (table : ExportTable) (file : String) :
    AreImportsOf (fun t => ∃ pair ∈ table, pair.2 = t) (table.bindings file) := by
  intro pair hp
  obtain ⟨exported, he, rfl⟩ := List.mem_map.1 hp
  exact ⟨exported.2, file, exported.2.span, rfl, exported, he, rfl⟩

lemma areImportsOf_ofRequests (c : Config) (tables : Keyed ExportTable) (outer : Scope)
    (requests : List ImportRequest) :
    AreImportsOf (fun t => ∃ table ∈ tables, ∃ pair ∈ table.2, pair.2 = t)
      (Resolution.ofRequests c tables outer requests).bound := by
  refine List.foldlRecOn
    (motive := fun done : Resolution => AreImportsOf _ done.bound) requests _ ?_ ?_
  · exact fun _ hp => absurd hp List.not_mem_nil
  · intro done imports r _
    unfold Resolution.add
    split
    · exact imports
    · next t found =>
      -- what a request binds is a row of one of the tables, since that is where it was found
      intro pair hp
      rcases Keyed.mem_put hp with hp | rfl
      · exact imports pair hp
      · unfold Resolution.find at found
        split at found
        · cases found
        · next table hasTable =>
          split at found
          · cases found
          · next t' member =>
            obtain rfl := Except.ok.inj found
            exact ⟨_, _, _, rfl, _, Keyed.mem_of_get? hasTable, _, Keyed.mem_of_get? member, rfl⟩

/-! ## The templates of a table -/

/-- A template that a scope binds to some name. -/
def Scope.BindsTemplate (s : Scope) (t : Template) : Prop :=
  ∃ name origin file span, s.lookup name = some (.template (some t) origin file span)

lemma bindsTemplate_of_mem_ofNames {s : Scope} {names : List String} {pair : String × Template}
    (h : pair ∈ ExportTable.ofNames s names) : s.BindsTemplate pair.2 := by
  obtain ⟨name, _, made⟩ := List.mem_filterMap.1 h
  split at made
  · next found =>
    obtain rfl := Option.some.inj made
    exact ⟨_, _, _, _, found⟩
  · cases made

lemma bindsTemplate_of_mem_addEntry {s : Scope} {read : ExportTable × List Diagnostic}
    (h : ∀ pair ∈ read.1, s.BindsTemplate pair.2) (e : Entry) :
    ∀ pair ∈ (ExportTable.addEntry s read e).1, s.BindsTemplate pair.2 := by
  unfold ExportTable.addEntry
  dsimp only
  split
  · split
    · next template _ _ _ found =>
      split
      · exact h
      · rcases template with _ | t
        · exact h
        · intro pair hp
          rcases Keyed.mem_put hp with hp | rfl
          · exact h pair hp
          · exact ⟨_, _, _, _, found⟩
    · exact h
  · exact h

lemma bindsTemplate_of_mem_ofList {s : Scope} {list : Node} {pair : String × Template}
    (h : pair ∈ (ExportTable.ofList list s).1) : s.BindsTemplate pair.2 := by
  have all : ∀ pair ∈ (list.entries.foldl (ExportTable.addEntry s) ([], [])).1,
      s.BindsTemplate pair.2 := by
    refine List.foldlRecOn
      (motive := fun read : ExportTable × List Diagnostic =>
        ∀ pair ∈ read.1, s.BindsTemplate pair.2) list.entries _ ?_ ?_
    · exact fun _ hp => absurd hp List.not_mem_nil
    · exact fun read h e _ => bindsTemplate_of_mem_addEntry h e
  exact all pair h

/-- What a document exports is bound by the scope of its declarations, which were collected without
an error. -/
lemma exists_collect_of_exports {c : Config} {d : Document} {outer : Scope} {table : ExportTable}
    {info : RunInfo} (done : (d.collectExports c outer).outcome = .done table info) :
    ∃ declarations, (collect c.collisions declarations outer).2.hasErrors = false ∧
      ∀ pair ∈ table, (collect c.collisions declarations outer).1.BindsTemplate pair.2 := by
  obtain ⟨value, clean, _⟩ := Run.of_done (d.graded_exportsOn c outer) done
  rcases terminal : d.terminal? with _ | terminal'
  · simp [terminal] at value
  · rcases list : terminal'.isExportList with _ | _
    · simp only [Document.exportsOn, terminal, list] at value clean
      obtain rfl := Option.some.inj value
      exact ⟨_, clean, fun _ => bindsTemplate_of_mem_ofNames⟩
    · simp only [Document.exportsOn, terminal, list] at value clean
      obtain rfl := Option.some.inj value
      simp only [if_true, hasErrors_append, Bool.or_eq_false_iff] at clean
      exact ⟨_, clean.1, fun _ => bindsTemplate_of_mem_ofList⟩

/-! ## Induction -/

section Induction

variable {P : Scope → Prop} (root : P .root)
  (values : ∀ s vs, P s → P (s.withValues vs))
  (imports : ∀ s bs, P s → AreImportsOf (fun _ => True) bs → P (s.extend bs .imports))
  (document : ∀ s names, P s → P (s.enterDocument names))
  (declaration : ∀ s decl t, P s → Template.ofDeclaration decl s = .ok t →
    P (s.bind decl.name.inner (t.declared decl) .declaration))

include imports in
lemma throughout_imports {s : Scope} {bs : List (String × Binding)} {exported : Template → Prop}
    (h : s.Throughout P) (are : AreImportsOf exported bs)
    (homes : ∀ t, exported t → t.home.Throughout P) : (s.extend bs .imports).Throughout P := by
  refine h.extend (imports s bs h.here ?_) ?_
  · intro pair hp
    obtain ⟨t, file, span, same, _⟩ := are pair hp
    exact ⟨t, file, span, same, trivial⟩
  · intro pair hp inner captured
    obtain ⟨t, _, _, same, mem⟩ := are pair hp
    rw [same] at captured
    obtain rfl := Option.some.inj captured
    exact homes t mem

include document declaration in
lemma throughout_collect {policy : CollisionPolicy} {declarations : List Node} {outer : Scope}
    (h : outer.Throughout P) (clean : (collect policy declarations outer).2.hasErrors = false) :
    (collect policy declarations outer).1.Throughout P := by
  refine collect_induction (P := fun s => s.Throughout P) clean
    (h.enterDocument (document _ _ h.here)) ?_
  intro s decl _ t inside read _
  refine inside.extend (declaration s decl t inside.here read) ?_
  intro pair hp inner captured
  obtain rfl := List.mem_singleton.1 hp
  obtain rfl := Option.some.inj captured
  rw [(Template.declares_of_ofDeclaration read).home]
  exact inside

include root values imports document declaration in
/-- **Induction over outer scopes**: what holds of the empty scope and passes along each kind of
frame holds throughout every outer scope. -/
theorem Scope.IsOuter.throughout {s : Scope} (h : s.IsOuter) : s.Throughout P := by
  -- the second motive is what the induction knows of a table: the homes of its templates
  refine @Scope.IsOuter.rec (fun s _ => s.Throughout P)
    (fun table _ => ∀ pair ∈ table, pair.2.home.Throughout P) ?_ ?_ ?_ ?_ ?_ s h
  · exact ⟨root, fun _ _ reached => absurd reached Scope.not_reaches_root⟩
  · intro s _ vs inside
    refine inside.extend (values _ vs inside.here) ?_
    intro pair hp inner captured
    obtain ⟨_, _, rfl⟩ := List.mem_map.1 hp
    cases captured
  · intro c s s' table file info _ _ done inside homes
    obtain ⟨rfl, _, _⟩ := compose_done_iff.1 done
    refine throughout_imports imports inside (areImportsOf_bindings table file) ?_
    rintro _ ⟨pair, hp, rfl⟩
    exact homes pair hp
  · intro c s s' tables requests info _ _ done inside homes
    obtain ⟨value, _, _⟩ := Run.of_done (graded_resolveOn c requests tables s) done
    obtain rfl := Option.some.inj value
    refine throughout_imports imports inside (areImportsOf_ofRequests c tables s requests) ?_
    rintro _ ⟨table, ht, pair, hp, rfl⟩
    exact homes table ht pair hp
  · intro c d outer table info _ done inside pair hp
    obtain ⟨declarations, clean, bound⟩ := exists_collect_of_exports done
    obtain ⟨_, _, _, _, found⟩ := bound pair hp
    exact (throughout_collect document declaration inside clean).of_lookup found rfl

end Induction

/-- An outer scope comes to no template of a malformed declaration. -/
lemma Scope.IsOuter.wellFormed {s : Scope} (h : s.IsOuter) {b : Binding} (reached : s.Reaches b) :
    b.isMalformed = false := by
  -- one property of the bindings of each scope, checked for each frame that is pushed on the way
  refine Throughout.of_reaches (Q := fun b => b.isMalformed = false)
    (h.throughout ?_ ?_ ?_ ?_ ?_) reached
  · intro _ _ found
    cases found
  · intro s vs ih name b found
    rw [Scope.withValues, lookup_extend, Option.or_eq_some_iff] at found
    rcases found with found | ⟨_, found⟩
    · have mem := Keyed.mem_of_mem_ofPairs (Keyed.mem_of_get? found)
      obtain ⟨_, _, same⟩ := List.mem_map.1 mem
      obtain rfl := (Prod.mk.inj same).2
      rfl
    · exact ih name b found
  · intro s bs ih are name b found
    rw [lookup_extend, Option.or_eq_some_iff] at found
    rcases found with found | ⟨_, found⟩
    · have mem := Keyed.mem_of_mem_ofPairs (Keyed.mem_of_get? found)
      obtain ⟨_, _, _, rfl, _⟩ := are _ mem
      rfl
    · exact ih name b found
  · intro s names ih name b found
    exact ih name b (by simpa using found)
  · intro s decl t ih _ name b found
    rw [lookup_bind] at found
    split at found
    · obtain rfl := Option.some.inj found
      rfl
    · exact ih name b found

end Stencil
