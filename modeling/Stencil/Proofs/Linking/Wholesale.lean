import Stencil.Proofs.Scope.Outer
import Stencil.Proofs.Text.Placeholder
import Stencil.Proofs.Tree.Unplaced

/-!
# Importing a whole file

A table can be composed, or each of its templates can be requested under its qualified name.  The
first looks for collisions on the outer scope alone, the second also among what it has bound itself.
Since the names of a table are different, the second finds nothing more.

The two report the same collisions in the same order and bind the same templates
(`related_foldl_add`), each at spans of its own: a composed template stands at the span of its
definition, a requested one at that of the request.  Repeats are merged by message and span, so the
outcomes still differ where two names share a message.  That takes names that give instructions
(`nodup_messages`): the names `$` and `$$` are quoted alike.

In `related_foldl_add` what has been bound so far is arbitrary.  That is what makes the induction
over the table go through: a request is checked against the bindings that earlier requests have
left, and the invariant says that these are the first part of the table's own bindings, none of
whose names comes again.
-/

namespace Stencil

open Journal

/-! ## Messages of collisions -/

namespace Problem

/-- The message of a collision. -/
def collisionMessage (name : String) : String :=
  ((collision name).reportedAt .none).message

/-- A collision's name is filled in at one place of the wording. -/
lemma exists_collisionMessage : ∃ before after : List Char, ∀ name : String,
    (collisionMessage name).toList =
      before ++ Placeholder.interpret (Placeholder.mark "name".toList) before after name.toList ++
        after := by
  refine ⟨"Name '".toList, "' is already bound by an import".toList, fun name => ?_⟩
  have cut : Placeholder.cut (Placeholder.mark "name".toList) Kind.importCollision.wording.toList =
      some ("Name '".toList, "' is already bound by an import".toList) := by
    decide +kernel
  have fields : Keyed.fieldsOfPairs [("name", Parameter.string name)] =
      [("name", Parameter.string name)] := by
    have named : Keyed.index? "name" = none := Keyed.index?_eq_none fun c first => by
      obtain rfl : 'n' = c := Option.some.inj first
      rfl
    exact Keyed.fieldsOfPairs_eq_self (List.nodup_singleton "name") fun other h =>
      List.mem_singleton.1 h ▸ named
  have filled : collisionMessage name = String.ofList
      (Placeholder.fill "name".toList name.toList Kind.importCollision.wording.toList) := by
    show Diagnostic.fillAll _ (Keyed.fieldsOfPairs [("name", Parameter.string name)]) = _
    rw [fields]
    rfl
  rw [filled, String.toList_ofList, Placeholder.fill, cut]

/-- The messages of two names of one file are different if the names are, unless they give
instructions. -/
lemma name_eq_of_collisionMessage_eq {file name name' : String}
    (plain : Placeholder.IsPlain name.toList) (plain' : Placeholder.IsPlain name'.toList)
    (same : collisionMessage (QualifiedName.text ⟨file, name⟩) =
      collisionMessage (QualifiedName.text ⟨file, name'⟩)) : name = name' := by
  obtain ⟨before, after, message⟩ := exists_collisionMessage
  have slash : '/' ∉ Placeholder.instructions := by decide
  have text : ∀ name, (QualifiedName.text ⟨file, name⟩).toList =
      file.toList ++ '/' :: name.toList := by
    simp [QualifiedName.text]
  have chars := congrArg String.toList same
  -- the slash before the name gives no instruction, so the text up to it is taken literally and
  -- can be taken off on both sides; what is left are the two names
  rw [message, message, List.append_left_inj, List.append_right_inj, text, text,
    Placeholder.interpret_append_cons slash, Placeholder.interpret_append_cons slash,
    List.append_right_inj, List.cons_inj_right, Placeholder.interpret_of_isPlain plain,
    Placeholder.interpret_of_isPlain plain'] at chars
  exact String.toList_inj.1 chars

end Problem

/-- A name that is bound again is reported at most once, with the message of a collision. -/
lemma messages_rebinding (p : CollisionPolicy) (name : String) (span : Span)
    (previous : Option Binding) :
    ((rebinding p name span previous).diagnostics.map Diagnostic.message).Sublist
      [Problem.collisionMessage name] := by
  unfold rebinding
  split
  · cases p <;> exact .refl _
  · exact List.nil_sublist _

/-- The span of what is bound again only places the report. -/
lemma unplaced_rebinding_eq (p : CollisionPolicy) (name : String) (span span' : Span)
    (previous : Option Binding) :
    (rebinding p name span previous).unplaced = (rebinding p name span' previous).unplaced := by
  unfold rebinding
  split
  · rw [unplaced_collision, unplaced_collision]
  · rfl

/-! ## The two ways -/

/-- A binding without the span at which it was imported. -/
def Binding.unmarked : Binding → Binding
  | .template t .imported file _ => .template t .imported file .none
  | b => b

/-- Bindings that are the same up to the span of an import. -/
def Binding.Agrees (b b' : Binding) : Prop :=
  b.unmarked = b'.unmarked

/-- The requests for the templates of a table, one by one in its order, under their qualified
names.  The requests may stand anywhere. -/
def ImportRequest.AskForEach (file : String) : ExportTable → List ImportRequest → Prop :=
  List.Forall₂ fun pair r =>
    r.localName = QualifiedName.text ⟨file, pair.1⟩ ∧ r.file = file ∧ r.member = pair.1

variable {c : Config} {s : Scope} {table : ExportTable} {file : String}
variable {requests : List ImportRequest}

lemma names_bindings (table : ExportTable) (file : String) :
    Keyed.names (table.bindings file) =
      (Keyed.names table).map fun name => QualifiedName.text ⟨file, name⟩ := by
  simp [Keyed.names, ExportTable.bindings]

lemma nodup_names_bindings (nodup : (Keyed.names table).Nodup) :
    (Keyed.names (table.bindings file)).Nodup := by
  rw [names_bindings]
  refine nodup.map fun name name' same => ?_
  simpa [QualifiedName.text] using same

/-- A request that is found and has a new name is bound after what was bound before. -/
lemma Resolution.add_of_found {tables : Keyed ExportTable} {done : Resolution} {r : ImportRequest}
    {t : Template} (found : find tables r = .ok t)
    (fresh : done.bound.get? r.localName = none) :
    add c tables s done r =
      ⟨done.bound ++ [(r.localName, .template (some t) .imported (some r.file) r.span)],
        done.journal ++ rebinding c.collisions r.localName r.span (s.lookup r.localName)⟩ := by
  rw [add, found]
  dsimp only
  rw [fresh, Option.none_or, Keyed.put_eq_append (Keyed.has_eq_false_iff.2 fresh)]

/-- **One template at a time is as good as all at once.**  Whatever was bound before, the rest of
the requests reports what composing the rest of the table does, and binds the same after it. -/
lemma related_foldl_add {tables : Keyed ExportTable}
    (found : List.Forall₂ (fun pair r => r.localName = QualifiedName.text ⟨file, pair.1⟩ ∧
      r.file = file ∧ Resolution.find tables r = .ok pair.2) table requests)
    {k : Keyed Binding} {done : Resolution}
    (bound : Keyed.Related Binding.Agrees k done.bound)
    (fresh : (Keyed.names (k ++ table.bindings file)).Nodup) :
    (requests.foldl (Resolution.add c tables s) done).journal.unplaced =
        (done.journal ++ s.composeJournal c table file).unplaced ∧
      Keyed.Related Binding.Agrees (k ++ table.bindings file)
        (requests.foldl (Resolution.add c tables s) done).bound := by
  induction found generalizing k done with
  | nil =>
    rw [ExportTable.bindings, List.map_nil, List.append_nil]
    exact ⟨congrArg unplaced (append_empty _).symm, bound⟩
  | @cons pair r rest _ asked _ ih =>
    obtain ⟨named, filed, row⟩ := asked
    -- the name is new among what these requests have bound, since those are names of the table
    -- that came before
    have unbound : done.bound.get? r.localName = none := by
      rw [Keyed.get?_eq_none_iff, ← bound.names_eq, named]
      intro known
      rw [Keyed.names, List.map_append] at fresh
      exact (List.nodup_append.1 fresh).2.2 _ known _ List.mem_cons_self rfl
    have grown : k ++ ExportTable.bindings (pair :: rest) file =
        k ++ [(QualifiedName.text ⟨file, pair.1⟩,
          .template (some pair.2) .imported (some file) pair.2.span)] ++
            ExportTable.bindings rest file :=
      List.append_cons ..
    rw [grown] at fresh ⊢
    rw [List.foldl_cons, Resolution.add_of_found row unbound, named, filed]
    refine And.imp_left (fun reported => reported.trans ?_)
      (ih (bound.append (.cons (show Binding.Agrees _ _ from rfl) .nil)) fresh)
    dsimp only
    -- the two ways report a taken name at different places
    rw [composeJournal_cons, append_assoc, unplaced_append, unplaced_append, unplaced_append,
      unplaced_append, unplaced_rebinding_eq _ _ _ pair.2.span]

section Asked

variable (nodup : (Keyed.names table).Nodup) (asked : ImportRequest.AskForEach file table requests)
include nodup asked

/-- The templates of a table are found for the requests that ask for them. -/
lemma find_of_askForEach : List.Forall₂ (fun pair r =>
    r.localName = QualifiedName.text ⟨file, pair.1⟩ ∧ r.file = file ∧
      Resolution.find [(file, table)] r = .ok pair.2) table requests := by
  refine ((List.forall₂_and_left (p := (· ∈ table)) _ _).2 ⟨fun _ h => h, asked⟩).imp ?_
  rintro pair r ⟨row, named, filed, member⟩
  have found : table.get? r.member = some pair.2 := (Keyed.get?_eq_some_iff nodup).2 (member ▸ row)
  refine ⟨named, filed, ?_⟩
  rw [Resolution.find, Keyed.get?_cons, if_pos filed.symm]
  dsimp only
  rw [found]

/-- The two ways report alike and bind alike, up to spans. -/
lemma compose_related (c : Config) (s : Scope) :
    (s.composeJournal c table file).unplaced =
        (Resolution.ofRequests c [(file, table)] s requests).journal.unplaced ∧
      Keyed.Related Binding.Agrees (table.bindings file)
        (Resolution.ofRequests c [(file, table)] s requests).bound := by
  have nothing : Keyed.Related Binding.Agrees []
      (Resolution.mk [] .empty).bound := .nil
  obtain ⟨reported, related⟩ :=
    related_foldl_add (find_of_askForEach nodup asked) nothing (nodup_names_bindings nodup)
  exact ⟨reported.symm, related⟩

end Asked

/-! ## Repeats -/

lemma diagnostics_composeJournal (c : Config) (s : Scope) (table : ExportTable) (file : String) :
    (s.composeJournal c table file).diagnostics = table.flatMap fun pair =>
      (rebinding c.collisions (QualifiedName.text ⟨file, pair.1⟩) pair.2.span
        (s.lookup (QualifiedName.text ⟨file, pair.1⟩))).diagnostics := by
  induction table with
  | nil => rfl
  | cons pair rest ih => rw [composeJournal_cons, diagnostics_append, ih, List.flatMap_cons]

/-- No two collisions of a table share a message, unless the names give instructions. -/
lemma nodup_messages (c : Config) (s : Scope) (file : String) (nodup : (Keyed.names table).Nodup)
    (plain : ∀ name ∈ Keyed.names table, Placeholder.IsPlain name.toList) :
    ((s.composeJournal c table file).diagnostics.map Diagnostic.message).Nodup := by
  have own := fun pair : String × Template => messages_rebinding c.collisions
    (QualifiedName.text ⟨file, pair.1⟩) pair.2.span (s.lookup (QualifiedName.text ⟨file, pair.1⟩))
  rw [diagnostics_composeJournal, List.map_flatMap, List.nodup_flatMap]
  refine ⟨fun pair _ => (List.nodup_singleton _).sublist (own pair), ?_⟩
  refine (List.pairwise_map.1 nodup).imp_of_mem fun {a b} ha hb ne => ?_
  intro message mem mem'
  have first := List.mem_singleton.1 ((own a).subset mem)
  have second := List.mem_singleton.1 ((own b).subset mem')
  exact ne (Problem.name_eq_of_collisionMessage_eq
    (plain _ (List.mem_map_of_mem (f := Prod.fst) ha))
    (plain _ (List.mem_map_of_mem (f := Prod.fst) hb)) (first.symm.trans second))

/-! ## Outcomes -/

lemma messages_unplaced (diagnostics : List Diagnostic) :
    (diagnostics.map Diagnostic.unplaced).map Diagnostic.message =
      diagnostics.map Diagnostic.message := by
  rw [List.map_map]
  rfl

lemma filter_unplaced {ds ds' : List Diagnostic}
    (h : ds.map Diagnostic.unplaced = ds'.map Diagnostic.unplaced) {p : Diagnostic → Bool}
    (placeless : ∀ d : Diagnostic, p d.unplaced = p d) :
    (ds.filter p).map Diagnostic.unplaced = (ds'.filter p).map Diagnostic.unplaced := by
  have pull : ∀ ds : List Diagnostic, (ds.filter p).map Diagnostic.unplaced =
      (ds.map Diagnostic.unplaced).filter p := by
    intro ds
    rw [List.filter_map]
    congr 1
    exact List.filter_congr fun d _ => (placeless d).symm
  rw [pull, h, pull]

/-- A summary reads the messages only. -/
lemma summary_congr {ds ds' : List Diagnostic}
    (h : ds.map Diagnostic.message = ds'.map Diagnostic.message) :
    Outcome.summary ds = Outcome.summary ds' := by
  have length : ds.length = ds'.length := by simpa using congrArg List.length h
  rcases ds with _ | ⟨d, _ | ⟨e, rest⟩⟩ <;> rcases ds' with _ | ⟨d', _ | ⟨e', rest'⟩⟩ <;>
    simp_all [Outcome.summary]

lemma isDone_compose (c : Config) (s : Scope) (table : ExportTable) (file : String) :
    (s.compose c table file).outcome.isDone = !(s.composeJournal c table file).hasErrors :=
  Run.isDone_ofJournal (graded_composeJournal c s table file)

lemma isDone_resolveImports (c : Config) (requests : List ImportRequest)
    (tables : Keyed ExportTable) (s : Scope) :
    (resolveImports c requests tables s).outcome.isDone =
      !(resolveOn c requests tables s).2.hasErrors :=
  Run.isDone_ofJournal (graded_resolveOn c requests tables s)

section Outcomes

variable (nodup : (Keyed.names table).Nodup) (asked : ImportRequest.AskForEach file table requests)
include nodup asked

lemma unplaced_diagnostics_eq (c : Config) (s : Scope) :
    (s.composeJournal c table file).diagnostics.map Diagnostic.unplaced =
      (resolveOn c requests [(file, table)] s).2.diagnostics.map Diagnostic.unplaced := by
  have same := congrArg Journal.diagnostics (compose_related nodup asked c s).1
  rw [resolveOn_eq, diagnostics_append, diagnostics_line, List.append_nil]
  exact same

/-- Without instructions there is nothing to merge. -/
lemma distinct_of_plain (c : Config) (s : Scope)
    (plain : ∀ name ∈ Keyed.names table, Placeholder.IsPlain name.toList) :
    Diagnostic.distinct (s.composeJournal c table file).diagnostics =
        (s.composeJournal c table file).diagnostics ∧
      Diagnostic.distinct (resolveOn c requests [(file, table)] s).2.diagnostics =
        (resolveOn c requests [(file, table)] s).2.diagnostics := by
  have messages := nodup_messages c s file nodup plain
  refine ⟨Diagnostic.distinct_eq_self messages, Diagnostic.distinct_eq_self ?_⟩
  rwa [← messages_unplaced, ← unplaced_diagnostics_eq nodup asked, messages_unplaced]

end Outcomes

/-- **A file can be imported as a whole or template by template.**  Composing its table is done if
and only if resolving the requests for its templates is, and then the two scopes look up the same
bindings, up to the spans of imports.  The two report the same, up to spans; where no exported name
gives an instruction, nothing of this is merged, so they have the same warnings, or fail with the
same errors in the same order. -/
theorem compose_eq_resolveImports (c : Config) (s : Scope) {table : ExportTable} {file : String}
    {requests : List ImportRequest} (nodup : (Keyed.names table).Nodup)
    (asked : ImportRequest.AskForEach file table requests) :
    (s.compose c table file).outcome.isDone =
        (resolveImports c requests [(file, table)] s).outcome.isDone ∧
    (∀ s₁ i₁ s₂ i₂, (s.compose c table file).outcome = .done s₁ i₁ →
      (resolveImports c requests [(file, table)] s).outcome = .done s₂ i₂ →
      ∀ name, (s₁.lookup name).map Binding.unmarked = (s₂.lookup name).map Binding.unmarked) ∧
    (s.composeJournal c table file).diagnostics.map Diagnostic.unplaced =
      (resolveOn c requests [(file, table)] s).2.diagnostics.map Diagnostic.unplaced ∧
    ((∀ name ∈ Keyed.names table, Placeholder.IsPlain name.toList) →
      (∀ s₁ i₁ s₂ i₂, (s.compose c table file).outcome = .done s₁ i₁ →
        (resolveImports c requests [(file, table)] s).outcome = .done s₂ i₂ →
        i₁.warnings.map Diagnostic.unplaced = i₂.warnings.map Diagnostic.unplaced) ∧
      ∀ f₁ i₁ f₂ i₂, (s.compose c table file).outcome = .fail f₁ i₁ →
        (resolveImports c requests [(file, table)] s).outcome = .fail f₂ i₂ →
        f₁.message = f₂.message ∧
          f₁.diagnostics.map Diagnostic.unplaced = f₂.diagnostics.map Diagnostic.unplaced) := by
  have related := compose_related nodup asked c s
  have reported := unplaced_diagnostics_eq nodup asked c s
  -- spans aside the two journals are one, and whether a journal holds an error does not depend on
  -- spans
  have errors : (s.composeJournal c table file).hasErrors =
      (resolveOn c requests [(file, table)] s).2.hasErrors := by
    rw [resolveOn_eq, hasErrors_append, ← hasErrors_unplaced, related.1, hasErrors_unplaced]
    exact (Bool.or_false _).symm
  have graded := graded_resolveOn c requests [(file, table)] s
  refine ⟨?_, ?_, reported, fun plain => ?_⟩
  · rw [isDone_compose, isDone_resolveImports, errors]
  · -- both scopes are extensions of one scope, by bindings that agree name by name
    intro s₁ i₁ s₂ i₂ whole single name
    obtain ⟨rfl, _, _⟩ := compose_done_iff.1 whole
    obtain ⟨scope, _, _⟩ := Run.of_done graded single
    obtain rfl : s.extend (Resolution.ofRequests c [(file, table)] s requests).bound .imports =
        s₂ := Option.some.inj scope
    rw [Scope.lookup_extend, Scope.lookup_extend]
    rcases related.2.ofPairs.get? name with ⟨none, none'⟩ | ⟨b, b', found, found', same⟩
    · rw [none, none']
    · rw [found, found']
      exact congrArg some same
  · -- merging repeats could tell the two apart, but here there is nothing to merge
    obtain ⟨distinct, distinct'⟩ := distinct_of_plain nodup asked c s plain
    refine ⟨fun s₁ i₁ s₂ i₂ whole single => ?_, fun f₁ i₁ f₂ i₂ whole single => ?_⟩
    · obtain ⟨_, _, rfl⟩ := compose_done_iff.1 whole
      obtain ⟨_, _, rfl⟩ := Run.of_done graded single
      rw [RunInfo.withWarnings, RunInfo.withWarnings, distinct, distinct']
      exact filter_unplaced reported fun _ => rfl
    · have errors_eq := filter_unplaced reported Diagnostic.isError_unplaced
      have failed := Run.of_fail (j := (resolveOn c requests [(file, table)] s).2) single
      rw [Run.of_fail whole, failed, distinct, distinct']
      refine ⟨summary_congr ?_, errors_eq⟩
      rw [← messages_unplaced, errors_eq, messages_unplaced]

/-! ## Two templates that are imported again -/

/-- A template at a span. -/
def Template.dot (span : Span) : Template :=
  ⟨"dot", [], .bare "circle" [], .root, .none, span⟩

/-- A table of two templates. -/
def ExportTable.dots (first second : String) : ExportTable :=
  [(first, .dot ⟨0, 3⟩), (second, .dot ⟨3, 3⟩)]

/-- The requests for the templates of a table under their qualified names, all at one span. -/
def ExportTable.requestsFor (table : ExportTable) (file : String) : List ImportRequest :=
  table.map fun pair => ⟨QualifiedName.text ⟨file, pair.1⟩, file, pair.1, .none⟩

lemma askForEach_requestsFor (table : ExportTable) (file : String) :
    ImportRequest.AskForEach file table (table.requestsFor file) :=
  List.forall₂_map_right_iff.2 (List.forall₂_same.2 fun _ _ => ⟨rfl, rfl, rfl⟩)

/-- A scope on which a table of two templates has been composed. -/
def Scope.dotted (first second : String) : Scope :=
  Scope.root.extend (ExportTable.bindings (.dots first second) "lib") .imports

lemma exists_fail_of_isDone {α : Type} {o : Outcome α} (h : o.isDone = false) :
    ∃ f i, o = .fail f i := by
  cases o with
  | done => cases h
  | fail f i => exact ⟨f, i, rfl⟩

/-- Two templates that are bound already are refused alike, at once and one by one. -/
theorem dots_refused_either_way :
    (Keyed.names (ExportTable.dots "dot" "ring")).Nodup ∧
      ImportRequest.AskForEach "lib" (.dots "dot" "ring")
        ((ExportTable.dots "dot" "ring").requestsFor "lib") ∧
      ∃ f₁ i₁ f₂ i₂,
        ((Scope.dotted "dot" "ring").compose .default (.dots "dot" "ring") "lib").outcome =
          .fail f₁ i₁ ∧
        (resolveImports .default ((ExportTable.dots "dot" "ring").requestsFor "lib")
          [("lib", .dots "dot" "ring")] (.dotted "dot" "ring")).outcome = .fail f₂ i₂ ∧
        f₁.message = f₂.message ∧
        f₁.diagnostics.map Diagnostic.unplaced = f₂.diagnostics.map Diagnostic.unplaced := by
  have nodup : (Keyed.names (ExportTable.dots "dot" "ring")).Nodup := by decide
  have asked := askForEach_requestsFor (.dots "dot" "ring") "lib"
  have plain : ∀ name ∈ Keyed.names (ExportTable.dots "dot" "ring"),
      Placeholder.IsPlain name.toList := by
    decide +kernel
  obtain ⟨agree, _, _, merged⟩ :=
    compose_eq_resolveImports .default (.dotted "dot" "ring") nodup asked
  have refused : ((Scope.dotted "dot" "ring").compose .default (.dots "dot" "ring")
      "lib").outcome.isDone = false :=
    isDone_compose ..
  obtain ⟨f₁, i₁, whole⟩ := exists_fail_of_isDone refused
  obtain ⟨f₂, i₂, single⟩ := exists_fail_of_isDone (agree.symm.trans refused)
  -- the two names give no instructions, so the last part of the theorem applies
  exact ⟨nodup, asked, f₁, i₁, f₂, i₂, whole, single, (merged plain).2 _ _ _ _ whole single⟩

/-- **Two names with one message are merged by one way only.**  The templates `$` and `$$` are bound
already.  Composing their table reports two errors, at the spans of the two definitions; requesting
them at one span reports one. -/
theorem dollars_reported_once_or_twice :
    (Keyed.names (ExportTable.dots "$" "$$")).Nodup ∧
      ImportRequest.AskForEach "lib" (.dots "$" "$$")
        ((ExportTable.dots "$" "$$").requestsFor "lib") ∧
      ∃ f₁ i₁ f₂ i₂,
        ((Scope.dotted "$" "$$").compose .default (.dots "$" "$$") "lib").outcome = .fail f₁ i₁ ∧
        (resolveImports .default ((ExportTable.dots "$" "$$").requestsFor "lib")
          [("lib", .dots "$" "$$")] (.dotted "$" "$$")).outcome = .fail f₂ i₂ ∧
        f₁.diagnostics.length = 2 ∧ f₂.diagnostics.length = 1 := by
  have refused : ((Scope.dotted "$" "$$").compose .default (.dots "$" "$$")
      "lib").outcome.isDone = false :=
    isDone_compose ..
  have refused' : (resolveImports .default ((ExportTable.dots "$" "$$").requestsFor "lib")
      [("lib", .dots "$" "$$")] (.dotted "$" "$$")).outcome.isDone = false :=
    isDone_resolveImports ..
  obtain ⟨f₁, i₁, whole⟩ := exists_fail_of_isDone refused
  obtain ⟨f₂, i₂, single⟩ := exists_fail_of_isDone refused'
  -- in a replacement `$$` stands for a single `$`, and so does a `$` with nothing to refer to
  have message : Problem.collisionMessage "lib/$" = Problem.collisionMessage "lib/$$" := by
    obtain ⟨before, after, message⟩ := Problem.exists_collisionMessage
    apply String.toList_inj.1
    rw [message, message]
    rfl
  have own : ((Scope.dotted "$" "$$").composeJournal .default (.dots "$" "$$") "lib").diagnostics =
      [(Problem.collision "lib/$").reportedAt ⟨0, 3⟩,
        (Problem.collision "lib/$$").reportedAt ⟨3, 3⟩] :=
    rfl
  have shared : (resolveOn .default ((ExportTable.dots "$" "$$").requestsFor "lib")
      [("lib", .dots "$" "$$")] (.dotted "$" "$$")).2.diagnostics =
        [(Problem.collision "lib/$").reportedAt .none,
          (Problem.collision "lib/$$").reportedAt .none] :=
    rfl
  refine ⟨by decide, askForEach_requestsFor _ _, f₁, i₁, f₂, i₂, whole, single, ?_, ?_⟩
  · -- the definitions stand at different spans, so both reports are kept
    have apart : ((Problem.collision "lib/$").reportedAt ⟨0, 3⟩).key ≠
        ((Problem.collision "lib/$$").reportedAt ⟨3, 3⟩).key := fun same =>
      absurd (Diagnostic.key_eq_iff.1 same).2.1 (by decide)
    rw [Run.of_fail whole, own, Diagnostic.distinct_pair, if_neg apart]
    rfl
  · -- the requests stand at one span, and with one message they have one key
    have same : ((Problem.collision "lib/$").reportedAt .none).key =
        ((Problem.collision "lib/$$").reportedAt .none).key :=
      Diagnostic.key_eq_iff.2 ⟨rfl, rfl, message⟩
    have failed := Run.of_fail (j := (resolveOn .default
      ((ExportTable.dots "$" "$$").requestsFor "lib") [("lib", .dots "$" "$$")]
      (.dotted "$" "$$")).2) single
    rw [failed, shared, Diagnostic.distinct_pair, if_pos same]
    rfl

end Stencil
