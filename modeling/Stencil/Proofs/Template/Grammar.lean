import Mathlib.Data.List.Forall2
import Stencil.Proofs.Outcome.Graded

/-!
# The grammar of declarations

A declaration is read part by part: its entries, then its children but the last, then the names that
these declare.  What is wrong is reported at once, into a journal that may hold other reports
already, and a template is made if the journal counts no more errors at the end than it did at the
start (`Template.readInto`).

`Node.IsDeclaration` says without any order of reading which nodes are declarations, and
`Template.IsDeclaredBy` which template such a node declares.  Reading accepts just these nodes and
makes just these templates, whatever was reported before (`reads_just_declarations`): no pass hides
from a later one what that would have had to report, and a part that was dropped because it could
not be read has been counted.

The journal is threaded through the reading while the grammar has no order, so the first step is to
separate the two.  A draft adds its parts one by one, but what it has found and what it has reported
do not depend on each other (`foldl_draft`); after that a declaration is a list of parts and a list
of problems (`problemsOf`), and the journal that was there before only shifts the count of errors.
-/

namespace Stencil

open Diagnostic Journal

/-! ## Which nodes are declarations -/

/-- What an entry declares: a property declares a named tparameter, with its value as the default,
and a bare string declares a positional one. -/
inductive Entry.DeclaresValue : Entry → Tparameter → Prop
  | named (name : Spanned String) (default : Spanned Scalar) (span : Span) :
      DeclaresValue ⟨some name, default, span⟩ ⟨name.inner, name.span, .named default⟩
  | positional (name : String) (place span : Span) :
      DeclaresValue ⟨none, ⟨.string name, place⟩, span⟩ ⟨name, place, .positional⟩

/-- What a child declares: a marker with one bare string declares a splice, with its children as the
default, and a child without entries declares a node tparameter, with its only child as the
default. -/
inductive Node.DeclaresContent : Node → Tparameter → Prop
  | splice {child : Node} {target : String} {place span : Span}
      (marker : child.name.inner = expandWord)
      (sole : child.entries = [⟨none, ⟨.string target, place⟩, span⟩]) :
      DeclaresContent child ⟨target, place, .splice child.children⟩
  | node {child default : Node} (unmarked : child.name.inner ≠ expandWord)
      (entryless : child.entries = []) (sole : child.children = [default]) :
      DeclaresContent child ⟨child.name.inner, child.name.span, .node default⟩

/-- The name that an entry declares. -/
def Entry.nameDeclared? (e : Entry) : Option String :=
  match e.name with
  | some name => some name.inner
  | none => e.value.inner.string?

/-- The name that a child of a declaration declares: what a marker names, and the name of any other
child. -/
def Node.nameDeclared? (child : Node) : Option String :=
  if child.name.inner = expandWord then child.entries.head?.bind Entry.nameDeclared?
  else some child.name.inner

/-- The names that a node declares: those of its entries, then those of its children but the
last. -/
def Node.namesDeclared (decl : Node) : List String :=
  decl.entries.filterMap Entry.nameDeclared? ++
    decl.children.dropLast.filterMap Node.nameDeclared?

/-- The nodes that are declarations. -/
structure Node.IsDeclaration (decl : Node) : Prop where
  /-- Every entry is a property or a bare string. -/
  entries : ∀ e ∈ decl.entries, e.isProperty = true ∨ ∃ name, e.value.inner = .string name
  /-- Properties and bare strings do not occur together. -/
  uniform : ∀ e ∈ decl.entries, ∀ e' ∈ decl.entries, e.isProperty = e'.isProperty
  /-- There is a body. -/
  body : decl.children ≠ []
  /-- Every child but the last is a marker with one bare string, or has another name, no entries and
  one child. -/
  children : ∀ child ∈ decl.children.dropLast,
    (child.name.inner = expandWord ∧
      ∃ e name, child.entries = [e] ∧ e.isArgument = true ∧ e.value.inner = .string name) ∨
    (child.name.inner ≠ expandWord ∧ child.entries = [] ∧ ∃ default, child.children = [default])
  /-- No name is declared twice. -/
  distinct : decl.namesDeclared.Nodup

/-- The style that an entry asks for. -/
def Entry.style (e : Entry) : DeclarationStyle :=
  if e.isProperty then .named else .positional

/-- The tparameters that the entries of a node declare, and those that its children but the last
declare, each in order. -/
structure Node.Declares (decl : Node) (values contents : List Tparameter) : Prop where
  entries : List.Forall₂ Entry.DeclaresValue decl.entries values
  children : List.Forall₂ Node.DeclaresContent decl.children.dropLast contents

namespace Template

/-- The template that a node declares at a home scope. -/
structure IsDeclaredBy (t : Template) (decl : Node) (home : Scope) : Prop where
  name : t.name = decl.name.inner
  tparameters : ∃ values contents, decl.Declares values contents ∧
    t.tparameters = values ++ contents
  body : decl.children.getLast? = some t.body
  home : t.home = home
  style : t.style = (decl.entries.head?.map Entry.style).getD .none
  span : t.span = decl.span

/-! ## Reading part by part -/

/-- A declaration that is being read: the tparameters found so far, and the journal. -/
structure Draft where
  tparameters : List Tparameter
  journal : Journal

/-- A draft with one more part of the declaration, which declares a tparameter or is reported. -/
def Draft.add (d : Draft) (part : Except Diagnostic Tparameter) : Draft :=
  match part with
  | .ok p => { d with tparameters := d.tparameters ++ [p] }
  | .error problem => { d with journal := d.journal ++ .report [problem] }

/-- A declaration that is read into a journal.  There is a template if no error was added to those
that the journal counts already. -/
def readInto (before : Journal) (decl : Node) (home : Scope) : Option Template × Journal :=
  let name := decl.name.inner
  let entries := (decl.entries.map (tparameterOfEntry name)).foldl Draft.add ⟨[], before⟩
  let styled := entries.journal ++ .report (mixedStyle name decl.entries)
  match decl.children.getLast? with
  | none => (none, styled ++ .report [(Problem.missingBody name).reportedAt decl.span])
  | some body =>
    let all := (decl.children.dropLast.map (tparameterOfChild name)).foldl Draft.add
      ⟨entries.tparameters, styled⟩
    let after := all.journal ++ .report (repeats name [] all.tparameters)
    if before.errorCount < after.errorCount then (none, after)
    else
      (some
        { name, tparameters := all.tparameters, body, home, style := styleOf decl.entries
          span := decl.span }, after)

variable {decl child : Node} {home : Scope} {t : Template} {name : String} {e : Entry}
variable {p : Tparameter} {parts : List (Except Diagnostic Tparameter)}

/-! ## Parts that can be read

A list of parts splits into the tparameters that were found and the problems that were reported.
Nothing is reported if and only if every part declares a tparameter, and then the tparameters found
are those declared. -/

@[simp] lemma successes_cons_ok : successes (.ok p :: parts) = p :: successes parts :=
  rfl

@[simp] lemma successes_cons_error {problem : Diagnostic} :
    successes (.error problem :: parts) = successes parts :=
  rfl

@[simp] lemma faults_cons_ok : faults (.ok p :: parts) = faults parts :=
  rfl

@[simp] lemma faults_cons_error {problem : Diagnostic} :
    faults (.error problem :: parts) = problem :: faults parts :=
  rfl

/-- Reading parts into a draft adds the tparameters that they declare to those found, and their
problems to the journal. -/
lemma foldl_draft (d : Draft) : parts.foldl Draft.add d =
    ⟨d.tparameters ++ successes parts, d.journal ++ .report (faults parts)⟩ := by
  induction parts generalizing d with
  | nil =>
    have nothing : Journal.report [] = .empty := rfl
    rw [List.foldl_nil, successes, faults, List.filterMap_nil, List.filterMap_nil, List.append_nil,
      nothing, append_empty]
  | cons part rest ih =>
    rw [List.foldl_cons, ih]
    cases part with
    | ok p => simp [Draft.add]
    | error problem =>
      have reported : Journal.report (problem :: faults rest) =
          .report [problem] ++ .report (faults rest) := rfl
      simp [Draft.add, append_assoc, reported]

/-- Parts read without a fault are those that declare the tparameters found. -/
lemma forall₂_read_iff {α : Type} {read : α → Except Diagnostic Tparameter} {xs : List α}
    {tparameters : List Tparameter} :
    List.Forall₂ (fun x p => read x = .ok p) xs tparameters ↔
      faults (xs.map read) = [] ∧ successes (xs.map read) = tparameters := by
  induction xs generalizing tparameters with
  | nil =>
    rw [List.forall₂_nil_left_iff]
    exact ⟨fun none => ⟨rfl, none.symm⟩, fun found => found.2.symm⟩
  | cons x rest ih =>
    rw [List.map_cons, List.forall₂_cons_left_iff]
    rcases made : read x with problem | p
    · simp
    · simp only [faults_cons_ok, successes_cons_ok]
      constructor
      · rintro ⟨q, later, same, tail, rfl⟩
        obtain rfl := Except.ok.inj same
        obtain ⟨silent, found⟩ := ih.1 tail
        exact ⟨silent, by rw [found]⟩
      · rintro ⟨silent, rfl⟩
        exact ⟨p, _, rfl, ih.2 ⟨silent, rfl⟩, rfl⟩

/-- An entry is read as the tparameter that it declares. -/
lemma tparameterOfEntry_eq_ok_iff (name : String) :
    tparameterOfEntry name e = .ok p ↔ e.DeclaresValue p := by
  constructor
  · intro read
    obtain ⟨_ | key, ⟨value, place⟩, span⟩ := e
    · cases value with
      | string s =>
        obtain rfl := Except.ok.inj read
        exact .positional s place span
      | _ => cases read
    · obtain rfl := Except.ok.inj read
      exact .named key ⟨value, place⟩ span
  · rintro (_ | _) <;> rfl

/-- A child is read as the tparameter that it declares. -/
lemma tparameterOfChild_eq_ok_iff (name : String) :
    tparameterOfChild name child = .ok p ↔ child.DeclaresContent p := by
  constructor
  · -- the cases follow the reading: first the marker with its string, then the child without
    -- entries and with one child of its own
    intro read
    unfold tparameterOfChild at read
    split at read
    · next marker =>
      split at read
      · next target sole =>
        obtain rfl := Except.ok.inj read
        unfold Node.soleString? at sole
        split at sole
        · next single =>
          obtain rfl := Option.some.inj sole
          exact .splice marker single
        · cases sole
      · cases read
    · next unmarked =>
      split at read
      · cases read
      · next entryless =>
        split at read
        · next sole =>
          obtain rfl := Except.ok.inj read
          exact .node unmarked (not_not.1 entryless) sole
        · cases read
  · intro declares
    unfold tparameterOfChild
    cases declares with
    | splice marker sole => simp [marker, Node.soleString?, sole]
    | node unmarked entryless sole => simp [unmarked, entryless, sole]

/-! ## Styles and names

The two checks that look at more than one part.  Both are made on what was found, so they agree with
the conditions on the whole node only once all parts can be read. -/

lemma entryStyle?_of_declaresValue (h : e.DeclaresValue p) : entryStyle? e = some e.style := by
  cases h <;> rfl

lemma nameDeclared?_of_declaresValue (h : e.DeclaresValue p) : e.nameDeclared? = some p.name := by
  cases h <;> rfl

lemma nameDeclared?_of_declaresContent (h : child.DeclaresContent p) :
    child.nameDeclared? = some p.name := by
  unfold Node.nameDeclared?
  cases h with
  | splice marker sole => rw [if_pos marker, sole]; rfl
  | node unmarked _ _ => rw [if_neg unmarked]

/-- The entries that declare something are the properties and the bare strings. -/
lemma exists_declaresValue_iff :
    (∃ p, e.DeclaresValue p) ↔ e.isProperty = true ∨ ∃ name, e.value.inner = .string name := by
  constructor
  · rintro ⟨_, _ | _⟩
    · exact .inl rfl
    · exact .inr ⟨_, rfl⟩
  · obtain ⟨_ | key, ⟨value, place⟩, span⟩ := e
    · rintro (property | ⟨name, rfl⟩)
      · cases property
      · exact ⟨_, .positional name place span⟩
    · exact fun _ => ⟨_, .named key ⟨value, place⟩ span⟩

/-- The children that declare something are the markers with one bare string, and those that hold
one default and no entries. -/
lemma exists_declaresContent_iff :
    (∃ p, child.DeclaresContent p) ↔
      (child.name.inner = expandWord ∧
        ∃ e name, child.entries = [e] ∧ e.isArgument = true ∧ e.value.inner = .string name) ∨
      (child.name.inner ≠ expandWord ∧ child.entries = [] ∧
        ∃ default, child.children = [default]) := by
  constructor
  · rintro ⟨_, declares⟩
    cases declares with
    | splice marker sole => exact .inl ⟨marker, _, _, sole, rfl, rfl⟩
    | node unmarked entryless sole => exact .inr ⟨unmarked, entryless, _, sole⟩
  · rintro (⟨marker, ⟨_ | _, ⟨value, place⟩, span⟩, name, sole, bare, rfl⟩ |
      ⟨unmarked, entryless, default, sole⟩)
    · exact ⟨_, .splice marker sole⟩
    · cases bare
    · exact ⟨_, .node unmarked entryless sole⟩

lemma style_eq_iff {e e' : Entry} : e.style = e'.style ↔ e.isProperty = e'.isProperty := by
  unfold Entry.style
  cases e.isProperty <;> cases e'.isProperty <;> decide

section Styles

variable {entries : List Entry} (known : ∀ e ∈ entries, ∃ p, e.DeclaresValue p)
include known

/-- Entries that declare tparameters have the style of the first of them. -/
lemma styleOf_eq : styleOf entries = (entries.head?.map Entry.style).getD .none := by
  have styles : entries.filterMap entryStyle? = entries.map Entry.style := by
    rw [List.filterMap_eq_map_iff_forall_eq_some]
    intro e mem
    obtain ⟨p, declares⟩ := known e mem
    exact entryStyle?_of_declaresValue declares
  rw [styleOf, styles, List.head?_map]

/-- Entries that declare tparameters are not reported for their style just if they have the same. -/
lemma mixedStyle_eq_nil_iff : mixedStyle name entries = [] ↔
    ∀ e ∈ entries, ∀ e' ∈ entries, e.isProperty = e'.isProperty := by
  -- the style asked for is that of the first entry, and the search reports the first entry that
  -- departs from it
  have silent : mixedStyle name entries = [] ↔ ∀ e ∈ entries, e.style = styleOf entries := by
    have none : mixedStyle name entries = [] ↔ mixedAt? entries = none := by
      unfold mixedStyle
      cases mixedAt? entries <;> simp
    rw [none, mixedAt?, List.find?_eq_none]
    refine forall₂_congr fun e mem => ?_
    obtain ⟨p, declares⟩ := known e mem
    rw [entryStyle?_of_declaresValue declares]
    simp
  rw [silent, styleOf_eq known]
  rcases entries with _ | ⟨first, rest⟩
  · simp
  · constructor
    · intro same e mem e' mem'
      exact style_eq_iff.1 ((same e mem).trans (same e' mem').symm)
    · intro same e mem
      exact style_eq_iff.2 (same e mem first List.mem_cons_self)

end Styles

/-- No repeat is reported just if the names are different, and none of them was seen before. -/
lemma repeats_eq_nil_iff {seen : List String} {tparameters : List Tparameter} :
    repeats name seen tparameters = [] ↔
      (tparameters.map Tparameter.name).Nodup ∧ ∀ p ∈ tparameters, p.name ∉ seen := by
  induction tparameters generalizing seen with
  | nil => simp [repeats]
  | cons p rest ih =>
    have first : (if seen.contains p.name then
        [(Problem.duplicateTparameter name p.name).reportedAt p.span] else []) = [] ↔
        p.name ∉ seen := by
      simp
    rw [repeats, List.append_eq_nil_iff, first, ih, List.map_cons, List.nodup_cons,
      List.forall_mem_cons]
    simp only [List.mem_cons, not_or, List.mem_map, not_exists, not_and, forall_and]
    constructor
    · rintro ⟨unseen, nodup, fresh, others⟩
      exact ⟨⟨fresh, nodup⟩, unseen, others⟩
    · rintro ⟨⟨fresh, nodup⟩, unseen, others⟩
      exact ⟨unseen, nodup, fresh, others⟩

/-- The names that are declared are those of the tparameters. -/
lemma filterMap_eq_map_name {α : Type} {R : α → Tparameter → Prop} {f : α → Option String}
    {xs : List α} {tparameters : List Tparameter} (h : List.Forall₂ R xs tparameters)
    (named : ∀ x p, R x p → f x = some p.name) :
    xs.filterMap f = tparameters.map Tparameter.name := by
  induction h with
  | nil => rfl
  | cons head _ ih => rw [List.filterMap_cons_some (named _ _ head), ih, List.map_cons]

/-! ## The whole declaration -/

section Whole

variable {body : Node} {values contents : List Tparameter} {problems : List Diagnostic}

/-- The tparameters of the parts that can be read. -/
def readable (decl : Node) : List Tparameter :=
  successes (decl.entries.map (tparameterOfEntry decl.name.inner)) ++
    successes (decl.children.dropLast.map (tparameterOfChild decl.name.inner))

/-- What is wrong with a declaration that has a body. -/
def problemsOf (decl : Node) : List Diagnostic :=
  faults (decl.entries.map (tparameterOfEntry decl.name.inner)) ++
    mixedStyle decl.name.inner decl.entries ++
    faults (decl.children.dropLast.map (tparameterOfChild decl.name.inner)) ++
    repeats decl.name.inner [] (readable decl)

/-- The template that a declaration with a body makes if nothing is wrong with it. -/
def ofParts (decl body : Node) (home : Scope) : Template where
  name := decl.name.inner
  tparameters := readable decl
  body := body
  home := home
  style := styleOf decl.entries
  span := decl.span

lemma ofDeclaration_of_body (last : decl.children.getLast? = some body) (home : Scope) :
    ofDeclaration decl home =
      if (problemsOf decl).isEmpty then .ok (ofParts decl body home)
      else .error (problemsOf decl) := by
  unfold ofDeclaration
  dsimp only
  rw [last]
  rfl

lemma ofDeclaration_of_no_body (last : decl.children.getLast? = none) (home : Scope) :
    ofDeclaration decl home =
      .error (faults (decl.entries.map (tparameterOfEntry decl.name.inner)) ++
        mixedStyle decl.name.inner decl.entries ++
        [(Problem.missingBody decl.name.inner).reportedAt decl.span]) := by
  unfold ofDeclaration
  dsimp only
  rw [last]

lemma faults_map_eq_nil_iff {α : Type} {read : α → Except Diagnostic Tparameter} {xs : List α} :
    faults (xs.map read) = [] ↔ ∀ x ∈ xs, ∃ p, read x = .ok p := by
  rw [faults, List.filterMap_eq_nil_iff, List.forall_mem_map]
  refine forall₂_congr fun x _ => ?_
  rcases read x with problem | p <;> simp

/-- What can be read of a declaration is what all of its parts declare, if they all do. -/
lemma readable_of_declares (h : decl.Declares values contents) :
    readable decl = values ++ contents := by
  have entries := h.entries.imp fun _ _ => (tparameterOfEntry_eq_ok_iff decl.name.inner).2
  have children := h.children.imp fun _ _ => (tparameterOfChild_eq_ok_iff decl.name.inner).2
  rw [readable, (forall₂_read_iff.1 entries).2, (forall₂_read_iff.1 children).2]

/-- If every part declares something, the node declares a list of tparameters. -/
lemma exists_declares (entries : ∀ e ∈ decl.entries, ∃ p, e.DeclaresValue p)
    (children : ∀ child ∈ decl.children.dropLast, ∃ p, child.DeclaresContent p) :
    ∃ values contents, decl.Declares values contents := by
  simp only [← tparameterOfEntry_eq_ok_iff decl.name.inner] at entries
  simp only [← tparameterOfChild_eq_ok_iff decl.name.inner] at children
  have values := forall₂_read_iff.2 ⟨faults_map_eq_nil_iff.2 entries, rfl⟩
  have contents := forall₂_read_iff.2 ⟨faults_map_eq_nil_iff.2 children, rfl⟩
  exact ⟨_, _, values.imp fun _ _ => (tparameterOfEntry_eq_ok_iff _).1,
    contents.imp fun _ _ => (tparameterOfChild_eq_ok_iff _).1⟩

/-- The names declared are those of the tparameters. -/
lemma namesDeclared_of_declares (h : decl.Declares values contents) :
    decl.namesDeclared = (readable decl).map Tparameter.name := by
  rw [readable_of_declares h, Node.namesDeclared, List.map_append,
    filterMap_eq_map_name h.entries fun _ _ => nameDeclared?_of_declaresValue,
    filterMap_eq_map_name h.children fun _ _ => nameDeclared?_of_declaresContent]

/-- Nothing is wrong with a node that has a body just if it is a declaration. -/
lemma problemsOf_eq_nil_iff (last : decl.children.getLast? = some body) :
    problemsOf decl = [] ↔ decl.IsDeclaration := by
  simp only [problemsOf, List.append_eq_nil_iff, faults_map_eq_nil_iff,
    tparameterOfEntry_eq_ok_iff, tparameterOfChild_eq_ok_iff, repeats_eq_nil_iff]
  constructor
  · -- the names that are checked for repeats are those of the tparameters found; as all parts
    -- declare something, these are the names declared
    rintro ⟨⟨⟨entries, unmixed⟩, children⟩, nodup, _⟩
    obtain ⟨values, contents, declares⟩ := exists_declares entries children
    exact {
      entries := fun e mem => exists_declaresValue_iff.1 (entries e mem)
      uniform := (mixedStyle_eq_nil_iff entries).1 unmixed
      body := List.ne_nil_of_mem (List.mem_of_getLast? last)
      children := fun child mem => exists_declaresContent_iff.1 (children child mem)
      distinct := by rwa [namesDeclared_of_declares declares] }
  · intro is
    have entries := fun e mem => exists_declaresValue_iff.2 (is.entries e mem)
    have children := fun child mem => exists_declaresContent_iff.2 (is.children child mem)
    obtain ⟨values, contents, declares⟩ := exists_declares entries children
    have nodup := is.distinct
    rw [namesDeclared_of_declares declares] at nodup
    exact ⟨⟨⟨entries, (mixedStyle_eq_nil_iff entries).2 is.uniform⟩, children⟩, nodup, by simp⟩

/-- A declaration declares just one template at a home. -/
lemma isDeclaredBy_iff (is : decl.IsDeclaration) (last : decl.children.getLast? = some body) :
    t.IsDeclaredBy decl home ↔ t = ofParts decl body home := by
  have entries := fun e mem => exists_declaresValue_iff.2 (is.entries e mem)
  have children := fun child mem => exists_declaresContent_iff.2 (is.children child mem)
  constructor
  · rintro ⟨name, ⟨values, contents, declares, tparameters⟩, body', home, style, span⟩
    obtain rfl := Option.some.inj (last.symm.trans body')
    rw [← readable_of_declares declares] at tparameters
    rw [← styleOf_eq entries] at style
    cases t
    simp_all [ofParts]
  · rintro rfl
    obtain ⟨values, contents, declares⟩ := exists_declares entries children
    exact ⟨rfl, ⟨values, contents, declares, readable_of_declares declares⟩, last, rfl,
      styleOf_eq entries, rfl⟩

/-- **A node is read as a template** just if it is a declaration and declares that template. -/
theorem ofDeclaration_eq_ok_iff :
    ofDeclaration decl home = .ok t ↔ decl.IsDeclaration ∧ t.IsDeclaredBy decl home := by
  rcases last : decl.children.getLast? with _ | body
  · have bodiless : ¬decl.IsDeclaration := fun is =>
      absurd (List.getLast?_eq_none_iff.1 last) is.body
    rw [ofDeclaration_of_no_body last]
    exact iff_of_false nofun fun declares => bodiless declares.1
  · rw [ofDeclaration_of_body last]
    by_cases is : decl.IsDeclaration
    · rw [if_pos (List.isEmpty_iff.2 ((problemsOf_eq_nil_iff last).2 is)), Except.ok.injEq,
        isDeclaredBy_iff is last, and_iff_right is, eq_comm]
    · have wrong : ¬(problemsOf decl).isEmpty = true := by
        rw [List.isEmpty_iff, problemsOf_eq_nil_iff last]
        exact is
      rw [if_neg wrong]
      simp [is]

/-- A template is read of a declaration, and of nothing else. -/
lemma exists_ofDeclaration_iff (home : Scope) :
    (∃ t, ofDeclaration decl home = .ok t) ↔ decl.IsDeclaration := by
  constructor
  · rintro ⟨t, read⟩
    exact (ofDeclaration_eq_ok_iff.1 read).1
  · intro is
    have last := List.getLast?_eq_some_getLast is.body
    exact ⟨_, ofDeclaration_eq_ok_iff.2 ⟨is, (isDeclaredBy_iff is last).2 rfl⟩⟩

/-- A node that is not read as a template has a problem. -/
lemma ne_nil_of_ofDeclaration_error (h : ofDeclaration decl home = .error problems) :
    problems ≠ [] := by
  rcases last : decl.children.getLast? with _ | body
  · rw [ofDeclaration_of_no_body last] at h
    rw [← Except.error.inj h]
    simp
  · rw [ofDeclaration_of_body last] at h
    split at h
    · cases h
    · next wrong =>
      rw [← Except.error.inj h]
      exact mt List.isEmpty_iff.2 wrong

/-! ## Reading into a journal

A problem is an error, so the count goes up just if something is wrong, and what the journal held
before cancels out on both sides of the comparison. -/

/-- Faults that are reported are counted, every one. -/
lemma errorCount_append_report {j : Journal} {faults : List Diagnostic} (h : AreFaults faults) :
    (j ++ .report faults).errorCount = j.errorCount + faults.length := by
  have errors : faults.countP isError = faults.length :=
    List.countP_eq_length.2 fun d mem => (h d mem).isError
  rw [errorCount, diagnostics_append, diagnostics_report, List.countP_append, errors, errorCount]

/-- With a body, reading into a journal adds the problems, and makes the template if the count of
errors stays. -/
lemma readInto_of_body (last : decl.children.getLast? = some body) (before : Journal)
    (home : Scope) : readInto before decl home =
      if before.errorCount < (before ++ .report (problemsOf decl)).errorCount then
        (none, before ++ .report (problemsOf decl))
      else (some (ofParts decl body home), before ++ .report (problemsOf decl)) := by
  have joined : ∀ a b : List Diagnostic, Journal.report a ++ .report b = .report (a ++ b) :=
    fun _ _ => rfl
  unfold readInto
  dsimp only
  rw [last]
  simp only [foldl_draft, append_assoc, joined, List.nil_append]
  rfl

/-- A template that is read comes without a report. -/
lemma readInto_of_ok (h : ofDeclaration decl home = .ok t) (before : Journal) :
    readInto before decl home = (some t, before) := by
  obtain ⟨is, declares⟩ := ofDeclaration_eq_ok_iff.1 h
  have last := declares.body
  have silent := (problemsOf_eq_nil_iff last).2 is
  have nothing : before ++ Journal.report [] = before := append_empty before
  rw [readInto_of_body last, silent, nothing, if_neg (Nat.lt_irrefl _),
    (isDeclaredBy_iff is last).1 declares]
  rfl

/-- Without a template, whatever is wrong is reported. -/
lemma readInto_of_error (h : ofDeclaration decl home = .error problems) (before : Journal) :
    readInto before decl home = (none, before ++ .report problems) := by
  have faults := (areOwnFaults_ofDeclaration h).areFaults
  -- without a body the reading stops early; with one the problems are faults, so the count is
  -- higher by at least one
  rcases last : decl.children.getLast? with _ | body
  · rw [ofDeclaration_of_no_body last] at h
    obtain rfl := Except.error.inj h
    unfold readInto
    dsimp only
    rw [last]
    have joined : ∀ a b : List Diagnostic, Journal.report a ++ .report b = .report (a ++ b) :=
      fun _ _ => rfl
    simp only [foldl_draft, append_assoc, joined]
  · rw [ofDeclaration_of_body last] at h
    split at h
    · cases h
    · next wrong =>
      obtain rfl := Except.error.inj h
      have some := List.length_pos_of_ne_nil (mt List.isEmpty_iff.2 wrong)
      rw [readInto_of_body last, errorCount_append_report faults, if_pos (by omega)]

end Whole

/-- **Just the declarations are read as templates**, into every journal: a declaration makes the
template that it declares and reports nothing, and any other node makes none and is reported with
at least one error. -/
theorem reads_just_declarations (decl : Node) (home : Scope) (before : Journal) :
    ((∃ t, ofDeclaration decl home = .ok t ∧ readInto before decl home = (some t, before) ∧
        t.IsDeclaredBy decl home) ↔ decl.IsDeclaration) ∧
    ((∃ problems, ofDeclaration decl home = .error problems ∧
        readInto before decl home = (none, before ++ .report problems) ∧
        problems ≠ [] ∧ ∀ d ∈ problems, d.isError = true) ↔ ¬decl.IsDeclaration) := by
  rw [← exists_ofDeclaration_iff home]
  -- both equivalences are decided by whether a template is read, and each of the two outcomes
  -- makes one of them true on both sides and the other false on both
  rcases read : ofDeclaration decl home with problems | t
  · have faults := (areOwnFaults_ofDeclaration read).areFaults
    refine ⟨iff_of_false (by simp) (by simp), iff_of_true ?_ (by simp)⟩
    exact ⟨problems, rfl, readInto_of_error read before, ne_nil_of_ofDeclaration_error read,
      fun d mem => (faults d mem).isError⟩
  · refine ⟨iff_of_true ?_ ⟨t, rfl⟩, iff_of_false (by simp) (by simp)⟩
    exact ⟨t, rfl, readInto_of_ok read before, (ofDeclaration_eq_ok_iff.1 read).2⟩

end Template

end Stencil
