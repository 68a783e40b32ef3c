import Stencil.Expansion.Reading
import Stencil.Proofs.Scope.Unplaced
import Stencil.Template.Declaration
import Stencil.Template.References

/-!
# Templates without their places

A call is bound, and a declaration is read and checked, in the same way with and without places:
the frames, the templates and the reports come out as they do with places, without their places.

Taking the places away commutes with every step: with the reading of one value, with the offer of
one entry or holder, with each pass over them, and with the frame that is made in the end.  There is
one equation for each function of the binding and of the reading, and the proofs follow the cases of
that function; a case is usually closed by computation, because no step looks at a place to decide
anything.
-/

namespace Stencil

/-! ## Values -/

section Values

variable (s : Scope)

/-- A value reads as it does with places. -/
lemma Scope.valueOf_unplaced (v : Spanned Scalar) :
    s.unplaced.valueOf v.unplaced =
      ((s.valueOf v).1.unplaced, (s.valueOf v).2.map Diagnostic.unplaced) := by
  unfold valueOf
  rw [Spanned.inner_unplaced]
  split
  · next name _ =>
    rw [lookup_unplaced]
    rcases s.lookup name with _ | ⟨_ | t, _, _, _⟩ | v | _ | _ <;> rfl
  · rfl

/-- So does an entry. -/
lemma Scope.entryOf_unplaced (e : Entry) :
    s.unplaced.entryOf e.unplaced =
      ((s.entryOf e).1.unplaced, (s.entryOf e).2.map Diagnostic.unplaced) := by
  unfold entryOf
  rw [Entry.unplaced, valueOf_unplaced]
  rfl

end Values

namespace Template

/-! ## Targuments given by name -/

/-- An offer without its places. -/
def Offer.unplaced : Offer → Offer
  | .refused problem => .refused problem.unplaced
  | .made name binding problems _ =>
    .made name binding.unplaced (problems.map Diagnostic.unplaced) .none

variable (t : Template) (s : Scope)

/-- The offer of an entry, without places. -/
lemma offerOfEntry?_unplaced (e : Entry) :
    t.unplaced.offerOfEntry? s.unplaced e.unplaced =
      (t.offerOfEntry? s e).map Offer.unplaced := by
  rcases e with ⟨_ | name, v, span⟩
  · rfl
  · simp only [Entry.unplaced, offerOfEntry?, Option.map_some, Spanned.inner_unplaced,
      tparameter?_unplaced, Option.some.injEq, s.valueOf_unplaced, name_unplaced]
    rcases t.tparameter? name.inner with _ | p
    · rfl
    · simp only [Option.map_some, Tparameter.unplaced, TparameterForm.takesValue_unplaced,
        TparameterForm.expectation_unplaced]
      split <;> rfl

/-- What a holder holds, without places. -/
lemma held?_unplaced (form : TparameterForm) (holder : Node) :
    held? s.unplaced form.unplaced holder.unplaced =
      (held? s form holder).map fun made =>
        (made.1.unplaced, made.2.map Diagnostic.unplaced) := by
  rcases holder with ⟨_, entries, children, _⟩
  rw [Node.unplaced_eq]
  rcases entries with _ | ⟨⟨_ | property, v, place⟩, _ | ⟨_, _⟩⟩ <;>
    rcases children with _ | ⟨child, _ | ⟨_, _⟩⟩ <;> cases form <;>
      simp [held?, TparameterForm.unplaced, Entry.unplaced, s.valueOf_unplaced, Binding.unplaced]

/-- The shape that is reported of a holder has no places. -/
lemma shape_unplaced (holder : Node) : shape holder.unplaced = shape holder := by
  simp [shape]

/-- The offer of a holder, without places. -/
lemma offerOfHolder_unplaced (holder : Node) :
    t.unplaced.offerOfHolder s.unplaced holder.unplaced = (t.offerOfHolder s holder).unplaced := by
  simp only [offerOfHolder, Node.name_unplaced, Spanned.inner_unplaced, tparameter?_unplaced,
    Node.span_unplaced, name_unplaced, shape_unplaced]
  rcases t.tparameter? holder.name.inner with _ | p
  · rfl
  · simp only [Option.map_some, Tparameter.unplaced, held?_unplaced,
      TparameterForm.expectation_unplaced]
    rcases held? s p.form holder with _ | made <;> rfl

/-- All offers of a call, without places. -/
lemma offers_unplaced (call : Node) :
    t.unplaced.offers call.unplaced s.unplaced = (t.offers call s).map Offer.unplaced := by
  simp only [offers, Node.entries_unplaced, Node.children_unplaced, List.map_append, List.map_map,
    List.filterMap_map, List.map_filterMap, Function.comp_def, offerOfEntry?_unplaced,
    offerOfHolder_unplaced]

/-! ## Settling the call -/

namespace Settlement

/-- A settlement without its places. -/
def unplaced (a : Settlement) : Settlement :=
  ⟨a.bound.map fun pair => (pair.1, pair.2.unplaced), a.problems.map Diagnostic.unplaced, a.sound⟩

variable (a : Settlement)

@[simp] lemma has_unplaced (name : String) : a.unplaced.bound.has name = a.bound.has name :=
  Keyed.has_map _ _ _

lemma unplaced_refuse (problem : Diagnostic) :
    (a.refuse problem).unplaced = a.unplaced.refuse problem.unplaced := by
  simp [refuse, unplaced]

lemma unplaced_take (name : String) (b : Binding) (problems : List Diagnostic) :
    (a.take name b problems).unplaced =
      a.unplaced.take name b.unplaced (problems.map Diagnostic.unplaced) := by
  simp [take, unplaced]

lemma unplaced_settle (template : String) (o : Offer) :
    (a.settle template o).unplaced = a.unplaced.settle template o.unplaced := by
  cases o with
  | refused problem => exact a.unplaced_refuse problem
  | made name b problems span =>
    rw [settle, Offer.unplaced, settle, has_unplaced]
    split
    · simp [refuse, unplaced]
    · exact a.unplaced_take name b problems

lemma unplaced_foldl_settle (template : String) (os : List Offer) :
    (os.foldl (settle template) a).unplaced =
      (os.map Offer.unplaced).foldl (settle template) a.unplaced := by
  induction os generalizing a with
  | nil => rfl
  | cons o rest ih => rw [List.foldl_cons, ih, unplaced_settle, List.map_cons, List.foldl_cons]

end Settlement

variable {t s}

lemma openTparameters_unplaced (a : Settlement) :
    t.unplaced.openTparameters a.unplaced = (t.openTparameters a).map Tparameter.unplaced := by
  rw [openTparameters, openTparameters, tparameters_unplaced, List.filter_map]
  simp [Function.comp_def, Tparameter.unplaced]

lemma unplaced_fillOpen (entries : List Entry) (tparameters : List Tparameter) (a : Settlement) :
    (fillOpen t s tparameters entries a).unplaced =
      fillOpen t.unplaced s.unplaced (tparameters.map Tparameter.unplaced)
        (entries.map Entry.unplaced) a.unplaced := by
  induction entries generalizing tparameters a with
  | nil =>
    rw [List.map_nil, fillOpen, fillOpen]
  | cons e rest ih =>
    cases tparameters with
    | nil =>
      rw [List.map_cons, fillOpen, ih, Settlement.unplaced_refuse, List.map_nil, fillOpen,
        name_unplaced, tparameters_unplaced, List.length_map]
      rfl
    | cons p unfilled =>
      rw [List.map_cons, List.map_cons, fillOpen, ih, fillOpen]
      congr 1
      simp only [Tparameter.unplaced, TparameterForm.takesValue_unplaced, Entry.unplaced,
        s.valueOf_unplaced, TparameterForm.expectation_unplaced]
      split
      · exact Settlement.unplaced_take ..
      · exact Settlement.unplaced_refuse ..

lemma unplaced_fillDefault (call : Node) (a : Settlement) (p : Tparameter) :
    (t.fillDefault call a p).unplaced =
      t.unplaced.fillDefault call.unplaced a.unplaced p.unplaced := by
  unfold fillDefault
  rcases p with ⟨name, span, form⟩
  simp only [Settlement.has_unplaced, Tparameter.unplaced]
  split
  · rfl
  · cases form with
    | positional =>
      rw [TparameterForm.unplaced, Node.span_unplaced, name_unplaced]
      exact a.unplaced_refuse _
    | named default =>
      simp only [TparameterForm.unplaced, home_unplaced, t.home.valueOf_unplaced]
      exact a.unplaced_take ..
    | node default =>
      rw [TparameterForm.unplaced, home_unplaced]
      exact a.unplaced_take ..
    | splice default =>
      rw [TparameterForm.unplaced, home_unplaced]
      exact a.unplaced_take ..

lemma unplaced_foldl_fillDefault (call : Node) (tparameters : List Tparameter) (a : Settlement) :
    (tparameters.foldl (t.fillDefault call) a).unplaced =
      (tparameters.map Tparameter.unplaced).foldl (t.unplaced.fillDefault call.unplaced)
        a.unplaced := by
  induction tparameters generalizing a with
  | nil => rfl
  | cons p rest ih =>
    rw [List.foldl_cons, ih, unplaced_fillDefault, List.map_cons, List.foldl_cons]

/-- The whole settlement, without places. -/
lemma unplaced_settlement (call : Node) :
    (t.settlement call s).unplaced = t.unplaced.settlement call.unplaced s.unplaced := by
  have arguments : call.unplaced.arguments = call.arguments.map Entry.unplaced := by
    rw [Node.arguments, Node.arguments, Node.entries_unplaced, List.filter_map]
    congr 2
    funext e
    rcases e with ⟨_ | _, _, _⟩ <;> rfl
  have nothing : Settlement.empty.unplaced = .empty := rfl
  -- the passes are peeled off from the last to the first
  unfold settlement
  dsimp only
  rw [unplaced_foldl_fillDefault, unplaced_fillOpen, Settlement.unplaced_foldl_settle,
    ← offers_unplaced, ← openTparameters_unplaced, Settlement.unplaced_foldl_settle,
    ← offers_unplaced, arguments, tparameters_unplaced, name_unplaced, nothing]

/-- The bindings of the frame, without places. -/
lemma frameBindings_unplaced (a : Settlement) :
    t.unplaced.frameBindings a.unplaced =
      (t.frameBindings a).map fun pair => (pair.1, pair.2.unplaced) := by
  have found : ∀ name, a.unplaced.bound.get? name = (a.bound.get? name).map Binding.unplaced :=
    fun name => Keyed.get?_map _ _ name
  simp only [frameBindings, tparameters_unplaced, List.filterMap_map, List.map_filterMap,
    Function.comp_def, Tparameter.unplaced, found, Option.map_map]

/-- **A call is bound in the same way without places.** -/
theorem bindCall_unplaced (t : Template) (call : Node) (s : Scope) :
    t.unplaced.bindCall call.unplaced s.unplaced =
      ((t.bindCall call s).1.map Scope.unplaced,
        (t.bindCall call s).2.map Diagnostic.unplaced) := by
  unfold bindCall
  dsimp only
  rw [← unplaced_settlement, frameBindings_unplaced, home_unplaced, Prod.mk.injEq]
  refine ⟨?_, rfl⟩
  change (if (t.settlement call s).sound then _ else _) = _
  split
  · rw [Option.map_some, Scope.unplaced_extend]
  · rfl

/-! ## Declarations -/

/-- What was read of a declaration, without its places. -/
def unplacedRead : Except Diagnostic Tparameter → Except Diagnostic Tparameter
  | .ok p => .ok p.unplaced
  | .error d => .error d.unplaced

/-- What an entry declares, without places. -/
lemma tparameterOfEntry_unplaced (template : String) (e : Entry) :
    tparameterOfEntry template e.unplaced = unplacedRead (tparameterOfEntry template e) := by
  rcases e with ⟨_ | name, ⟨_ | _ | _ | _, place⟩, span⟩ <;> rfl

lemma entryStyle?_unplaced (e : Entry) : entryStyle? e.unplaced = entryStyle? e := by
  rcases e with ⟨_ | name, ⟨_ | _ | _ | _, place⟩, span⟩ <;> rfl

lemma styleOf_unplaced (entries : List Entry) :
    styleOf (entries.map Entry.unplaced) = styleOf entries := by
  simp only [styleOf, List.filterMap_map, Function.comp_def, entryStyle?_unplaced]

lemma mixedStyle_unplaced (template : String) (entries : List Entry) :
    mixedStyle template (entries.map Entry.unplaced) =
      (mixedStyle template entries).map Diagnostic.unplaced := by
  have first : mixedAt? (entries.map Entry.unplaced) =
      (mixedAt? entries).map Entry.unplaced := by
    rw [mixedAt?, mixedAt?, List.find?_map]
    simp only [Function.comp_def, entryStyle?_unplaced, styleOf_unplaced]
  unfold mixedStyle
  rw [first]
  cases mixedAt? entries <;> rfl

lemma soleString?_unplaced (n : Node) :
    n.unplaced.soleString? = n.soleString?.map Spanned.unplaced := by
  rcases n with ⟨name, entries, children, span⟩
  rw [Node.soleString?, Node.entries_unplaced]
  rcases entries with _ | ⟨⟨_ | _, ⟨_ | _ | _ | _, place⟩, span⟩, _ | ⟨_, _⟩⟩ <;> rfl

/-- What a child declares, without places. -/
lemma tparameterOfChild_unplaced (template : String) (child : Node) :
    tparameterOfChild template child.unplaced =
      unplacedRead (tparameterOfChild template child) := by
  simp only [tparameterOfChild, Node.name_unplaced, Spanned.inner_unplaced, soleString?_unplaced,
    Node.span_unplaced, Node.entries_unplaced, Node.children_unplaced, ne_eq, List.map_eq_nil_iff]
  split
  · rcases child.soleString? with _ | target <;> rfl
  · split
    · rfl
    · rcases child.children with _ | ⟨_, _ | ⟨_, _⟩⟩
      · rfl
      · rfl
      · simp [unplacedRead]

lemma successes_unplaced (read : List (Except Diagnostic Tparameter)) :
    successes (read.map unplacedRead) = (successes read).map Tparameter.unplaced := by
  rw [successes, successes, List.filterMap_map, List.map_filterMap]
  congr 1
  funext r
  cases r <;> rfl

lemma faults_unplaced (read : List (Except Diagnostic Tparameter)) :
    faults (read.map unplacedRead) = (faults read).map Diagnostic.unplaced := by
  rw [faults, faults, List.filterMap_map, List.map_filterMap]
  congr 1
  funext r
  cases r <;> rfl

lemma repeats_unplaced (template : String) (seen : List String) (tparameters : List Tparameter) :
    repeats template seen (tparameters.map Tparameter.unplaced) =
      (repeats template seen tparameters).map Diagnostic.unplaced := by
  induction tparameters generalizing seen with
  | nil => rfl
  | cons p rest ih =>
    rw [List.map_cons, repeats, repeats, ih, List.map_append]
    congr 1
    rw [Tparameter.unplaced]
    split <;> rfl

/-- A template that was read of a declaration, or what is wrong with it, without places. -/
def unplacedDeclaration : Except (List Diagnostic) Template → Except (List Diagnostic) Template
  | .ok t => .ok t.unplaced
  | .error problems => .error (problems.map Diagnostic.unplaced)

/-- **A declaration is read in the same way without places.** -/
theorem ofDeclaration_unplaced (decl : Node) (home : Scope) :
    ofDeclaration decl.unplaced home.unplaced = unplacedDeclaration (ofDeclaration decl home) := by
  have entries : decl.unplaced.entries.map (tparameterOfEntry decl.name.inner) =
      (decl.entries.map (tparameterOfEntry decl.name.inner)).map unplacedRead := by
    simp [Function.comp_def, tparameterOfEntry_unplaced]
  unfold ofDeclaration
  dsimp only
  rw [Node.name_unplaced, Spanned.inner_unplaced, entries, Node.children_unplaced,
    List.getLast?_map, Node.entries_unplaced, mixedStyle_unplaced, faults_unplaced,
    successes_unplaced, Node.span_unplaced, styleOf_unplaced]
  rcases decl.children.getLast? with _ | body
  · simp [unplacedDeclaration]
  · have children : (decl.children.map Node.unplaced).dropLast.map
          (tparameterOfChild decl.name.inner) =
        (decl.children.dropLast.map (tparameterOfChild decl.name.inner)).map unplacedRead := by
      simp [List.map_dropLast, Function.comp_def, tparameterOfChild_unplaced]
    rw [Option.map_some]
    dsimp only
    simp only [children, faults_unplaced, successes_unplaced, ← List.map_append, repeats_unplaced,
      List.isEmpty_map]
    split
    · rw [unplacedDeclaration, unplaced_eq]
    · rfl

/-! ## References -/

section References

variable (home : Scope) (tparameters : List Tparameter)

mutual

/-- The references of a node that are reported, without places. -/
lemma badReferences_unplaced : (n : Node) →
    badReferences home.unplaced (tparameters.map Tparameter.unplaced) n.unplaced =
      (badReferences home tparameters n).map Diagnostic.unplaced
  | ⟨name, entries, children, span⟩ => by
    have sole := soleString?_unplaced ⟨name, entries, children, span⟩
    have declared : (tparameters.map Tparameter.unplaced).find? (fun p => p.name == name.inner) =
        (tparameters.find? fun p => p.name == name.inner).map Tparameter.unplaced := by
      rw [List.find?_map]
      rfl
    rw [Node.unplaced_eq] at sole ⊢
    rw [badReferences, badReferences, sole]
    simp only [Spanned.inner_unplaced, declared, Scope.lookup_unplaced, Scope.declares_unplaced,
      badReferencesOfAll_unplaced children, badReferencesOfHolders_unplaced children]
    split
    · rcases Node.soleString? _ with _ | target
      · rfl
      · simp only [Option.map_some, List.any_map, Function.comp_def, Tparameter.unplaced,
          Spanned.inner_unplaced]
        split <;> rfl
    · -- a name of a tparameter is settled by the form, which stays the same; any other by the home
      rcases tparameters.find? _ with _ | ⟨_, _, _ | _ | _ | _⟩
      · rcases home.lookup name.inner with _ | ⟨_ | _, _, _, _⟩ | _ | _ | _
        · simp only [Option.map_none, List.map_append]
          congr 1
          split <;> rfl
        all_goals rfl
      all_goals rfl

/-- Those of some nodes. -/
lemma badReferencesOfAll_unplaced : (nodes : List Node) →
    badReferencesOfAll home.unplaced (tparameters.map Tparameter.unplaced)
        (nodes.map Node.unplaced) =
      (badReferencesOfAll home tparameters nodes).map Diagnostic.unplaced
  | [] => rfl
  | n :: rest => by
    rw [List.map_cons, badReferencesOfAll, badReferencesOfAll, badReferences_unplaced n,
      badReferencesOfAll_unplaced rest, List.map_append]

/-- Those of what some holders hold. -/
lemma badReferencesOfHolders_unplaced : (holders : List Node) →
    badReferencesOfHolders home.unplaced (tparameters.map Tparameter.unplaced)
        (holders.map Node.unplaced) =
      (badReferencesOfHolders home tparameters holders).map Diagnostic.unplaced
  | [] => rfl
  | ⟨_, _, held, _⟩ :: rest => by
    rw [List.map_cons, Node.unplaced_eq, badReferencesOfHolders, badReferencesOfHolders,
      badReferencesOfAll_unplaced held, badReferencesOfHolders_unplaced rest, List.map_append]

end

end References

/-- **A template is checked in the same way without places.** -/
theorem allBadReferences_unplaced (t : Template) :
    t.unplaced.allBadReferences = t.allBadReferences.map Diagnostic.unplaced := by
  have defaults : ∀ p, badReferencesOfDefault t.home.unplaced p.unplaced =
      (badReferencesOfDefault t.home p).map Diagnostic.unplaced := by
    rintro ⟨name, span, _ | _ | default | default⟩
    · rfl
    · rfl
    · exact badReferences_unplaced t.home [] default
    · exact badReferencesOfAll_unplaced t.home [] default
  rw [allBadReferences, allBadReferences, home_unplaced, tparameters_unplaced, body_unplaced,
    badReferences_unplaced, List.map_append, List.flatMap_map, List.map_flatMap]
  simp only [defaults]

end Template

end Stencil
