import Mathlib.Data.List.Nodup
import Stencil.Proofs.Diagnostic.Fault
import Stencil.Proofs.Template.Forms

/-!
# Which calls are accepted

A call gives targuments by name, with its properties and its holders, and by place, with its bare
arguments.  `Template.Accepts` says without regard to the order of the passes what a call has to
give, and `Template.Supplies` what each tparameter then gets.

The passes of `Template.settlement` share the bindings made so far and a mark that nothing is wrong
yet.  Each pass is described by one equivalence, which says when it leaves the mark standing and
what it then adds to the bindings (`Settlement.Binds`).  Put together they say that a call is
accepted exactly if its frame can be made, and that the frame binds every tparameter to what the
call supplies for it (`bindCall_iff_accepts`).

A refused part does not stop the reading: the later passes still run, and report what they find.  So
the mark and the bindings have to be followed through all of them, and only at the end do they say
what the call was.  Names that are declared twice are excluded throughout, since a template with
such a declaration is never made.
-/

namespace Stencil

open Diagnostic

/-! ## What a call has to give -/

namespace TparameterForm

/-- Whether a child of a call has the shape of a holder for a tparameter of a form. -/
def Fits (form : TparameterForm) (holder : Node) : Prop :=
  match form with
  | .positional | .named _ => holder.children = [] ∧ ∃ e, holder.entries = [e] ∧ e.name = none
  | .node _ => holder.entries = [] ∧ ∃ child, holder.children = [child]
  | .splice _ => holder.entries = []

/-- What a holder of the right shape holds for a tparameter of a form, under the scope of the
call. -/
inductive Holds (s : Scope) (holder : Node) : TparameterForm → Binding → Prop
  | value {form : TparameterForm} {e : Entry} (takes : form.takesValue = true)
      (childless : holder.children = []) (sole : holder.entries = [e]) (bare : e.name = none) :
      Holds s holder form (.value (s.valueOf e.value).1)
  | node {default child : Node} (entryless : holder.entries = [])
      (sole : holder.children = [child]) : Holds s holder (.node default) (.node child s)
  | splice {default : List Node} (entryless : holder.entries = []) :
      Holds s holder (.splice default) (.splice holder.children s)

end TparameterForm

/-- The names under which a call gives targuments: those of its properties, then those of its
holders. -/
def Node.namesGiven (call : Node) : List String :=
  call.entries.filterMap (fun e => e.name.map Spanned.inner) ++
    call.children.map fun holder => holder.name.inner

namespace Template

/-- The tparameters that a call does not name, in the order of declaration. -/
def unnamed (t : Template) (call : Node) : List Tparameter :=
  t.tparameters.filter fun p => !call.namesGiven.contains p.name

/-- The calls that give a template what it asks for. -/
structure Accepts (t : Template) (call : Node) : Prop where
  /-- Every property names a tparameter that takes a value. -/
  properties : ∀ e ∈ call.entries, ∀ name, e.name = some name →
    ∃ p ∈ t.tparameters, p.name = name.inner ∧ p.form.takesValue = true
  /-- Every child names a tparameter and has the shape of a holder for it. -/
  holders : ∀ holder ∈ call.children,
    ∃ p ∈ t.tparameters, p.name = holder.name.inner ∧ p.form.Fits holder
  /-- No tparameter is named twice. -/
  once : call.namesGiven.Nodup
  /-- There are tparameters enough for the bare arguments. -/
  enough : call.arguments.length ≤ (t.unnamed call).length
  /-- The tparameters on which bare arguments land take values. -/
  values : ∀ p ∈ (t.unnamed call).take call.arguments.length, p.form.takesValue = true
  /-- The tparameters that are left have defaults. -/
  complete : ∀ p ∈ (t.unnamed call).drop call.arguments.length, p.form ≠ .positional

/-- What an accepted call supplies for a tparameter. -/
inductive Supplies (t : Template) (call : Node) (s : Scope) (p : Tparameter) : Binding → Prop
  | property {e : Entry} {name : Spanned String} (written : e ∈ call.entries)
      (property : e.name = some name) (named : name.inner = p.name) :
      Supplies t call s p (.value (s.valueOf e.value).1)
  | holder {holder : Node} {b : Binding} (written : holder ∈ call.children)
      (named : holder.name.inner = p.name) (holds : p.form.Holds s holder b) :
      Supplies t call s p b
  | argument {e : Entry} (paired : (p, e) ∈ (t.unnamed call).zip call.arguments) :
      Supplies t call s p (.value (s.valueOf e.value).1)
  | fallback {b : Binding} (left : p ∈ (t.unnamed call).drop call.arguments.length)
      (default : t.fallback? p = some b) : Supplies t call s p b

/-- The default of a tparameter, under its name. -/
def defaultPair? (t : Template) (p : Tparameter) : Option (String × Binding) :=
  (t.fallback? p).map fun b => (p.name, b)

/-! ## Settlements without a fault

Of a settlement two things matter here, whether the mark stands and what is bound.  What it reports
is left out: a call reports its problems whether its frame is made or not, and a value can be
reported although the call is accepted. -/

/-- A settlement that nothing is wrong with so far, and its bindings. -/
structure Settlement.Binds (a : Settlement) (m : Keyed Binding) : Prop where
  sound : a.sound = true
  bound : a.bound = m

/-- What an offer binds, if it is made. -/
def Offer.pair? : Offer → Option (String × Binding)
  | .refused _ => none
  | .made name b _ _ => some (name, b)

variable {t : Template} {call : Node} {s : Scope} {a : Settlement} {p : Tparameter} {b : Binding}
variable {m : Keyed Binding} {name : String}

lemma fallback?_eq_none_iff : t.fallback? p = none ↔ p.form = .positional := by
  unfold fallback?
  rcases p.form <;> simp

namespace Settlement

/-- Offers are taken if all are made and no two are for one tparameter. -/
lemma binds_foldl_settle_iff {template : String} {os : List Offer} (nodup : a.bound.names.Nodup) :
    (os.foldl (Settlement.settle template) a).Binds m ↔ a.sound = true ∧
      (∀ o ∈ os, o.pair?.isSome = true) ∧ m = a.bound ++ os.filterMap Offer.pair? ∧
      (Keyed.names m).Nodup := by
  induction os generalizing a with
  | nil =>
    constructor
    · rintro ⟨sound, rfl⟩
      exact ⟨sound, by simp, by simp, nodup⟩
    · rintro ⟨sound, _, rfl, _⟩
      exact ⟨sound, by simp⟩
  | cons o rest ih =>
    rw [List.foldl_cons]
    cases o with
    -- a refusal takes the mark away for good, and the right side asks for no refusals
    | refused problem =>
      refine (ih (a := a.refuse problem) nodup).trans (iff_of_false ?_ fun h => ?_)
      · exact fun h => Bool.false_ne_true h.1
      · exact Bool.false_ne_true (h.2.1 _ List.mem_cons_self)
    | made name b problems span =>
      have made : (Offer.made name b problems span :: rest).filterMap Offer.pair? =
          (name, b) :: rest.filterMap Offer.pair? := rfl
      rw [Settlement.settle, made]
      -- a made offer is refused after all if its name is bound already, and then the names of `m`
      -- repeat it
      by_cases known : a.bound.has name = true
      · rw [if_pos known]
        refine (ih (a := { a with problems := a.problems ++ problems }.refuse _) nodup).trans
          (iff_of_false ?_ ?_)
        · exact fun h => Bool.false_ne_true h.1
        rintro ⟨_, _, rfl, twice⟩
        rw [Keyed.names, List.map_append, List.nodup_append] at twice
        exact twice.2.2 name (Keyed.has_iff_mem_names.1 known) name List.mem_cons_self rfl
      · have fresh : (a.take name b problems).bound.names.Nodup := by
          rw [names_take, List.nodup_append]
          refine ⟨nodup, List.nodup_singleton name, fun other bound _ single same => known ?_⟩
          rw [← List.mem_singleton.1 single, ← same]
          exact Keyed.has_iff_mem_names.2 bound
        rw [if_neg known, ih fresh, List.forall_mem_cons]
        simp [Settlement.take, Offer.pair?]

/-- Bare arguments are taken if there are tparameters enough and those on which they land take
values.  They land on the tparameters in order, so what they bind is a zip. -/
lemma binds_fillOpen_iff {unfilled : List Tparameter} {entries : List Entry} :
    (fillOpen t s unfilled entries a).Binds m ↔ a.sound = true ∧
      entries.length ≤ unfilled.length ∧
      (∀ p ∈ unfilled.take entries.length, p.form.takesValue = true) ∧
      m = a.bound ++ (unfilled.zip entries).map fun pair =>
        (pair.1.name, .value (s.valueOf pair.2.value).1) := by
  induction entries generalizing unfilled a with
  | nil =>
    rw [fillOpen]
    constructor
    · rintro ⟨sound, rfl⟩
      exact ⟨sound, by simp, by simp, by simp⟩
    · rintro ⟨sound, _, _, rfl⟩
      exact ⟨sound, by simp⟩
  | cons e rest ih =>
    cases unfilled with
    | nil =>
      rw [fillOpen, ih]
      exact iff_of_false (fun h => Bool.false_ne_true h.1) fun h => Nat.not_succ_le_zero _ h.2.1
    | cons p others =>
      rw [fillOpen, ih]
      by_cases takes : p.form.takesValue = true
      · simp [takes, Settlement.take]
      · rw [if_neg takes]
        refine iff_of_false (fun h => Bool.false_ne_true h.1) fun h => takes (h.2.2.1 p ?_)
        exact List.mem_cons_self

/-- Taking a binding under one name leaves the others as they are. -/
lemma names_take_of_ne {other : String} {problems : List Diagnostic} (ne : other ≠ name) :
    (a.take name b problems).bound.has other = a.bound.has other := by
  rw [Bool.eq_iff_iff, Keyed.has_iff_mem_names, Keyed.has_iff_mem_names, names_take]
  simp [ne]

/-- A default is taken under the name of its tparameter if this is not bound. -/
lemma fillDefault_of_fallback (call : Node) (fresh : a.bound.has p.name = false)
    (default : t.fallback? p = some b) :
    ∃ problems, t.fillDefault call a p = a.take p.name b problems := by
  revert default
  rw [fallback?, fillDefault, fresh]
  cases p.form with
  | positional =>
    intro none
    cases none
  | named | node | splice =>
    intro default
    obtain rfl := Option.some.inj default
    exact ⟨_, rfl⟩

/-- A tparameter without a default that is not bound is refused. -/
lemma fillDefault_of_positional (t : Template) (call : Node) (fresh : a.bound.has p.name = false)
    (form : p.form = .positional) :
    ∃ problem, t.fillDefault call a p = a.refuse problem := by
  rw [fillDefault, fresh, form]
  exact ⟨_, rfl⟩

/-- Defaults are taken if the tparameters that are not bound have them. -/
lemma binds_foldl_fillDefault_iff {tparameters : List Tparameter}
    (distinct : (tparameters.map Tparameter.name).Nodup) :
    (tparameters.foldl (t.fillDefault call) a).Binds m ↔ a.sound = true ∧
      (∀ p ∈ tparameters, a.bound.has p.name = false → p.form ≠ .positional) ∧
      m = a.bound ++
        (tparameters.filter fun p => !a.bound.has p.name).filterMap t.defaultPair? := by
  induction tparameters generalizing a with
  | nil =>
    constructor
    · rintro ⟨sound, rfl⟩
      exact ⟨sound, by simp, by simp⟩
    · rintro ⟨sound, _, rfl⟩
      exact ⟨sound, by simp⟩
  | cons p rest ih =>
    -- the bindings grow on the way, but only under names that the tparameters still to come do not
    -- have, so what is missing of these can be read off the bindings at the start
    obtain ⟨alone, distinct⟩ := List.nodup_cons.1 distinct
    rw [List.foldl_cons, List.forall_mem_cons, List.filter_cons]
    rcases known : a.bound.has p.name with _ | _
    · rcases default : t.fallback? p with _ | b
      · have form := fallback?_eq_none_iff.1 default
        obtain ⟨problem, refused⟩ := fillDefault_of_positional t call known form
        rw [refused]
        refine (ih distinct).trans (iff_of_false (fun h => Bool.false_ne_true h.1) ?_)
        exact fun h => h.2.1.1 rfl form
      · obtain ⟨problems, taken⟩ := fillDefault_of_fallback call known default
        have others : ∀ q ∈ rest,
            (a.take p.name b problems).bound.has q.name = a.bound.has q.name := fun q hq =>
          names_take_of_ne fun same => alone (List.mem_map.2 ⟨q, hq, same⟩)
        have form : p.form ≠ .positional := fun form => by
          rw [fallback?_eq_none_iff.2 form] at default
          cases default
        rw [taken, ih distinct, List.filter_congr fun q hq => congrArg not (others q hq)]
        have paired : t.defaultPair? p = some (p.name, b) := by
          rw [defaultPair?, default]
          rfl
        refine and_congr Iff.rfl (and_congr ?_ ?_)
        · rw [and_iff_right fun _ => form]
          exact forall₂_congr fun q hq => by rw [others q hq]
        · rw [if_pos (Bool.not_false), List.filterMap_cons, paired]
          simp [Settlement.take]
    · have kept : t.fillDefault call a p = a := if_pos known
      rw [kept, ih distinct]
      simp

end Settlement

/-! ## Targuments given by name

Properties and holders make offers under the name of the tparameter that they find.  An offer can be
made if and only if the entry or the holder has what `Accepts` asks of it, whatever else the call
gives. -/

lemma tparameter?_eq_some_iff (distinct : (t.tparameters.map Tparameter.name).Nodup) :
    t.tparameter? name = some p ↔ p ∈ t.tparameters ∧ p.name = name := by
  refine ⟨of_tparameter?, ?_⟩
  rintro ⟨declared, rfl⟩
  rcases found : t.tparameter? p.name with _ | q
  · exact absurd (List.mem_map_of_mem declared) (tparameter?_eq_none_iff.1 found)
  · obtain ⟨declared', same⟩ := of_tparameter? found
    rw [List.inj_on_of_nodup_map distinct declared' declared same]

/-- What is held for a tparameter is what the rule says, whatever is reported about it. -/
lemma exists_held?_iff {form : TparameterForm} {holder : Node} :
    (∃ problems, held? s form holder = some (b, problems)) ↔ form.Holds s holder b := by
  constructor
  · rintro ⟨problems, held⟩
    rw [held?.eq_def] at held
    split at held
    -- the two forms that take a value ask for the same shape
    iterate 2
      split at held
      · next entries childless =>
        obtain ⟨rfl, _⟩ := Prod.mk.inj (Option.some.inj held)
        exact .value rfl childless entries rfl
      · cases held
    · split at held
      · next entryless children =>
        obtain ⟨rfl, _⟩ := Prod.mk.inj (Option.some.inj held)
        exact .node entryless children
      · cases held
    · split at held
      · next entryless =>
        obtain ⟨rfl, _⟩ := Prod.mk.inj (Option.some.inj held)
        exact .splice entryless
      · cases held
  · intro holds
    cases holds with
    | @value _ e takes childless sole bare =>
      obtain ⟨_, value, place⟩ := e
      obtain rfl := bare
      cases form with
      | positional | named => exact ⟨_, by rw [held?, sole, childless]⟩
      | node | splice => cases takes
    | node entryless sole => exact ⟨_, by rw [held?, entryless, sole]⟩
    | splice entryless => exact ⟨_, by rw [held?, entryless]⟩

/-- A holder has the right shape if it holds something. -/
lemma fits_iff_exists_holds {form : TparameterForm} {holder : Node} :
    form.Fits holder ↔ ∃ b, form.Holds s holder b := by
  constructor
  · intro fits
    cases form with
    | positional | named =>
      obtain ⟨childless, e, sole, bare⟩ := fits
      exact ⟨_, .value rfl childless sole bare⟩
    | node =>
      obtain ⟨entryless, child, sole⟩ := fits
      exact ⟨_, .node entryless sole⟩
    | splice => exact ⟨_, .splice fits⟩
  · rintro ⟨b, holds⟩
    cases holds with
    | @value _ e takes childless sole bare =>
      cases form with
      | positional | named => exact ⟨childless, e, sole, bare⟩
      | node | splice => cases takes
    | node entryless sole => exact ⟨entryless, _, sole⟩
    | splice entryless => exact entryless

/-- The offer of a property is made if it names a tparameter that takes a value. -/
lemma pair?_offerOfEntry?_iff {e : Entry} {pair : String × Binding} :
    (t.offerOfEntry? s e).bind Offer.pair? = some pair ↔
      ∃ n p, e.name = some n ∧ t.tparameter? n.inner = some p ∧ p.form.takesValue = true ∧
        pair = (p.name, .value (s.valueOf e.value).1) := by
  unfold offerOfEntry?
  constructor
  · intro made
    split at made
    · cases made
    · next n property =>
      rw [Option.bind_some] at made
      split at made
      · cases made
      · next p found =>
        split at made
        · next takes => exact ⟨n, p, property, found, takes, (Option.some.inj made).symm⟩
        · cases made
  · rintro ⟨n, p, property, found, takes, rfl⟩
    simp [property, found, takes, Offer.pair?]

/-- The offer of a holder is made if it names a tparameter and has the shape for it. -/
lemma pair?_offerOfHolder_iff {holder : Node} {pair : String × Binding} :
    (t.offerOfHolder s holder).pair? = some pair ↔
      ∃ p b, t.tparameter? holder.name.inner = some p ∧ p.form.Holds s holder b ∧
        pair = (p.name, b) := by
  unfold offerOfHolder
  constructor
  · intro made
    split at made
    · cases made
    · next p found =>
      split at made
      · next b problems held =>
        exact ⟨p, b, found, exists_held?_iff.1 ⟨problems, held⟩, (Option.some.inj made).symm⟩
      · cases made
  · rintro ⟨p, b, found, holds, rfl⟩
    obtain ⟨problems, held⟩ := exists_held?_iff.2 holds
    simp [found, held, Offer.pair?]

/-- A bare argument makes no offer. -/
lemma offerOfEntry?_eq_none_iff {e : Entry} : t.offerOfEntry? s e = none ↔ e.name = none := by
  unfold offerOfEntry?
  rcases e.name <;> simp

/-- The offer of an entry, if there is one, is made if the entry is bare or names a tparameter that
takes a value. -/
lemma exists_pair?_offerOfEntry?_iff (distinct : (t.tparameters.map Tparameter.name).Nodup)
    {e : Entry} : (∀ o, t.offerOfEntry? s e = some o → o.pair?.isSome = true) ↔
      ∀ n, e.name = some n → ∃ p ∈ t.tparameters, p.name = n.inner ∧ p.form.takesValue = true := by
  constructor
  · intro made n property
    -- an entry without an offer is a bare argument, which names nothing
    rcases offer : t.offerOfEntry? s e with _ | o
    · rw [offerOfEntry?_eq_none_iff.1 offer] at property
      cases property
    · obtain ⟨pair, made⟩ := Option.isSome_iff_exists.1 (made o offer)
      rw [← Option.bind_some (f := Offer.pair?), ← offer] at made
      obtain ⟨n', p, property', found, takes, _⟩ := pair?_offerOfEntry?_iff.1 made
      obtain rfl := Option.some.inj (property.symm.trans property')
      obtain ⟨declared, named⟩ := of_tparameter? found
      exact ⟨p, declared, named, takes⟩
  · intro properties o offer
    rcases property : e.name with _ | n
    · rw [offerOfEntry?_eq_none_iff.2 property] at offer
      cases offer
    · obtain ⟨p, declared, named, takes⟩ := properties n property
      have found := (tparameter?_eq_some_iff distinct).2 ⟨declared, named⟩
      have made := (pair?_offerOfEntry?_iff (s := s)).2 ⟨n, p, property, found, takes, rfl⟩
      rw [offer, Option.bind_some] at made
      rw [made]
      rfl

/-- The offer of a holder is made if the holder has the shape for the tparameter that it names. -/
lemma exists_pair?_offerOfHolder_iff (distinct : (t.tparameters.map Tparameter.name).Nodup)
    {holder : Node} : (t.offerOfHolder s holder).pair?.isSome = true ↔
      ∃ p ∈ t.tparameters, p.name = holder.name.inner ∧ p.form.Fits holder := by
  constructor
  · intro made
    obtain ⟨pair, made⟩ := Option.isSome_iff_exists.1 made
    obtain ⟨p, b, found, holds, _⟩ := pair?_offerOfHolder_iff.1 made
    obtain ⟨declared, named⟩ := of_tparameter? found
    exact ⟨p, declared, named, fits_iff_exists_holds.2 ⟨b, holds⟩⟩
  · rintro ⟨p, declared, named, fits⟩
    obtain ⟨b, holds⟩ := (fits_iff_exists_holds (s := s)).1 fits
    have found := (tparameter?_eq_some_iff distinct).2 ⟨declared, named⟩
    exact Option.isSome_iff_exists.2 ⟨_, pair?_offerOfHolder_iff.2 ⟨p, b, found, holds, rfl⟩⟩

/-- All offers are made if every property names a tparameter that takes a value and every child has
the shape of a holder for the one it names. -/
lemma isSome_offers_iff (distinct : (t.tparameters.map Tparameter.name).Nodup) :
    (∀ o ∈ t.offers call s, o.pair?.isSome = true) ↔
      (∀ e ∈ call.entries, ∀ name, e.name = some name →
        ∃ p ∈ t.tparameters, p.name = name.inner ∧ p.form.takesValue = true) ∧
      ∀ holder ∈ call.children,
        ∃ p ∈ t.tparameters, p.name = holder.name.inner ∧ p.form.Fits holder := by
  rw [offers, List.forall_mem_append, List.forall_mem_map]
  refine and_congr ?_ (forall₂_congr fun holder _ => exists_pair?_offerOfHolder_iff distinct)
  constructor
  · intro made e he
    refine (exists_pair?_offerOfEntry?_iff (s := s) distinct).1 fun o offer => made o ?_
    exact List.mem_filterMap.2 ⟨e, he, offer⟩
  · intro properties o ho
    obtain ⟨e, he, offer⟩ := List.mem_filterMap.1 ho
    exact (exists_pair?_offerOfEntry?_iff distinct).2 (properties e he) o offer

/-- What a call gives by name. -/
def givenByName (t : Template) (call : Node) (s : Scope) : Keyed Binding :=
  (t.offers call s).filterMap Offer.pair?

/-- What is given by name comes from a property or from a holder. -/
lemma mem_givenByName_iff {pair : String × Binding} : pair ∈ t.givenByName call s ↔
    (∃ e ∈ call.entries, (t.offerOfEntry? s e).bind Offer.pair? = some pair) ∨
      ∃ holder ∈ call.children, (t.offerOfHolder s holder).pair? = some pair := by
  rw [givenByName, offers, List.filterMap_append, List.filterMap_filterMap, List.filterMap_map,
    List.mem_append, List.mem_filterMap, List.mem_filterMap]
  rfl

/-- What is given by name is given under the names that the call writes. -/
lemma names_givenByName (made : ∀ o ∈ t.offers call s, o.pair?.isSome = true) :
    (t.givenByName call s).names = call.namesGiven := by
  rw [offers, List.forall_mem_append, List.forall_mem_map] at made
  rw [givenByName, offers, List.filterMap_append, List.filterMap_filterMap, List.filterMap_map,
    Keyed.names, List.map_append, List.map_filterMap, List.map_filterMap, Node.namesGiven,
    ← List.filterMap_eq_map]
  -- properties first, then holders: each is offered under the name of the tparameter that it
  -- finds, which is the name that the call writes
  congr 1
  · refine List.filterMap_congr fun e he => ?_
    rcases offer : t.offerOfEntry? s e with _ | o
    · rw [offerOfEntry?_eq_none_iff.1 offer]
      rfl
    · obtain ⟨pair, paired⟩ := Option.isSome_iff_exists.1
        (made.1 o (List.mem_filterMap.2 ⟨e, he, offer⟩))
      rw [Option.bind_some, paired]
      rw [← Option.bind_some (f := Offer.pair?), ← offer] at paired
      obtain ⟨n, p, property, found, _, rfl⟩ := pair?_offerOfEntry?_iff.1 paired
      rw [property, Option.map_some, Option.map_some, (of_tparameter? found).2]
  · refine List.filterMap_congr fun holder hh => ?_
    obtain ⟨pair, paired⟩ := Option.isSome_iff_exists.1 (made.2 holder hh)
    obtain ⟨p, b, found, _, rfl⟩ := pair?_offerOfHolder_iff.1 paired
    rw [Function.comp_apply, paired, Option.map_some, (of_tparameter? found).2]
    rfl

/-! ## Targuments given by place, and defaults

Which tparameters the bare arguments land on is settled by the names that the call gives, so what is
given by place and what is left to the defaults can be stated of the call itself, without a
settlement. -/

/-- What a call gives by place. -/
def givenByPlace (t : Template) (call : Node) (s : Scope) : Keyed Binding :=
  ((t.unnamed call).zip call.arguments).map fun pair =>
    (pair.1.name, .value (s.valueOf pair.2.value).1)

/-- What a call leaves to the defaults. -/
def givenByDefault (t : Template) (call : Node) : Keyed Binding :=
  ((t.unnamed call).drop call.arguments.length).filterMap t.defaultPair?

/-- What is given by place is given to the first tparameters that the call does not name. -/
lemma names_givenByPlace (enough : call.arguments.length ≤ (t.unnamed call).length) :
    (t.givenByPlace call s).names =
      ((t.unnamed call).take call.arguments.length).map Tparameter.name := by
  have first : ((t.unnamed call).zip call.arguments).map Prod.fst =
      (t.unnamed call).take call.arguments.length := by
    rw [List.zip_eq_zip_take_min, Nat.min_eq_right enough, List.take_length]
    exact List.map_fst_zip (List.length_take_le _ _)
  rw [givenByPlace, Keyed.names, ← first, List.map_map, List.map_map]
  rfl

/-- The defaults that there are stand in the order of declaration. -/
lemma names_givenByDefault_sublist :
    (t.givenByDefault call).names.Sublist
      (((t.unnamed call).drop call.arguments.length).map Tparameter.name) := by
  unfold givenByDefault
  generalize (t.unnamed call).drop call.arguments.length = left
  induction left with
  | nil => exact .slnil
  | cons p rest ih =>
    rcases default : t.fallback? p with _ | b
    · have none : t.defaultPair? p = none := by
        rw [defaultPair?, default]
        rfl
      rw [List.filterMap_cons_none none]
      exact ih.cons _
    · have paired : t.defaultPair? p = some (p.name, b) := by
        rw [defaultPair?, default]
        rfl
      rw [List.filterMap_cons_some paired]
      exact ih.cons_cons _

/-- What comes after the first tparameters is what is not named as they are. -/
lemma filter_take_eq_drop {tparameters : List Tparameter}
    (distinct : (tparameters.map Tparameter.name).Nodup) (k : Nat) :
    (tparameters.filter fun p => !((tparameters.take k).map Tparameter.name).contains p.name) =
      tparameters.drop k := by
  have parts := distinct
  rw [← List.take_append_drop k tparameters, List.map_append, List.nodup_append] at parts
  -- of the two parts of the list the filter keeps nothing of the first, and all of the second
  -- because the names are distinct
  have taken : ∀ p ∈ tparameters.take k,
      ¬(!((tparameters.take k).map Tparameter.name).contains p.name) = true := by
    intro p hp
    rw [Bool.not_eq_true', List.contains_eq_mem, decide_eq_false_iff_not, not_not]
    exact List.mem_map_of_mem hp
  have left : ∀ p ∈ tparameters.drop k,
      (!((tparameters.take k).map Tparameter.name).contains p.name) = true := by
    intro p hp
    rw [Bool.not_eq_true', List.contains_eq_mem, decide_eq_false_iff_not]
    exact fun mem => parts.2.2 _ mem _ (List.mem_map_of_mem hp) rfl
  have split := List.filter_append
    (p := fun p => !((tparameters.take k).map Tparameter.name).contains p.name)
    (tparameters.take k) (tparameters.drop k)
  rw [List.take_append_drop, List.filter_eq_nil_iff.2 taken, List.filter_eq_self.2 left,
    List.nil_append] at split
  exact split

lemma distinct_unnamed (distinct : (t.tparameters.map Tparameter.name).Nodup) :
    ((t.unnamed call).map Tparameter.name).Nodup :=
  distinct.sublist (List.filter_sublist.map _)

/-- The tparameters that are open after the first pass are those that the call does not name. -/
lemma openTparameters_of_names (names : a.bound.names = call.namesGiven) :
    t.openTparameters a = t.unnamed call := by
  refine List.filter_congr fun p _ => ?_
  rw [Bool.eq_iff_iff]
  simp [Keyed.has_iff_mem_names, names, ← Bool.not_eq_true]

/-! ## The passes together

The conditions are put together pass by pass.  Each of them is about what the passes before it have
bound, and is traded for a condition on the call as soon as these are known to have bound what the
call gives. -/

/-- The first pass makes no fault if all offers are made and no name is given twice. -/
lemma binds_named_iff :
    ((t.offers call s).foldl (Settlement.settle t.name) .empty).Binds m ↔
      (∀ o ∈ t.offers call s, o.pair?.isSome = true) ∧ call.namesGiven.Nodup ∧
        m = t.givenByName call s := by
  refine (Settlement.binds_foldl_settle_iff (a := .empty) List.nodup_nil).trans ?_
  constructor
  · rintro ⟨_, made, rfl, once⟩
    have names := names_givenByName made
    exact ⟨made, names ▸ once, rfl⟩
  · rintro ⟨made, once, rfl⟩
    exact ⟨rfl, made, rfl, by rwa [names_givenByName made]⟩

/-- What a call gives makes no fault if the call names what there is, in the right shape, and only
once, and if its bare arguments land on tparameters that take values. -/
lemma binds_given_iff : (t.given call s).Binds m ↔
    ((∀ o ∈ t.offers call s, o.pair?.isSome = true) ∧ call.namesGiven.Nodup ∧
      call.arguments.length ≤ (t.unnamed call).length ∧
      ∀ p ∈ (t.unnamed call).take call.arguments.length, p.form.takesValue = true) ∧
    m = t.givenByName call s ++ t.givenByPlace call s := by
  rw [given, Settlement.binds_fillOpen_iff]
  constructor
  · rintro ⟨sound, enough, values, rfl⟩
    obtain ⟨made, once, bound⟩ := binds_named_iff.1 ⟨sound, rfl⟩
    have names := openTparameters_of_names (t := t) (bound ▸ names_givenByName made)
    rw [names] at enough values ⊢
    exact ⟨⟨made, once, enough, values⟩, by rw [bound]; rfl⟩
  · rintro ⟨⟨made, once, enough, values⟩, rfl⟩
    obtain ⟨sound, bound⟩ := binds_named_iff.2 ⟨made, once, rfl⟩
    have names := openTparameters_of_names (t := t) (bound ▸ names_givenByName made)
    rw [names, bound]
    exact ⟨sound, enough, values, rfl⟩

/-- What the call names and what its bare arguments land on is bound before the defaults. -/
lemma filter_given_eq_drop (distinct : (t.tparameters.map Tparameter.name).Nodup)
    (made : ∀ o ∈ t.offers call s, o.pair?.isSome = true)
    (enough : call.arguments.length ≤ (t.unnamed call).length) :
    (t.tparameters.filter fun p =>
        !Keyed.has (t.givenByName call s ++ t.givenByPlace call s) p.name) =
      (t.unnamed call).drop call.arguments.length := by
  have names : Keyed.names (t.givenByName call s ++ t.givenByPlace call s) = call.namesGiven ++
      ((t.unnamed call).take call.arguments.length).map Tparameter.name := by
    rw [← names_givenByName made, ← names_givenByPlace (s := s) enough]
    exact List.map_append
  have bound : ∀ p : Tparameter,
      (!Keyed.has (t.givenByName call s ++ t.givenByPlace call s) p.name) =
        (!(((t.unnamed call).take call.arguments.length).map Tparameter.name).contains p.name &&
          !call.namesGiven.contains p.name) := by
    intro p
    rw [← Bool.not_or, Bool.not_inj_iff, Bool.eq_iff_iff, Keyed.has_iff_mem_names, names,
      List.mem_append, Bool.or_eq_true, List.contains_iff_mem, List.contains_iff_mem, or_comm]
  simp only [bound]
  rw [← List.filter_filter]
  exact filter_take_eq_drop (distinct_unnamed distinct) _

/-- **The passes make no fault exactly if the call is accepted**, and then they bind what it gives
by name, what it gives by place, and the defaults. -/
theorem binds_settlement_iff (distinct : (t.tparameters.map Tparameter.name).Nodup) :
    (t.settlement call s).Binds m ↔ t.Accepts call ∧
      m = t.givenByName call s ++ t.givenByPlace call s ++ t.givenByDefault call := by
  rw [settlement_eq, Settlement.binds_foldl_fillDefault_iff distinct]
  constructor
  · rintro ⟨sound, complete, rfl⟩
    obtain ⟨⟨made, once, enough, values⟩, bound⟩ := binds_given_iff.1 ⟨sound, rfl⟩
    -- what is not bound after the first two passes is what the bare arguments left over
    have left := filter_given_eq_drop distinct made enough
    rw [bound] at complete ⊢
    rw [left]
    obtain ⟨properties, holders⟩ := (isSome_offers_iff distinct).1 made
    refine ⟨⟨properties, holders, once, enough, values, fun p hp => ?_⟩, rfl⟩
    rw [← left, List.mem_filter, Bool.not_eq_true'] at hp
    exact complete p hp.1 hp.2
  · rintro ⟨⟨properties, holders, once, enough, values, complete⟩, rfl⟩
    have made := (isSome_offers_iff (s := s) distinct).2 ⟨properties, holders⟩
    obtain ⟨sound, bound⟩ := binds_given_iff.2 ⟨⟨made, once, enough, values⟩, rfl⟩
    have left := filter_given_eq_drop distinct made enough
    rw [bound, left]
    refine ⟨sound, fun p declared fresh => complete p ?_, rfl⟩
    rw [← left, List.mem_filter, Bool.not_eq_true']
    exact ⟨declared, fresh⟩

/-! ## What a call supplies

The three parts of the bindings against the four ways to be supplied.  Properties and holders are
two of these ways and share the first part. -/

section Supplies

variable (distinct : (t.tparameters.map Tparameter.name).Nodup)
include distinct

/-- A tparameter is determined by its name. -/
lemma eq_of_name_eq {q : Tparameter} (hp : p ∈ t.tparameters) (hq : q ∈ t.tparameters)
    (same : q.name = p.name) : q = p :=
  List.inj_on_of_nodup_map distinct hq hp same

lemma supplies_of_mem_givenByName (declared : p ∈ t.tparameters)
    (given : (p.name, b) ∈ t.givenByName call s) : t.Supplies call s p b := by
  rcases mem_givenByName_iff.1 given with ⟨e, he, made⟩ | ⟨holder, hh, made⟩
  · obtain ⟨n, q, property, found, _, same⟩ := pair?_offerOfEntry?_iff.1 made
    obtain ⟨name, rfl⟩ := Prod.mk.inj same
    exact .property he property ((of_tparameter? found).2.symm.trans name.symm)
  · obtain ⟨q, _, found, holds, same⟩ := pair?_offerOfHolder_iff.1 made
    obtain ⟨name, rfl⟩ := Prod.mk.inj same
    obtain ⟨declared', named⟩ := of_tparameter? found
    obtain rfl := eq_of_name_eq distinct declared declared' name.symm
    exact .holder hh named.symm holds

lemma supplies_of_mem_givenByPlace (declared : p ∈ t.tparameters)
    (given : (p.name, b) ∈ t.givenByPlace call s) : t.Supplies call s p b := by
  obtain ⟨⟨q, e⟩, paired, same⟩ := List.mem_map.1 given
  obtain ⟨name, rfl⟩ := Prod.mk.inj same
  have declared' : q ∈ t.tparameters := (List.mem_filter.1 (List.of_mem_zip paired).1).1
  obtain rfl := eq_of_name_eq distinct declared declared' name
  exact .argument paired

lemma supplies_of_mem_givenByDefault (declared : p ∈ t.tparameters)
    (given : (p.name, b) ∈ t.givenByDefault call) : t.Supplies call s p b := by
  obtain ⟨q, left, paired⟩ := List.mem_filterMap.1 given
  obtain ⟨_, default, same⟩ := Option.map_eq_some_iff.1 paired
  obtain ⟨name, rfl⟩ := Prod.mk.inj same
  have declared' : q ∈ t.tparameters := (List.mem_filter.1 (List.mem_of_mem_drop left)).1
  obtain rfl := eq_of_name_eq distinct declared declared' name
  exact .fallback left default

/-- What the passes bind a tparameter to is what an accepted call supplies for it. -/
lemma mem_given_iff_supplies (accepts : t.Accepts call) (declared : p ∈ t.tparameters) :
    (p.name, b) ∈ t.givenByName call s ++ t.givenByPlace call s ++ t.givenByDefault call ↔
      t.Supplies call s p b := by
  rw [List.mem_append, List.mem_append]
  constructor
  · rintro ((given | given) | given)
    · exact supplies_of_mem_givenByName distinct declared given
    · exact supplies_of_mem_givenByPlace distinct declared given
    · exact supplies_of_mem_givenByDefault distinct declared given
  · -- for each way to be supplied there is one part of the bindings in which it shows
    intro supplies
    cases supplies with
    | @property e n written property named =>
      obtain ⟨q, declared', name, takes⟩ := accepts.properties e written n property
      obtain rfl := eq_of_name_eq distinct declared declared' (name.trans named)
      have found := (tparameter?_eq_some_iff distinct).2 ⟨declared', name⟩
      exact .inl (.inl (mem_givenByName_iff.2
        (.inl ⟨e, written, pair?_offerOfEntry?_iff.2 ⟨n, q, property, found, takes, rfl⟩⟩)))
    | holder written named holds =>
      have found := (tparameter?_eq_some_iff distinct).2 ⟨declared, named.symm⟩
      exact .inl (.inl (mem_givenByName_iff.2
        (.inr ⟨_, written, pair?_offerOfHolder_iff.2 ⟨p, b, found, holds, rfl⟩⟩)))
    | argument paired => exact .inl (.inr (List.mem_map.2 ⟨_, paired, rfl⟩))
    | fallback left default =>
      exact .inr (List.mem_filterMap.2 ⟨p, left, by rw [defaultPair?, default]; rfl⟩)

/-- The passes bind no tparameter twice. -/
lemma nodup_names_given (accepts : t.Accepts call) :
    (Keyed.names (t.givenByName call s ++ t.givenByPlace call s ++
      t.givenByDefault call)).Nodup := by
  have made := (isSome_offers_iff (s := s) distinct).2 ⟨accepts.properties, accepts.holders⟩
  have placed := names_givenByPlace (s := s) accepts.enough
  -- by place and by default only tparameters are bound that the call does not name, and each of
  -- them at most once
  have others : ((t.givenByPlace call s).names ++ (t.givenByDefault call).names).Sublist
      ((t.unnamed call).map Tparameter.name) := by
    have whole := List.take_append_drop call.arguments.length (t.unnamed call)
    rw [placed]
    conv_rhs => rw [← whole, List.map_append]
    exact (List.Sublist.refl _).append names_givenByDefault_sublist
  have names : Keyed.names (t.givenByName call s ++ t.givenByPlace call s ++
      t.givenByDefault call) = call.namesGiven ++
        ((t.givenByPlace call s).names ++ (t.givenByDefault call).names) := by
    rw [← names_givenByName made, List.append_assoc]
    simp only [Keyed.names, List.map_append]
  rw [names, List.nodup_append]
  refine ⟨accepts.once, (distinct_unnamed distinct).sublist others, ?_⟩
  rintro name given other mem rfl
  obtain ⟨p, hp, rfl⟩ := List.mem_map.1 (others.subset mem)
  have fresh := (List.mem_filter.1 hp).2
  rw [Bool.not_eq_true', List.contains_eq_mem, decide_eq_false_iff_not] at fresh
  exact fresh given

end Supplies

/-! ## The frame -/

/-- Elements that all have an image are related to their images one by one. -/
lemma forall₂_filterMap {α β : Type} {R : α → β → Prop} {f : α → Option β} {xs : List α}
    (h : ∀ x ∈ xs, ∃ y, f x = some y ∧ R x y) : List.Forall₂ R xs (xs.filterMap f) := by
  induction xs with
  | nil => exact .nil
  | cons x rest ih =>
    obtain ⟨y, found, related⟩ := h x List.mem_cons_self
    rw [List.filterMap_cons_some found]
    exact .cons related (ih fun x hx => h x (List.mem_cons_of_mem _ hx))

/-- The frame is made just if the mark stands. -/
lemma isSome_bindCall_iff :
    (t.bindCall call s).1.isSome = true ↔ (t.settlement call s).sound = true := by
  rw [bindCall]
  dsimp only
  split <;> simp [*]

section Distinct

variable (distinct : (t.tparameters.map Tparameter.name).Nodup)
include distinct

/-- The mark stands just if the call is accepted. -/
lemma sound_settlement_iff : (t.settlement call s).sound = true ↔ t.Accepts call :=
  ⟨fun sound => ((binds_settlement_iff distinct).1 ⟨sound, rfl⟩).1,
    fun accepts => ((binds_settlement_iff distinct).2 ⟨accepts, rfl⟩).sound⟩

/-- A tparameter is bound to what the call supplies for it, and to nothing else. -/
lemma get?_settlement_iff (sound : (t.settlement call s).sound = true)
    (declared : p ∈ t.tparameters) :
    (t.settlement call s).bound.get? p.name = some b ↔ t.Supplies call s p b := by
  obtain ⟨accepts, bound⟩ := (binds_settlement_iff distinct).1 ⟨sound, rfl⟩
  rw [bound, Keyed.get?_eq_some_iff (nodup_names_given distinct accepts)]
  exact mem_given_iff_supplies distinct accepts declared

/-- What a tparameter is bound to is of the kind that its form takes. -/
lemma takes_of_get?_settlement (declared : p ∈ t.tparameters)
    (found : (t.settlement call s).bound.get? p.name = some b) : p.form.Takes b := by
  obtain ⟨q, declared', same, takes⟩ := fits_settlement.bound _ (Keyed.mem_of_get? found)
  obtain rfl := eq_of_name_eq distinct declared declared' same
  exact takes

end Distinct

/-- **A call is bound by its rule.**  For a template whose tparameters have names of their own, the
frame of a call can be made if and only if the call is accepted.  The frame is then pushed on the
template's home and binds each tparameter once, in the order of declaration, to a binding of the
kind that its form takes, and that binding is the one that the call supplies.  A call whose frame
cannot be made is reported by an error. -/
theorem bindCall_iff_accepts (t : Template) (distinct : (t.tparameters.map Tparameter.name).Nodup)
    (call : Node) (s : Scope) :
    ((t.bindCall call s).1.isSome = true ↔ t.Accepts call) ∧
    (∀ frame, (t.bindCall call s).1 = some frame → ∃ bs : List (String × Binding),
      frame = t.home.extend bs .call ∧
      List.Forall₂ (fun p pair => pair.1 = p.name ∧ p.form.Takes pair.2 ∧
        ∀ b, t.Supplies call s p b ↔ b = pair.2) t.tparameters bs) ∧
    ((t.bindCall call s).1 = none → ∃ d ∈ (t.bindCall call s).2, d.isError = true) := by
  refine ⟨isSome_bindCall_iff.trans (sound_settlement_iff distinct), fun frame made => ?_,
    fun refused => ?_⟩
  · -- the frame lists the tparameters in the order of declaration, whatever the order in which the
    -- passes bound them
    have sound := isSome_bindCall_iff.1 (Option.isSome_of_mem made)
    rw [bindCall, if_pos sound] at made
    refine ⟨_, (Option.some.inj made).symm, forall₂_filterMap fun p declared => ?_⟩
    obtain ⟨b, found⟩ := Option.isSome_iff_exists.1
      (Keyed.has_iff_mem_names.2 (mem_names_settlement sound declared))
    refine ⟨(p.name, b), by rw [found]; rfl, rfl,
      takes_of_get?_settlement distinct declared found, ?_⟩
    intro b'
    rw [← get?_settlement_iff distinct sound declared, found, Option.some.injEq, eq_comm]
  · have faults := ne_nil_of_bindCall_eq_none (Prod.ext refused rfl)
    obtain ⟨d, hd⟩ := List.exists_mem_of_ne_nil _ faults
    exact ⟨d, hd, (areOwnFaults_bindCall t call s d hd).1.isError⟩

/-- A template with tparameters of three forms. -/
def panel : Template where
  name := "panel"
  tparameters := [⟨"title", .none, .positional⟩, ⟨"width", .none, .positional⟩,
    ⟨"icon", .none, .node (.bare "dot" [])⟩, ⟨"rows", .none, .splice []⟩]
  body := .bare "frame" [.naming "text" "title", .bare "icon" [], .naming expandWord "rows"]
  home := .root
  style := .positional
  span := .none

/-- A call that gives the width by a property, the rows by a holder and the title by place, and
leaves the icon to its default. -/
def panelCall : Node where
  name := ⟨"panel", .none⟩
  entries := [⟨none, ⟨.string "Rows", .none⟩, .none⟩,
    ⟨some ⟨"width", .none⟩, ⟨.string "wide", .none⟩, .none⟩]
  children := [.bare "rows" [.bare "line" [], .bare "line" []]]
  span := .none

/-- The panel is called with a title, a width and rows. -/
theorem panel_call_is_accepted : (panel.tparameters.map Tparameter.name).Nodup ∧
    panel.Accepts panelCall ∧ ∃ frame bs, (panel.bindCall panelCall .root).1 = some frame ∧
      frame = panel.home.extend bs .call ∧
      List.Forall₂ (fun p pair => pair.1 = p.name ∧ p.form.Takes pair.2 ∧
        ∀ b, panel.Supplies panelCall .root p b ↔ b = pair.2) panel.tparameters bs := by
  have distinct : (panel.tparameters.map Tparameter.name).Nodup := by decide
  obtain ⟨accepted, frames, _⟩ := bindCall_iff_accepts panel distinct panelCall .root
  obtain ⟨bs, pushed, bound⟩ := frames _ rfl
  exact ⟨distinct, accepted.1 rfl, _, bs, rfl, pushed, bound⟩

end Template

end Stencil
