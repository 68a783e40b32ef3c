import Mathlib.Data.List.Forall2
import Stencil.Expansion.Reading
import Stencil.Proofs.Keyed
import Stencil.Proofs.Tree.Values

/-!
# The frame of a call

What can a call bind a tparameter to?  A value that the call writes, as it reads under the scope
of the call; nodes that the call holds, captured with that scope; or a default, which the scope of
the call does not enter.  `Template.BindsThrough` lists these ways for two calls at once: a call
under one scope, and the same call with other values under another.  `Template.BindsAlike` is the
case of one call under two scopes.

`bindCall_through` is all that later modules need to know of the binding of targuments.  With the
two scopes equal and the values as they are it says what a frame holds (`exists_of_bindCall`).

The two calls are followed through all passes at once (`Settlement.Related`): they make the same
offers, refuse the same ones for the same reason, and leave the same tparameters open.  This needs
of the scopes only that they read the values of the call with the same problems.  That the values
themselves are the same is not asked, and is just what differs.
-/

namespace Stencil

/-- A value that a call writes: that of an entry of the call or of one of its holders. -/
def Node.Writes (call : Node) (v : Spanned Scalar) : Prop :=
  (∃ e ∈ call.entries, e.value = v) ∨
    ∃ holder ∈ call.children, ∃ e ∈ holder.entries, e.value = v

/-- A string that a call writes is one of its strings. -/
lemma Node.Writes.mem_strings {call : Node} {v : Spanned Scalar} (written : call.Writes v)
    {word : String} (string : v.inner = .string word) : word ∈ call.strings := by
  rcases written with ⟨e, he, rfl⟩ | ⟨holder, hh, e, he, rfl⟩
  · exact call.entries_subset_strings (Entry.mem_strings he string)
  · exact call.children_subset_strings (strings_subset_stringsAll hh
      (holder.entries_subset_strings (Entry.mem_strings he string)))

namespace Template

/-- The binding that a tparameter falls back on. -/
def fallback? (t : Template) (p : Tparameter) : Option Binding :=
  match p.form with
  | .positional => none
  | .named default => some (.value (t.home.valueOf default).1)
  | .node default => some (.node default t.home)
  | .splice default => some (.splice default t.home)

/-- The bindings that a call makes in the same way under two scopes. -/
inductive BindsAlike (t : Template) (call : Node) (s s' : Scope) : Binding → Binding → Prop
  | value {v : Spanned Scalar} (written : call.Writes v) :
      BindsAlike t call s s' (.value (s.valueOf v).1) (.value (s'.valueOf v).1)
  | node {holder child : Node} (holds : holder ∈ call.children) (held : child ∈ holder.children) :
      BindsAlike t call s s' (.node child s) (.node child s')
  | splice {holder : Node} (holds : holder ∈ call.children) :
      BindsAlike t call s s' (.splice holder.children s) (.splice holder.children s')
  | fallback {p : Tparameter} {b : Binding} (declared : p ∈ t.tparameters)
      (default : t.fallback? p = some b) : BindsAlike t call s s' b b

/-- The bindings that a call gives under a scope, and the same call with other values gives under
another. -/
inductive Gives (f : Spanned Scalar → Spanned Scalar) (call : Node) (s s' : Scope) :
    Binding → Binding → Prop
  | value {v : Spanned Scalar} (written : call.Writes v) :
      Gives f call s s' (.value (s.valueOf v).1) (.value (s'.valueOf (f v)).1)
  | node {holder child : Node} (holds : holder ∈ call.children) (held : child ∈ holder.children) :
      Gives f call s s' (.node child s) (.node (child.mapValues f) s')
  | splice {holder : Node} (holds : holder ∈ call.children) :
      Gives f call s s' (.splice holder.children s)
        (.splice (Node.mapValuesAll f holder.children) s')

/-- The bindings that a call makes under a scope, and the same call with other values makes in the
same way under another. -/
inductive BindsThrough (t : Template) (f : Spanned Scalar → Spanned Scalar) (call : Node)
    (s s' : Scope) : Binding → Binding → Prop
  | value {v : Spanned Scalar} (written : call.Writes v) :
      BindsThrough t f call s s' (.value (s.valueOf v).1) (.value (s'.valueOf (f v)).1)
  | node {holder child : Node} (holds : holder ∈ call.children) (held : child ∈ holder.children) :
      BindsThrough t f call s s' (.node child s) (.node (child.mapValues f) s')
  | splice {holder : Node} (holds : holder ∈ call.children) :
      BindsThrough t f call s s' (.splice holder.children s)
        (.splice (Node.mapValuesAll f holder.children) s')
  | fallback {p : Tparameter} {b : Binding} (declared : p ∈ t.tparameters)
      (default : t.fallback? p = some b) : BindsThrough t f call s s' b b

lemma Gives.through {t : Template} {f : Spanned Scalar → Spanned Scalar} {call : Node}
    {s s' : Scope} {b b' : Binding} (h : Gives f call s s' b b') :
    t.BindsThrough f call s s' b b' := by
  cases h with
  | value written => exact .value written
  | node holds held => exact .node holds held
  | splice holds => exact .splice holds

/-- A call gives no templates. -/
lemma Gives.isTemplate_eq_false {f : Spanned Scalar → Spanned Scalar} {call : Node} {s s' : Scope}
    {b b' : Binding} (h : Gives f call s s' b b') : b.isTemplate = false := by
  cases h <;> rfl

/-- With the values as they are, the call is the same. -/
lemma BindsThrough.alike {t : Template} {call : Node} {s s' : Scope} {b b' : Binding}
    (h : t.BindsThrough id call s s' b b') : t.BindsAlike call s s' b b' := by
  cases h with
  | value written => exact .value written
  | node holds held =>
    rw [Node.mapValues_id]
    exact .node holds held
  | splice holds =>
    rw [Node.mapValuesAll_id]
    exact .splice holds
  | fallback declared default => exact .fallback declared default

/-- Under one scope, what a call binds in the same way is the same. -/
lemma BindsAlike.eq {t : Template} {call : Node} {s : Scope} {b b' : Binding}
    (h : t.BindsAlike call s s b b') : b = b' := by
  cases h <;> rfl

/-! ## Settlements under two scopes -/

/-- Offers made in the same way: refused for the same problem, or made for the same tparameter
with related bindings. -/
inductive Offer.Related (R : Binding → Binding → Prop) : Offer → Offer → Prop
  | refused (problem : Diagnostic) : Offer.Related R (.refused problem) (.refused problem)
  | made (name : String) {b b' : Binding} (related : R b b') (problems : List Diagnostic)
      (span : Span) : Offer.Related R (.made name b problems span) (.made name b' problems span)

/-- Settlements that bind the same tparameters to related bindings, with the same problems. -/
structure Settlement.Related (R : Binding → Binding → Prop) (a b : Settlement) : Prop where
  bound : Keyed.Related R a.bound b.bound
  problems : a.problems = b.problems
  sound : a.sound = b.sound

namespace Settlement.Related

variable {R : Binding → Binding → Prop} {a a' : Settlement}

lemma mono {S : Binding → Binding → Prop} (h : Settlement.Related R a a')
    (le : ∀ b b', R b b' → S b b') : Settlement.Related S a a' :=
  ⟨h.bound.mono le, h.problems, h.sound⟩

lemma refuse (h : Settlement.Related R a a') (problem : Diagnostic) :
    Settlement.Related R (a.refuse problem) (a'.refuse problem) where
  bound := h.bound
  problems := by simp [Settlement.refuse, h.problems]
  sound := rfl

lemma take (h : Settlement.Related R a a') (name : String) {b b' : Binding} (hb : R b b')
    (problems : List Diagnostic) :
    Settlement.Related R (a.take name b problems) (a'.take name b' problems) where
  bound := h.bound.append (.cons hb .nil)
  problems := by simp [Settlement.take, h.problems]
  sound := h.sound

lemma settle (h : Settlement.Related R a a') (template : String) {o o' : Offer}
    (ho : Offer.Related R o o') :
    Settlement.Related R (a.settle template o) (a'.settle template o') := by
  cases ho with
  | refused problem => exact h.refuse problem
  | made name related problems span =>
    rw [Settlement.settle, Settlement.settle, h.bound.has_eq]
    split
    · have noted : Settlement.Related R { a with problems := a.problems ++ problems }
          { a' with problems := a'.problems ++ problems } :=
        ⟨h.bound, by simp [h.problems], h.sound⟩
      exact noted.refuse _
    · exact h.take name related problems

lemma foldl_settle (h : Settlement.Related R a a') (template : String) {os os' : List Offer}
    (ho : List.Forall₂ (Offer.Related R) os os') :
    Settlement.Related R (os.foldl (Settlement.settle template) a)
      (os'.foldl (Settlement.settle template) a') := by
  induction ho generalizing a a' with
  | nil => exact h
  | cons head _ ih => exact ih (h.settle template head)

end Settlement.Related

variable {t : Template} {call : Node} {s s' : Scope}

section TwoScopes

variable {f : Spanned Scalar → Spanned Scalar}
  (same : ∀ v, call.Writes v → (s.valueOf v).2 = (s'.valueOf (f v)).2)
include same

/-- An entry makes the same offer under both scopes, or none under either. -/
lemma offerOfEntry_through {e : Entry} (h : e ∈ call.entries) :
    (t.offerOfEntry? s e = none ∧ t.offerOfEntry? s' (e.mapValue f) = none) ∨
      ∃ o o', t.offerOfEntry? s e = some o ∧ t.offerOfEntry? s' (e.mapValue f) = some o' ∧
        Offer.Related (Gives f call s s') o o' := by
  have written : call.Writes e.value := .inl ⟨e, h, rfl⟩
  obtain ⟨_ | property, v, place⟩ := e
  · exact .inl ⟨rfl, rfl⟩
  · refine .inr ⟨_, _, rfl, rfl, ?_⟩
    dsimp only
    split
    · exact .refused _
    · split
      · rw [same v written]
        exact .made _ (.value written) _ _
      · exact .refused _

lemma related_offersOfEntries {entries : List Entry} (h : ∀ e ∈ entries, e ∈ call.entries) :
    List.Forall₂ (Offer.Related (Gives f call s s'))
      (entries.filterMap (t.offerOfEntry? s))
      ((entries.map (Entry.mapValue f)).filterMap (t.offerOfEntry? s')) := by
  induction entries with
  | nil => exact .nil
  | cons e rest ih =>
    have later := ih fun other ho => h other (List.mem_cons_of_mem _ ho)
    rw [List.map_cons, List.filterMap_cons, List.filterMap_cons]
    rcases offerOfEntry_through (t := t) same (h e List.mem_cons_self) with
      ⟨none, none'⟩ | ⟨o, o', offer, offer', related⟩
    · rw [none, none']
      exact later
    · rw [offer, offer']
      exact .cons related later

/-- A holder holds a value under both scopes or under neither. -/
lemma heldValue_through {holder : Node} (h : holder ∈ call.children) :
    (held? s .positional holder = none ∧ held? s' .positional (holder.mapValues f) = none) ∨
      ∃ b b' problems, held? s .positional holder = some (b, problems) ∧
        held? s' .positional (holder.mapValues f) = some (b', problems) ∧
        Gives f call s s' b b' := by
  obtain ⟨name, entries, children, span⟩ := holder
  rw [Node.mapValues]
  -- a value is held if there is a single bare entry and no child; in all other cases both sides
  -- are refused
  rcases entries with _ | ⟨⟨_ | property, v, place⟩, _ | ⟨_, _⟩⟩
  case cons.none.nil =>
    rcases children with _ | ⟨_, _⟩
    · have written : call.Writes v := .inr ⟨_, h, _, List.mem_cons_self, rfl⟩
      rw [Node.mapValuesAll]
      refine .inr ⟨.value (s.valueOf v).1, .value (s'.valueOf (f v)).1, (s.valueOf v).2, rfl, ?_,
        .value written⟩
      rw [same _ written]
      rfl
    · exact .inl ⟨rfl, by rw [Node.mapValuesAll]; rfl⟩
  all_goals exact .inl ⟨rfl, rfl⟩

/-- A holder holds a binding under both scopes or under neither. -/
lemma held_through {holder : Node} (h : holder ∈ call.children) (form : TparameterForm) :
    (held? s form holder = none ∧ held? s' form (holder.mapValues f) = none) ∨
      ∃ b b' problems, held? s form holder = some (b, problems) ∧
        held? s' form (holder.mapValues f) = some (b', problems) ∧
        Gives f call s s' b b' := by
  -- the shape that a form asks for does not depend on the values, so the cases below agree on both
  -- sides
  rcases form with _ | default | default | default
  · exact heldValue_through same h
  · exact heldValue_through same h
  · obtain ⟨name, entries, children, span⟩ := holder
    rw [Node.mapValues, Node.mapValuesAll_eq_map]
    rcases entries with _ | ⟨_, _⟩
    · rcases children with _ | ⟨child, _ | ⟨_, _⟩⟩
      · exact .inl ⟨rfl, rfl⟩
      · exact .inr ⟨_, _, _, rfl, rfl, .node h List.mem_cons_self⟩
      · exact .inl ⟨rfl, rfl⟩
    · exact .inl ⟨rfl, rfl⟩
  · obtain ⟨name, entries, children, span⟩ := holder
    rw [Node.mapValues]
    rcases entries with _ | ⟨_, _⟩
    · exact .inr ⟨_, _, _, rfl, rfl, .splice h⟩
    · exact .inl ⟨rfl, rfl⟩

lemma related_offerOfHolder {holder : Node} (h : holder ∈ call.children) :
    Offer.Related (Gives f call s s') (t.offerOfHolder s holder)
      (t.offerOfHolder s' (holder.mapValues f)) := by
  have shape : shape (holder.mapValues f) = shape holder := by
    simp [Template.shape, Node.mapValuesAll_eq_map]
  unfold offerOfHolder
  rw [Node.name_mapValues, Node.span_mapValues, shape]
  rcases t.tparameter? holder.name.inner with _ | p
  · exact .refused _
  · rcases held_through same h p.form with
      ⟨none, none'⟩ | ⟨b, b', problems, held, held', alike⟩
    · simp only [none, none']
      exact .refused _
    · simp only [held, held']
      exact .made _ alike _ _

/-- The two calls make related offers, one by one. -/
lemma related_offers :
    List.Forall₂ (Offer.Related (Gives f call s s')) (t.offers call s)
      (t.offers (call.mapValues f) s') := by
  unfold offers
  rw [Node.entries_mapValues, Node.children_mapValues, Node.mapValuesAll_eq_map]
  refine List.rel_append (related_offersOfEntries same fun _ h => h) ?_
  rw [List.map_map, List.forall₂_map_left_iff, List.forall₂_map_right_iff, List.forall₂_same]
  exact fun holder h => related_offerOfHolder same h

/-- Bare arguments are taken alike: they land on the same tparameters, and are refused for the same
reasons. -/
lemma related_fillOpen {entries : List Entry} (h : ∀ e ∈ entries, e ∈ call.entries)
    (tparameters : List Tparameter) {a a' : Settlement}
    (ha : a.Related (Gives f call s s') a') :
    (fillOpen t s tparameters entries a).Related (Gives f call s s')
      (fillOpen t s' tparameters (entries.map (Entry.mapValue f)) a') := by
  induction entries generalizing tparameters a a' with
  | nil =>
    rw [List.map_nil, fillOpen, fillOpen]
    exact ha
  | cons e rest ih =>
    have later := fun other ho => h other (List.mem_cons_of_mem _ ho)
    have written : call.Writes e.value := .inl ⟨e, h e List.mem_cons_self, rfl⟩
    rw [List.map_cons]
    cases tparameters with
    | nil =>
      rw [fillOpen, fillOpen]
      exact ih later _ (ha.refuse _)
    | cons p unfilled =>
      rw [fillOpen, fillOpen]
      -- whether the tparameter takes a value is decided by its form alone
      apply ih later
      split
      · dsimp only [Entry.mapValue]
        rw [same _ written]
        exact ha.take _ (.value written) _
      · exact ha.refuse _

end TwoScopes

section Defaults

variable {f : Spanned Scalar → Spanned Scalar} {call' : Node}

/-- A default is taken at the home of the template, so neither scope of the calls has a say in
it. -/
lemma related_fillDefault {p : Tparameter} (h : p ∈ t.tparameters) {a a' : Settlement}
    (span : call.span = call'.span) (ha : a.Related (t.BindsThrough f call s s') a') :
    (t.fillDefault call a p).Related (t.BindsThrough f call s s') (t.fillDefault call' a' p) := by
  unfold fillDefault
  rw [ha.bound.has_eq, span]
  split
  · exact ha
  · rcases hf : p.form with _ | value | node | nodes
    · exact ha.refuse _
    · have default : t.fallback? p = some (.value (t.home.valueOf value).1) := by
        rw [fallback?, hf]
      exact ha.take _ (.fallback h default) _
    · exact ha.take _ (.fallback h (by rw [fallback?, hf])) _
    · exact ha.take _ (.fallback h (by rw [fallback?, hf])) _

lemma related_foldl_fillDefault {tparameters : List Tparameter}
    (h : ∀ p ∈ tparameters, p ∈ t.tparameters) {a a' : Settlement}
    (span : call.span = call'.span) (ha : a.Related (t.BindsThrough f call s s') a') :
    (tparameters.foldl (t.fillDefault call) a).Related (t.BindsThrough f call s s')
      (tparameters.foldl (t.fillDefault call') a') := by
  induction tparameters generalizing a a' with
  | nil => exact ha
  | cons p rest ih =>
    exact ih (fun q hq => h q (List.mem_cons_of_mem _ hq))
      (related_fillDefault (h p List.mem_cons_self) span ha)

end Defaults

/-- What a call gives, before the defaults are taken. -/
def given (t : Template) (call : Node) (scope : Scope) : Settlement :=
  let named := (t.offers call scope).foldl (Settlement.settle t.name) .empty
  fillOpen t scope (t.openTparameters named) call.arguments named

lemma settlement_eq (t : Template) (call : Node) (scope : Scope) :
    t.settlement call scope = t.tparameters.foldl (t.fillDefault call) (t.given call scope) :=
  rfl

/-- A call under which every value reads with the same problems gives the same. -/
lemma related_given {f : Spanned Scalar → Spanned Scalar}
    (same : ∀ v, call.Writes v → (s.valueOf v).2 = (s'.valueOf (f v)).2) :
    (t.given call s).Related (Gives f call s s') (t.given (call.mapValues f) s') := by
  have nothing : Settlement.empty.Related (Gives f call s s') .empty := ⟨.nil, rfl, rfl⟩
  have named := nothing.foldl_settle t.name (related_offers (t := t) same)
  -- which tparameters are open depends on the names that are bound so far, and these are the same
  have still_open : t.openTparameters ((t.offers call s).foldl (Settlement.settle t.name) .empty) =
      t.openTparameters
        ((t.offers (call.mapValues f) s').foldl (Settlement.settle t.name) .empty) := by
    unfold openTparameters
    simp only [named.bound.has_eq]
  have arguments : (call.mapValues f).arguments = call.arguments.map (Entry.mapValue f) := by
    rw [Node.arguments, Node.arguments, Node.entries_mapValues, List.filter_map]
    rfl
  unfold given
  dsimp only
  rw [still_open, arguments]
  exact related_fillOpen same (fun e he => (List.mem_filter.1 he).1) _ named

/-- A call under which every value reads with the same problems is settled alike. -/
lemma related_settlement {f : Spanned Scalar → Spanned Scalar}
    (same : ∀ v, call.Writes v → (s.valueOf v).2 = (s'.valueOf (f v)).2) :
    (t.settlement call s).Related (t.BindsThrough f call s s')
      (t.settlement (call.mapValues f) s') := by
  have given := (related_given (t := t) same).mono fun _ _ => Gives.through (t := t)
  exact related_foldl_fillDefault (fun _ h => h) Node.span_mapValues.symm given

/-- Related settlements give related bindings for the frame. -/
lemma Settlement.Related.frameBindings {R : Binding → Binding → Prop} {a a' : Settlement}
    (h : a.Related R a') (t : Template) :
    Keyed.Related R (t.frameBindings a) (t.frameBindings a') := by
  unfold Template.frameBindings
  induction t.tparameters with
  | nil => exact .nil
  | cons p rest ih =>
    rw [List.filterMap_cons, List.filterMap_cons]
    rcases h.bound.get? p.name with ⟨none, none'⟩ | ⟨b, b', found, found', related⟩
    · rw [none, none']
      exact ih
    · rw [found, found']
      exact .cons related ih

/-! ## Frames -/

/-- **A call and the same call with other values are bound alike** under two scopes under which the
values read with the same problems: both can be made or neither, and the two frames differ in
nothing but what a call takes from its scope. -/
theorem bindCall_through (t : Template) {f : Spanned Scalar → Spanned Scalar}
    (same : ∀ v, call.Writes v → (s.valueOf v).2 = (s'.valueOf (f v)).2) :
    (t.bindCall call s).2 = (t.bindCall (call.mapValues f) s').2 ∧
      (((t.bindCall call s).1 = none ∧ (t.bindCall (call.mapValues f) s').1 = none) ∨
        ∃ bs bs', (t.bindCall call s).1 = some (t.home.extend bs .call) ∧
          (t.bindCall (call.mapValues f) s').1 = some (t.home.extend bs' .call) ∧
          Keyed.Related (t.BindsThrough f call s s') bs bs') := by
  have related := related_settlement (t := t) same
  unfold bindCall
  dsimp only
  rw [← related.sound]
  refine ⟨related.problems, ?_⟩
  split
  · exact .inr ⟨_, _, rfl, rfl, related.frameBindings t⟩
  · exact .inl ⟨rfl, rfl⟩

/-- A call is bound alike under two scopes under which its values read with the same problems. -/
theorem bindCall_alike (t : Template)
    (same : ∀ v, call.Writes v → (s.valueOf v).2 = (s'.valueOf v).2) :
    (t.bindCall call s).2 = (t.bindCall call s').2 ∧
      (((t.bindCall call s).1 = none ∧ (t.bindCall call s').1 = none) ∨
        ∃ bs bs', (t.bindCall call s).1 = some (t.home.extend bs .call) ∧
          (t.bindCall call s').1 = some (t.home.extend bs' .call) ∧
          Keyed.Related (t.BindsAlike call s s') bs bs') := by
  have through := t.bindCall_through (f := id) same
  rw [Node.mapValues_id] at through
  obtain ⟨problems, none | ⟨bs, bs', made, made', related⟩⟩ := through
  · exact ⟨problems, .inl none⟩
  · exact ⟨problems, .inr ⟨bs, bs', made, made', related.mono fun _ _ => BindsThrough.alike⟩⟩

/-- The frame of a call is pushed on the template's home scope and binds nothing but what the call
writes or holds and the defaults. -/
theorem exists_of_bindCall {frame : Scope} (h : (t.bindCall call s).1 = some frame) :
    ∃ bs, frame = t.home.extend bs .call ∧
      ∀ pair ∈ bs, t.BindsAlike call s s pair.2 pair.2 := by
  have same : ∀ v, call.Writes v → (s.valueOf v).2 = (s.valueOf v).2 := fun _ _ => rfl
  obtain ⟨_, ⟨none, _⟩ | ⟨bs, bs', made, made', related⟩⟩ := bindCall_alike t same
  · rw [none] at h
    cases h
  · rw [made, Option.some.injEq] at h
    refine ⟨bs, h.symm, fun pair hp => ?_⟩
    obtain ⟨b, _, alike⟩ := related.exists_of_mem hp
    rwa [← alike.eq] at alike

/-! ## Calls elsewhere -/

/-- Settlements that can differ in where they report their problems, and in nothing else. -/
structure Settlement.Matches (a b : Settlement) : Prop where
  bound : a.bound = b.bound
  silent : a.problems = [] ↔ b.problems = []
  sound : a.sound = b.sound

lemma matches_fillDefault {a b : Settlement} (h : a.Matches b) (call call' : Node)
    (p : Tparameter) : (t.fillDefault call a p).Matches (t.fillDefault call' b p) := by
  obtain ⟨bound, silent, sound⟩ := h
  unfold fillDefault
  rw [bound]
  split
  · exact ⟨bound, silent, sound⟩
  · split
    · exact ⟨bound, by simp [Settlement.refuse], rfl⟩
    all_goals exact ⟨by simp [Settlement.take, bound], by simp [Settlement.take, silent], sound⟩

lemma matches_foldl_fillDefault {a b : Settlement} (h : a.Matches b) (call call' : Node)
    (tparameters : List Tparameter) :
    (tparameters.foldl (t.fillDefault call) a).Matches
      (tparameters.foldl (t.fillDefault call') b) := by
  induction tparameters generalizing a b with
  | nil => exact h
  | cons p rest ih => exact ih (matches_fillDefault h call call' p)

/-- **A call under another name or at another place** makes the same frame: only the places of its
problems can differ. -/
theorem bindCall_elsewhere {call' : Node} (entries : call.entries = call'.entries)
    (children : call.children = call'.children) :
    (t.bindCall call s).1 = (t.bindCall call' s).1 ∧
      ((t.bindCall call s).2 = [] ↔ (t.bindCall call' s).2 = []) := by
  have settled : (t.settlement call s).Matches (t.settlement call' s) := by
    unfold settlement offers Node.arguments
    rw [entries, children]
    exact matches_foldl_fillDefault ⟨rfl, Iff.rfl, rfl⟩ call call' t.tparameters
  unfold bindCall frameBindings
  dsimp only
  rw [settled.sound, settled.bound]
  exact ⟨rfl, settled.silent⟩

end Template

end Stencil
