import Stencil.Proofs.Scope.Reach

/-!
# What a frame binds

A call offers its targuments by name, fills open tparameters with its bare arguments, and takes
defaults for the rest.  Each of the three respects the forms of the tparameters
(`Settlement.Fits`), and the last leaves no tparameter without a binding unless it refuses the call.

So the frame of a call that is made binds every tparameter, to a binding of the kind that its form
takes, and looks up every other name as its home does (`isFrame_of_bindCall`).  Whatever a call
reports, it is never a reference that nothing is bound to (`references_bindCall`).

The forms are respected by every settlement, sound or not, since an offer that does not fit is
refused and binds nothing.  That nothing is missing holds for sound ones only: a positional
tparameter that is left over takes the mark away.
-/

namespace Stencil

namespace Diagnostic

/-- Whether a diagnostic reports a reference to something that is not bound. -/
def isReference (d : Diagnostic) : Bool :=
  d.kind == .unknownTemplate || d.kind == .unknownTparameterReference

/-- The bad references among some diagnostics. -/
def references (diagnostics : List Diagnostic) : List Diagnostic :=
  diagnostics.filter isReference

@[simp] lemma isReference_reportedAt (p : Problem) (span : Span) :
    (p.reportedAt span).isReference =
      (p.kind == .unknownTemplate || p.kind == .unknownTparameterReference) :=
  rfl

@[simp] lemma references_nil : references [] = [] :=
  rfl

@[simp] lemma references_cons (d : Diagnostic) (rest : List Diagnostic) :
    references (d :: rest) = if d.isReference then d :: references rest else references rest :=
  List.filter_cons

@[simp] lemma references_append (a b : List Diagnostic) :
    references (a ++ b) = references a ++ references b :=
  List.filter_append ..

end Diagnostic

open Diagnostic

@[simp] lemma Scope.references_valueOf (s : Scope) (v : Spanned Scalar) :
    references (s.valueOf v).2 = [] := by
  unfold valueOf
  split
  · split <;> simp [Problem.kind]
  · rfl

namespace TparameterForm

variable {form : TparameterForm} {b : Binding}

/-- The kind of binding that tparameters of a form take. -/
inductive Takes : TparameterForm → Binding → Prop
  | positional (v : Spanned Scalar) : Takes .positional (.value v)
  | named (default v : Spanned Scalar) : Takes (.named default) (.value v)
  | node (default n : Node) (s : Scope) : Takes (.node default) (.node n s)
  | splice (default nodes : List Node) (s : Scope) : Takes (.splice default) (.splice nodes s)

lemma Takes.ofValue (h : form.takesValue = true) (v : Spanned Scalar) :
    form.Takes (.value v) := by
  cases form with
  | positional => exact .positional v
  | named default => exact .named default v
  | node => cases h
  | splice => cases h

lemma Takes.exists_value (takes : form.Takes b) (h : form.takesValue = true) :
    ∃ v, b = .value v := by
  cases takes with
  | positional v => exact ⟨v, rfl⟩
  | named _ v => exact ⟨v, rfl⟩
  | node => cases h
  | splice => cases h

end TparameterForm

namespace Template

/-! ## Settlements fit the forms -/

/-- A binding of the kind that the tparameter of a name takes. -/
def Admits (t : Template) (name : String) (b : Binding) : Prop :=
  ∃ p ∈ t.tparameters, p.name = name ∧ p.form.Takes b

/-- An offer that, if it is made, makes a binding of the kind that its tparameter takes, and that
reports no reference. -/
def Offer.Fits (t : Template) : Offer → Prop
  | .refused problem => problem.isReference = false
  | .made name b problems _ => t.Admits name b ∧ references problems = []

/-- A settlement that binds each tparameter to a binding of the kind that it takes, and that reports
no reference. -/
structure Settlement.Fits (t : Template) (a : Settlement) : Prop where
  bound : ∀ pair ∈ a.bound, t.Admits pair.1 pair.2
  problems : references a.problems = []

variable {t : Template} {call : Node} {s : Scope} {a : Settlement} {p : Tparameter} {name : String}

/-- A tparameter that is found by name is declared and has that name. -/
lemma of_tparameter? (h : t.tparameter? name = some p) : p ∈ t.tparameters ∧ p.name = name :=
  ⟨List.mem_of_find?_eq_some h, by simpa using List.find?_some h⟩

lemma tparameter?_eq_none_iff :
    t.tparameter? name = none ↔ name ∉ t.tparameters.map Tparameter.name := by
  simp [tparameter?, List.find?_eq_none]

/-- What a holder holds is of the kind that the form takes. -/
lemma takes_of_held? {form : TparameterForm} {holder : Node} {b : Binding}
    {problems : List Diagnostic} (h : held? s form holder = some (b, problems)) :
    form.Takes b ∧ references problems = [] := by
  rw [held?.eq_def] at h
  split at h
  all_goals
    split at h
    · obtain ⟨rfl, rfl⟩ := Prod.mk.inj (Option.some.inj h)
      exact ⟨by constructor, by first | exact s.references_valueOf _ | rfl⟩
    · cases h

lemma fits_of_offerOfEntry? {e : Entry} {o : Offer} (h : t.offerOfEntry? s e = some o) :
    o.Fits t := by
  unfold offerOfEntry? at h
  split at h
  · cases h
  · obtain rfl := Option.some.inj h
    split
    · simp [Offer.Fits, Problem.kind]
    · next p found =>
      split
      · next takes =>
        exact ⟨⟨p, (of_tparameter? found).1, rfl, .ofValue takes _⟩, s.references_valueOf _⟩
      · simp [Offer.Fits, Problem.kind]

lemma fits_offerOfHolder (holder : Node) : (t.offerOfHolder s holder).Fits t := by
  unfold offerOfHolder
  split
  · simp [Offer.Fits, Problem.kind]
  · next p found =>
    split
    · next held =>
      obtain ⟨takes, silent⟩ := takes_of_held? held
      exact ⟨⟨p, (of_tparameter? found).1, rfl, takes⟩, silent⟩
    · simp [Offer.Fits, Problem.kind]

lemma fits_of_mem_offers {o : Offer} (h : o ∈ t.offers call s) : o.Fits t := by
  rcases List.mem_append.1 h with h | h
  · obtain ⟨e, _, offer⟩ := List.mem_filterMap.1 h
    exact fits_of_offerOfEntry? offer
  · obtain ⟨holder, _, rfl⟩ := List.mem_map.1 h
    exact fits_offerOfHolder holder

namespace Settlement

lemma Fits.refuse (h : a.Fits t) {problem : Diagnostic} (other : problem.isReference = false) :
    (a.refuse problem).Fits t where
  bound := h.bound
  problems := by simp [Settlement.refuse, h.problems, other]

lemma Fits.take (h : a.Fits t) {b : Binding} (admits : t.Admits name b)
    {problems : List Diagnostic} (silent : references problems = []) :
    (a.take name b problems).Fits t where
  bound pair hp := by
    rcases List.mem_append.1 hp with hp | hp
    · exact h.bound pair hp
    · obtain rfl := List.mem_singleton.1 hp
      exact admits
  problems := by simp [Settlement.take, h.problems, silent]

lemma Fits.settle (h : a.Fits t) {o : Offer} (offer : o.Fits t) : (a.settle t.name o).Fits t := by
  cases o with
  | refused problem => exact h.refuse offer
  | made name b problems span =>
    obtain ⟨admits, silent⟩ := offer
    unfold Settlement.settle
    dsimp only
    split
    · -- a name given twice: the problems of the second offer are noted, but its binding is not
      -- taken
      have noted : Fits t { a with problems := a.problems ++ problems } :=
        ⟨h.bound, by simp [h.problems, silent]⟩
      exact noted.refuse (by simp [Problem.kind])
    · exact h.take admits silent

lemma Fits.fillOpen (h : a.Fits t) {unfilled : List Tparameter}
    (declared : ∀ p ∈ unfilled, p ∈ t.tparameters) (entries : List Entry) :
    (fillOpen t s unfilled entries a).Fits t := by
  induction entries generalizing unfilled a with
  | nil => rwa [Template.fillOpen]
  | cons e rest ih =>
    cases unfilled with
    | nil =>
      rw [Template.fillOpen]
      exact ih (h.refuse (by simp [Problem.kind])) declared
    | cons p others =>
      rw [Template.fillOpen]
      refine ih ?_ fun q hq => declared q (List.mem_cons_of_mem _ hq)
      split
      · next takes =>
        exact h.take ⟨p, declared p List.mem_cons_self, rfl, .ofValue takes _⟩
          (s.references_valueOf _)
      · exact h.refuse (by simp [Problem.kind])

lemma Fits.fillDefault (h : a.Fits t) (declared : p ∈ t.tparameters) :
    (t.fillDefault call a p).Fits t := by
  unfold Template.fillDefault
  split
  · exact h
  · split
    · exact h.refuse (by simp [Problem.kind])
    all_goals
      next form =>
      refine h.take ⟨p, declared, rfl, form ▸ by constructor⟩ ?_
      first | exact t.home.references_valueOf _ | rfl

end Settlement

/-- A settlement fits the forms, whether the call is refused or not. -/
lemma fits_settlement : (t.settlement call s).Fits t := by
  have nothing : Settlement.empty.Fits t := ⟨fun _ hp => absurd hp List.not_mem_nil, rfl⟩
  have named : ((t.offers call s).foldl (Settlement.settle t.name) .empty).Fits t :=
    List.foldlRecOn _ _ nothing fun _ fits _ ho => fits.settle (fits_of_mem_offers ho)
  refine List.foldlRecOn _ _ (named.fillOpen (fun p hp => ?_) _)
    fun _ fits _ hp => fits.fillDefault hp
  exact (List.mem_filter.1 hp).1

/-- A call reports no reference. -/
lemma references_bindCall (t : Template) (call : Node) (s : Scope) :
    references (t.bindCall call s).2 = [] :=
  fits_settlement.problems

/-! ## Sound settlements bind every tparameter -/

lemma Settlement.names_take {b : Binding} {problems : List Diagnostic} :
    (a.take name b problems).bound.names = a.bound.names ++ [name] :=
  List.map_append

/-- A default either finds its tparameter bound or is taken, unless the call is refused. -/
lemma fillDefault_of_sound (sound : (t.fillDefault call a p).sound = true) :
    (t.fillDefault call a p = a ∧ p.name ∈ a.bound.names) ∨
      ∃ b problems, t.fillDefault call a p = a.take p.name b problems := by
  unfold fillDefault at sound ⊢
  split
  · next bound => exact .inl ⟨rfl, Keyed.has_iff_mem_names.1 bound⟩
  · next unbound =>
    rw [if_neg unbound] at sound
    split
    · next form =>
      rw [form] at sound
      cases sound
    all_goals exact .inr ⟨_, _, rfl⟩

/-- Once all defaults are filled in, every tparameter is bound, unless the call is refused. -/
lemma names_foldl_fillDefault {tparameters : List Tparameter}
    (sound : (tparameters.foldl (t.fillDefault call) a).sound = true) :
    a.sound = true ∧
      a.bound.names ++ tparameters.map Tparameter.name ⊆
        (tparameters.foldl (t.fillDefault call) a).bound.names := by
  induction tparameters generalizing a with
  | nil => exact ⟨sound, by simp⟩
  | cons p rest ih =>
    obtain ⟨taken, names⟩ := ih sound
    rw [List.foldl_cons, List.map_cons, List.append_subset, List.cons_subset]
    -- the settlement at the end is kept opaque: of it only the names matter that it has by the
    -- hypothesis of the induction
    generalize List.foldl _ (t.fillDefault call a p) rest = final at names ⊢
    obtain ⟨before, others⟩ := List.append_subset.1 names
    rcases fillDefault_of_sound taken with ⟨same, bound⟩ | ⟨b, problems, same⟩
    · rw [same] at taken before
      exact ⟨taken, before, before bound, others⟩
    · rw [same] at taken
      rw [same, Settlement.names_take, List.append_subset] at before
      exact ⟨taken, before.1, before.2 List.mem_cons_self, others⟩

/-- If the call is not refused, every tparameter is bound. -/
lemma mem_names_settlement (sound : (t.settlement call s).sound = true) (h : p ∈ t.tparameters) :
    p.name ∈ (t.settlement call s).bound.names :=
  (List.append_subset.1 (names_foldl_fillDefault sound).2).2 (List.mem_map_of_mem h)

/-! ## Frames -/

/-- A frame of a template: it is pushed on the home, binds every tparameter to a binding of the kind
that it takes, which a call makes under a scope, and looks up every other name as the home does. -/
structure IsFrame (t : Template) (call : Node) (s frame : Scope) : Prop where
  pushed : ∃ bs, frame = t.home.extend bs .call ∧ ∀ pair ∈ bs, t.Admits pair.1 pair.2
  binds : ∀ p ∈ t.tparameters, ∃ b, frame.lookup p.name = some b ∧ t.Admits p.name b ∧
    t.BindsAlike call s s b b
  others : ∀ name, name ∉ t.tparameters.map Tparameter.name →
    frame.lookup name = t.home.lookup name

lemma Settlement.Fits.frameBindings (h : a.Fits t) {pair : String × Binding}
    (mem : pair ∈ t.frameBindings a) : t.Admits pair.1 pair.2 := by
  obtain ⟨p, _, bound⟩ := List.mem_filterMap.1 mem
  obtain ⟨b, found, rfl⟩ := Option.map_eq_some_iff.1 bound
  exact h.bound _ (Keyed.mem_of_get? found)

lemma mem_names_frameBindings (declared : p ∈ t.tparameters) (bound : p.name ∈ a.bound.names) :
    p.name ∈ (t.frameBindings a).map Prod.fst := by
  obtain ⟨b, found⟩ := Option.isSome_iff_exists.1 (Keyed.has_iff_mem_names.2 bound)
  have pair : (p.name, b) ∈ t.frameBindings a :=
    List.mem_filterMap.2 ⟨p, declared, by rw [found]; rfl⟩
  exact List.mem_map_of_mem (f := Prod.fst) pair

/-- **The frame of a call that is made is a frame of its template.** -/
theorem isFrame_of_bindCall {frame : Scope} (h : (t.bindCall call s).1 = some frame) :
    t.IsFrame call s frame := by
  -- which kind of binding a name gets is read off the settlement; that it is made from the call
  -- alone is known of `bs`, which names the same bindings
  obtain ⟨bs, made, alike⟩ := exists_of_bindCall h
  unfold bindCall at h
  dsimp only at h
  split at h
  · next sound =>
    obtain rfl := Option.some.inj h
    have pairs : Keyed.ofPairs (t.frameBindings (t.settlement call s)) = Keyed.ofPairs bs :=
      (Scope.frame.inj made).2.2.1
    have admits : ∀ pair ∈ t.frameBindings (t.settlement call s), t.Admits pair.1 pair.2 :=
      fun _ => fits_settlement.frameBindings
    refine ⟨⟨_, rfl, admits⟩, fun p declared => ?_, fun name undeclared => ?_⟩
    · obtain ⟨b, found, mem⟩ := Keyed.exists_get?_ofPairs
        (mem_names_frameBindings declared (mem_names_settlement sound declared))
      refine ⟨b, ?_, admits _ mem, alike (p.name, b) ?_⟩
      · rw [Scope.lookup_extend, found]
        rfl
      · exact Keyed.mem_of_mem_ofPairs (pairs ▸ Keyed.mem_of_get? found)
    · -- a name that is found in the frame itself is that of a tparameter, so every other name
      -- falls through to the home
      rw [Scope.lookup_extend]
      rcases found : Keyed.get? (Keyed.ofPairs _) name with _ | b
      · rfl
      · have mem := Keyed.mem_of_mem_ofPairs (Keyed.mem_of_get? found)
        obtain ⟨p, declared, rfl, _⟩ := admits _ mem
        exact absurd (List.mem_map_of_mem declared) undeclared
  · cases h

end Template

end Stencil
