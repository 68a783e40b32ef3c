import Stencil.Proofs.Scope.Concurrence

/-!
# Templates under scopes that concur

What is done with a template before its body is read asks scopes for words only: its declaration is
checked, its calls read values and capture nodes, and its defaults are read at home.  Under scopes
that concur, the check finds the same (`allBadReferences_rehome`) and a call finds the same problems
and makes a frame that concurs (`bindCall_concurs`), even if the template has another home there.

Two vocabularies are at work: that of the call, in which the scopes of the caller concur, and that
of the template, in which the homes do.  The frame is read with the words of the template, so what
the call gives has to be carried over to these, which `knows` allows; values that a call gives are
words of the call and with that of the template.
-/

namespace Stencil

variable {V W : String → Prop} {s s' : Scope}

/-- Some nodes are spoken in a vocabulary if the first is and the others are. -/
lemma Node.allSpokenIn_cons {n : Node} {rest : List Node} :
    AllSpokenIn V (n :: rest) ↔ n.SpokenIn V ∧ AllSpokenIn V rest := by
  simp only [AllSpokenIn, SpokenIn, namesAll_cons, stringsAll_cons, List.mem_append]
  constructor
  · exact fun h => ⟨fun w hw => h w (hw.imp .inl .inl), fun w hw => h w (hw.imp .inr .inr)⟩
  · rintro ⟨first, later⟩ w ((hw | hw) | hw | hw)
    · exact first w (.inl hw)
    · exact later w (.inl hw)
    · exact first w (.inr hw)
    · exact later w (.inr hw)

/-- Some nodes are spoken in a vocabulary if each of them is. -/
lemma Node.allSpokenIn_iff {nodes : List Node} :
    AllSpokenIn V nodes ↔ ∀ n ∈ nodes, n.SpokenIn V := by
  induction nodes with
  | nil => simp [AllSpokenIn]
  | cons n rest ih => rw [allSpokenIn_cons, ih, List.forall_mem_cons]

/-! ## Values -/

/-- A value that is spoken in the vocabulary is read as the same, and as a word of it. -/
lemma Scope.Concurs.valueOf (h : s.Concurs V s') {v : Spanned Scalar}
    (spoken : ∀ x, v.inner = .string x → V x) :
    s.valueOf v = s'.valueOf v ∧ ∀ x, (s.valueOf v).1.inner = .string x → V x := by
  unfold Scope.valueOf
  split
  · next name string =>
    generalize s.lookup name = a, s'.lookup name = a', h.lookup (spoken name string) = related
    cases related with
    | none => exact ⟨rfl, spoken⟩
    | some bindings =>
      cases bindings with
      | value inside => exact ⟨rfl, inside⟩
      | _ => exact ⟨rfl, spoken⟩
  · exact ⟨rfl, spoken⟩

/-- Entries that are spoken in the vocabulary are read as the same. -/
lemma Scope.Concurs.entriesOf_eq (h : s.Concurs V s') {entries : List Entry}
    (spoken : ∀ x ∈ Entry.strings entries, V x) : s.entriesOf entries = s'.entriesOf entries := by
  have same : s.entriesOf entries = s'.entriesOf (entries.map (Entry.mapValue id)) :=
    Scope.entriesOf_congr fun e he =>
      (h.valueOf fun x string => spoken x (Entry.mem_strings he string)).1
  rwa [Entry.mapValue_id, List.map_id] at same

namespace Template

variable {t : Template} {home : Scope}

/-! ## Calls -/

/-- What a call gives under scopes that concur concurs, if the call speaks their vocabulary. -/
lemma Gives.concurs {call : Node} {b b' : Binding} (h : s.Concurs V s')
    (spoken : call.SpokenIn V) (gives : Gives id call s s' b b') : b.Concurs V b' := by
  cases gives with
  | value written =>
    obtain ⟨same, inside⟩ := h.valueOf fun x string => spoken x (.inr (written.mem_strings string))
    rw [id, ← same]
    exact .value inside
  | node holds held =>
    rw [Node.mapValues_id]
    exact .node h ((spoken.children.of_mem holds).children.of_mem held)
  | splice holds =>
    rw [Node.mapValuesAll_id]
    exact .splice h (spoken.children.of_mem holds).children

/-- The home of a template plays no part in the reading of bare arguments. -/
lemma fillOpen_rehome (scope : Scope) (tparameters : List Tparameter) (entries : List Entry)
    (a : Settlement) :
    fillOpen (t.rehome home) scope tparameters entries a =
      fillOpen t scope tparameters entries a := by
  induction entries generalizing tparameters a with
  | nil => rw [fillOpen, fillOpen]
  | cons e rest ih =>
    cases tparameters with
    | nil =>
      rw [fillOpen, fillOpen, ih]
      rfl
    | cons p unfilled =>
      rw [fillOpen, fillOpen, ih]

/-- Before its defaults, a template does not ask its home. -/
lemma given_rehome (call : Node) (scope : Scope) :
    (t.rehome home).given call scope = t.given call scope :=
  fillOpen_rehome ..

section Defaults

variable (homes : t.home.Concurs W home) (spoken : t.SpokenIn W)
include homes spoken

/-- A default is taken alike at two homes that concur. -/
lemma related_fillDefault_rehome {p : Tparameter} (declared : p ∈ t.tparameters) (call : Node)
    {a a' : Settlement} (h : a.Related (Binding.Concurs W) a') :
    (t.fillDefault call a p).Related (Binding.Concurs W)
      ((t.rehome home).fillDefault call a' p) := by
  have default := spoken.defaults p declared
  unfold fillDefault
  rw [h.bound.has_eq]
  split
  · exact h
  · rcases form : p.form with _ | value | node | nodes
    all_goals rw [form] at default
    · exact h.refuse _
    · obtain ⟨same, inside⟩ := homes.valueOf default
      dsimp only [rehome]
      rw [← same]
      exact h.take _ (.value inside) _
    · exact h.take _ (.node homes default) _
    · exact h.take _ (.splice homes default) _

/-- A call is settled alike under scopes that concur, by a template that knows their vocabulary. -/
lemma related_settlement_rehome (h : s.Concurs V s') (knows : ∀ w, V w → W w) {call : Node}
    (written : call.SpokenIn V) :
    (t.settlement call s).Related (Binding.Concurs W) ((t.rehome home).settlement call s') := by
  have same : ∀ v, call.Writes v → (s.valueOf v).2 = (s'.valueOf (id v)).2 := fun v wrote =>
    congrArg Prod.snd (h.valueOf fun x string => written x (.inr (wrote.mem_strings string))).1
  have given : (t.given call s).Related (Binding.Concurs W) (t.given call s') := by
    have gives := related_given (t := t) same
    rw [Node.mapValues_id] at gives
    exact gives.mono fun b b' gives =>
      (gives.concurs h written).mono gives.isTemplate_eq_false knows
  rw [settlement_eq, settlement_eq, given_rehome]
  exact List.foldl_rel given fun p declared _ _ related =>
    related_fillDefault_rehome homes spoken declared call related

/-- **A call under scopes that concur makes frames that concur**, or cannot be made, with the same
problems, and also by a template whose home concurs. -/
theorem bindCall_concurs (h : s.Concurs V s') (knows : ∀ w, V w → W w) {call : Node}
    (written : call.SpokenIn V) :
    Option.Rel (Scope.Concurs W) (t.bindCall call s).1 ((t.rehome home).bindCall call s').1 ∧
      (t.bindCall call s).2 = ((t.rehome home).bindCall call s').2 := by
  have related := related_settlement_rehome homes spoken h knows written
  have frames : (t.rehome home).frameBindings = t.frameBindings := rfl
  unfold bindCall
  dsimp only
  rw [← related.sound, frames]
  refine ⟨?_, related.problems⟩
  split
  · exact .some (homes.extend (related.frameBindings t) .call)
  · exact .none

end Defaults

/-! ## Declarations -/

/-- What an entry declares is spoken in the vocabulary of its value. -/
lemma spokenIn_of_tparameterOfEntry {name : String} {e : Entry} {p : Tparameter}
    (spoken : ∀ x, e.value.inner = .string x → V x) (h : tparameterOfEntry name e = .ok p) :
    p.form.SpokenIn V := by
  unfold tparameterOfEntry at h
  split at h
  · obtain rfl := Except.ok.inj h
    exact spoken
  · split at h
    · obtain rfl := Except.ok.inj h
      trivial
    · cases h

/-- What a child declares is spoken in the vocabulary of the child. -/
lemma spokenIn_of_tparameterOfChild {name : String} {child : Node} {p : Tparameter}
    (spoken : child.SpokenIn V) (h : tparameterOfChild name child = .ok p) :
    p.form.SpokenIn V := by
  unfold tparameterOfChild at h
  split at h
  · split at h
    · obtain rfl := Except.ok.inj h
      exact spoken.children
    · cases h
  · split at h
    · cases h
    · split at h
      · next default children =>
        obtain rfl := Except.ok.inj h
        exact spoken.children.of_mem (by rw [children]; exact List.mem_cons_self)
      · cases h

/-- A template speaks the words of its declaration. -/
lemma spokenIn_of_ofDeclaration {decl : Node} (spoken : decl.SpokenIn V)
    (h : ofDeclaration decl s = .ok t) : t.SpokenIn V := by
  obtain ⟨_, _, body, tparameters⟩ := parts_of_ofDeclaration h
  refine ⟨spoken.children.of_mem body, fun p hp => ?_⟩
  rcases tparameters p hp with ⟨e, he, read⟩ | ⟨child, hc, read⟩
  · refine spokenIn_of_tparameterOfEntry (fun x string => ?_) read
    exact spoken.entries (Entry.mem_strings he string)
  · exact spokenIn_of_tparameterOfChild (spoken.children.of_mem hc) read

/-- A declaration is read in the same way anywhere. -/
lemma ofDeclaration_rehome (decl : Node) (s s' : Scope) :
    ofDeclaration decl s' = (ofDeclaration decl s).map fun t => t.rehome s' := by
  unfold ofDeclaration
  dsimp only
  split
  · rfl
  · split <;> rfl

/-! ## References -/

mutual

/-- A node is checked alike under scopes that concur in a vocabulary that it is spoken in. -/
lemma badReferences_concurs (h : s.Concurs V s') (tparameters : List Tparameter) :
    (n : Node) → n.SpokenIn V →
      badReferences s tparameters n = badReferences s' tparameters n
  | ⟨name, entries, children, span⟩, spoken => by
    have inside : Node.AllSpokenIn V children := spoken.children
    rw [badReferences, badReferences, badReferencesOfAll_concurs h tparameters children inside,
      badReferencesOfHolders_concurs h tparameters children inside, h.declares_eq spoken.name]
    -- the check asks a scope whether the name is bound, and if it is, whether to a template;
    -- related lookups agree on both
    generalize s.lookup name.inner = a, s'.lookup name.inner = a', h.lookup spoken.name = related
    cases related with
    | none => rfl
    | some bindings => cases bindings <;> rfl

lemma badReferencesOfAll_concurs (h : s.Concurs V s') (tparameters : List Tparameter) :
    (nodes : List Node) → Node.AllSpokenIn V nodes →
      badReferencesOfAll s tparameters nodes = badReferencesOfAll s' tparameters nodes
  | [], _ => rfl
  | n :: rest, spoken => by
    obtain ⟨first, later⟩ := Node.allSpokenIn_cons.1 spoken
    rw [badReferencesOfAll, badReferencesOfAll, badReferences_concurs h tparameters n first,
      badReferencesOfAll_concurs h tparameters rest later]

lemma badReferencesOfHolders_concurs (h : s.Concurs V s') (tparameters : List Tparameter) :
    (holders : List Node) → Node.AllSpokenIn V holders →
      badReferencesOfHolders s tparameters holders = badReferencesOfHolders s' tparameters holders
  | [], _ => rfl
  | ⟨name, entries, held, span⟩ :: rest, spoken => by
    obtain ⟨first, later⟩ := Node.allSpokenIn_cons.1 spoken
    rw [badReferencesOfHolders, badReferencesOfHolders,
      badReferencesOfAll_concurs h tparameters held first.children,
      badReferencesOfHolders_concurs h tparameters rest later]

end

lemma badReferencesOfDefault_concurs (h : s.Concurs V s') (p : Tparameter)
    (spoken : p.form.SpokenIn V) :
    badReferencesOfDefault s p = badReferencesOfDefault s' p := by
  obtain ⟨name, span, form⟩ := p
  cases form with
  | positional => rfl
  | named => rfl
  | node default => exact badReferences_concurs h [] default spoken
  | splice default => exact badReferencesOfAll_concurs h [] default spoken

/-- **A template is checked alike at homes that concur.** -/
theorem allBadReferences_rehome (homes : t.home.Concurs V home) (spoken : t.SpokenIn V) :
    (t.rehome home).allBadReferences = t.allBadReferences := by
  have defaults : ∀ p ∈ t.tparameters,
      badReferencesOfDefault t.home p = badReferencesOfDefault home p :=
    fun p declared => badReferencesOfDefault_concurs homes p (spoken.defaults p declared)
  unfold allBadReferences
  rw [badReferences_concurs homes t.tparameters t.body spoken.body, List.flatMap_congr defaults]
  rfl

end Template

end Stencil
