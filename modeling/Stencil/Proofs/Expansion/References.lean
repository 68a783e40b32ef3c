import Mathlib.Data.List.Nodup
import Stencil.Proofs.Expansion.Names
import Stencil.Proofs.Scope.Visible
import Stencil.Proofs.Template.References

/-!
# References during an expansion

What an expansion reports as missing was found before, if all that its scope comes to was vetted:
the references of every template were checked where it was declared, and captured nodes miss nothing
but what was found there.

`Scope.Vets` says this of one scope, relative to the names that templates are declared under and to
the references found.  Values are kept apart from the declared names, so that no string becomes a
call.  The frame of a call vets what its home and the scope of the call vet
(`Scope.throughout_frame`), and reading a node under such a scope reports nothing but what it
misses (`Scope.missing_reading`).
-/

namespace Stencil

open Diagnostic

/-- A template whose references were checked at its declaration, where nothing but templates was
bound. -/
structure Template.Checked (found : List Diagnostic) (t : Template) : Prop where
  distinct : (t.tparameters.map Tparameter.name).Nodup
  references : t.allBadReferences ⊆ found
  home : ∀ name b, t.home.lookup name = some b → b.isTemplate = true

/-- A binding that brings in no declared name as a string, misses nothing but what was found, and is
a template only under a declared name.  Names and strings are kept apart because a bound string is
read as a name: it would be a call that no check has seen. -/
structure Binding.Vetted (names : List String) (found : List Diagnostic) (name : String)
    (b : Binding) : Prop where
  unwritten : ∀ w ∈ b.strings, w ∉ names
  captured : ∀ inner, b.scope? = some inner → inner.missingOfAll b.nodes ⊆ found
  declared : ∀ t origin file span, b = .template t origin file span →
    name ∈ names ∧ origin = .declared ∧ ∀ made ∈ t, made.Checked found

/-- A scope that binds nothing but what is vetted. -/
structure Scope.Vets (names : List String) (found : List Diagnostic) (s : Scope) : Prop where
  proper : s.Proper
  binds : ∀ name b, s.lookup name = some b → b.Vetted names found name

variable {names : List String} {found : List Diagnostic} {s : Scope} {name : String} {b : Binding}

/-! ## Reading a node -/

/-- What a reading misses that leads to nodes under the same scope. -/
def Reading.missing (s : Scope) : Reading → List Diagnostic
  | .plain m => s.missingOfAll m.children
  | .call _ m => s.missingOfHolders m.children
  | _ => []

namespace Scope

@[simp] lemma references_entriesOf (s : Scope) (entries : List Entry) :
    references (s.entriesOf entries).2 = [] := by
  simp only [entriesOf, references, List.filter_eq_nil_iff, List.mem_flatMap, List.mem_map]
  rintro d ⟨_, ⟨e, _, rfl⟩, hd⟩
  have silent := s.references_valueOf e.value
  rw [references, List.filter_eq_nil_iff] at silent
  exact silent d hd

lemma Vets.not_imported (h : s.Vets names found) (bound : s.lookup name = some b) (file : String) :
    b.isImportFrom file = false := by
  have declared := (h.binds name b bound).declared
  cases b with
  | template t origin file span =>
    obtain ⟨_, rfl, _⟩ := declared _ _ _ _ rfl
    rfl
  | _ => rfl

lemma Vets.lacksImport_eq_false (h : s.Vets names found) (word : String) :
    s.lacksImport word = false := by
  rw [← Bool.not_eq_true, lacksImport_iff h.proper]
  rintro ⟨q, _, other, b, bound, imported⟩
  rw [h.not_imported bound] at imported
  cases imported

/-- No string that a scope binds is the name of a template. -/
lemma Vets.not_template (h : s.Vets names found) {v : Spanned Scalar} {x : String}
    (bound : s.lookup name = some (.value v)) (string : v.inner = .string x)
    (t : Option Template) (origin : Origin) (file : Option String) (span : Span) :
    s.lookup x ≠ some (.template t origin file span) := by
  intro template
  have declared := ((h.binds x _ template).declared _ _ _ _ rfl).1
  exact (h.binds name _ bound).unwritten x (Scalar.mem_string?.2 string) declared

lemma missing_readRenamed (h : s.Vets names found) {n : Node} {v : Spanned Scalar}
    (bound : s.lookup n.name.inner = some (.value v)) :
    references (s.readRenamed n v).2 ++ (s.readRenamed n v).1.missing s ⊆
      s.missingOfAll n.children := by
  unfold readRenamed
  split
  · next x string =>
    dsimp only
    split
    · next template => exact absurd template (h.not_template bound string _ _ _ _)
    · simp [Reading.missing, Node.rename]
  · simp [Problem.kind, Reading.missing]

/-- **What is reported of a node is what it misses**, and what is read with it under the same scope
misses no more. -/
lemma missing_reading (h : s.Vets names found) (n : Node) :
    references (s.reading n).2 ++ (s.reading n).1.missing s ⊆ s.missing n := by
  rw [missing_eq]
  unfold reading
  split
  · -- a marker misses its target just if nothing is bound to it
    unfold readMarker
    rcases n.soleString? with _ | target
    · simp [Problem.kind, Reading.missing]
    · rcases n.children with _ | ⟨_, _⟩
      · rcases bound : s.lookup target.inner with _ | (_ | _ | _ | _) <;>
          simp [bound, Problem.kind, Reading.missing]
      · simp [Problem.kind, Reading.missing]
  · rcases bound : s.lookup n.name.inner with _ | (⟨_ | t⟩ | v | ⟨m, inner⟩ | ⟨nodes, inner⟩)
    · -- an unbound name is missed if it is declared later; no import is lacking, since none is
      -- bound
      simp only [Reading.missing, unboundName, h.lacksImport_eq_false, Bool.or_false]
      split <;> simp [Problem.kind]
    · simp [readCall, Reading.missing]
    · simp [readCall, Reading.missing]
    · exact missing_readRenamed h bound
    · simp [Reading.missing]
    · simp [Problem.kind, Reading.missing]

end Scope

/-! ## The frame of a call -/

section Call

variable {t : Template} {origin : Origin} {file : Option String} {span : Span} {call : Node}
variable {frame : Scope}

/-- A word that is not declared is bound to nothing where a template was checked. -/
lemma Template.Checked.lookup_home (checked : t.Checked found) (home : t.home.Vets names found)
    {word : String} (undeclared : word ∉ names) : t.home.lookup word = none := by
  rcases bound : t.home.lookup word with _ | b
  · rfl
  · have isTemplate := checked.home word b bound
    cases b with
    | template => exact absurd ((home.binds word _ bound).declared _ _ _ _ rfl).1 undeclared
    | _ => cases isTemplate

/-- A default misses nothing under the home of its template but what was found. -/
lemma Template.Checked.missing_default (checked : t.Checked found) (home : t.home.Vets names found)
    {p : Tparameter} (declared : p ∈ t.tparameters) (unwritten : ∀ w ∈ p.form.strings, w ∉ names)
    (default : t.fallback? p = some b) {inner : Scope} (captured : b.scope? = some inner) :
    inner.missingOfAll b.nodes ⊆ found := by
  have reported : badReferencesOfDefault t.home p ⊆ found := by
    refine List.Subset.trans (fun r hr => ?_) checked.references
    exact List.mem_append_right _ (List.mem_flatMap.2 ⟨p, declared, hr⟩)
  have foresees := foresees_home checked.home
  have unbound := fun w hw => checked.lookup_home home (unwritten w hw)
  rw [fallback?] at default
  rw [badReferencesOfDefault] at reported
  -- a default is checked at the declaration in the form that it has; a value has nothing to check
  rcases form : p.form with _ | v | n | nodes <;> rw [form] at default reported unbound
  · cases default
  · obtain rfl := Option.some.inj default
    cases captured
  · obtain rfl := Option.some.inj default
    obtain rfl := Option.some.inj captured
    dsimp only at reported
    rw [← missing_eq_badReferences foresees _ unbound] at reported
    simpa [Binding.nodes, Scope.missingOfAll] using reported
  · obtain rfl := Option.some.inj default
    obtain rfl := Option.some.inj captured
    dsimp only at reported
    rwa [← missing_eq_badReferencesOfAll foresees _ unbound] at reported

/-- The body of a template misses nothing under its frames but what was found. -/
lemma Template.Checked.missing_body (checked : t.Checked found) (home : t.home.Vets names found)
    (unwritten : ∀ w ∈ t.body.strings, w ∉ names) (isFrame : t.IsFrame call s frame) :
    frame.missing t.body ⊆ found := by
  -- a frame binds the tparameters to what they take and looks the rest up at home, which is what
  -- the check assumed
  have foresees : Foresees t.home t.tparameters frame :=
    { taken := fun name p given => by
        obtain ⟨declared, rfl⟩ := of_tparameter? given
        obtain ⟨b, bound, ⟨q, hq, same, takes⟩, _⟩ := isFrame.binds p declared
        obtain rfl := List.inj_on_of_nodup_map checked.distinct hq declared same
        exact ⟨b, bound, takes⟩
      others := fun name free => isFrame.others name (tparameter?_eq_none_iff.1 free)
      declares := fun name => by
        obtain ⟨bs, rfl, _⟩ := isFrame.pushed
        exact Scope.declares_extend _ _ _ _
      templates := checked.home }
  rw [missing_eq_badReferences foresees _ fun w hw => checked.lookup_home home (unwritten w hw)]
  exact List.Subset.trans (List.subset_append_left _ _) checked.references

/-- What a call binds is vetted if its scope and the home of the template are, and if what it writes
and holds is. -/
lemma vetted_of_bindsAlike (hs : s.Vets names found) (home : t.home.Vets names found)
    (template : (Binding.template (some t) origin file span).Vetted names found name)
    (unwritten : ∀ w ∈ call.strings, w ∉ names)
    (held : s.missingOfHolders call.children ⊆ found) (made : t.BindsAlike call s s b b)
    (other : String) : b.Vetted names found other where
  unwritten w hw := by
    -- its strings are written by the call, written by the template, or values that a vetted scope
    -- binds
    rcases made.mem_strings hw with written | ⟨p, declared, written⟩ | ⟨key, v, bound, string⟩
    · exact unwritten w written
    · exact template.unwritten w
        (List.mem_append_right _ (List.mem_flatMap.2 ⟨p, declared, written⟩))
    · have mem := Scalar.mem_string?.2 string
      rcases bound with bound | bound
      · exact (hs.binds key _ bound).unwritten w mem
      · exact (home.binds key _ bound).unwritten w mem
  captured inner captured := by
    cases made with
    | value => cases captured
    | @node holder child holds mem =>
      obtain rfl := Option.some.inj captured
      have inside := List.Subset.trans (Scope.missing_subset_missingOfAll mem)
        (Scope.missingOfAll_subset_missingOfHolders (s := s) holds)
      simpa [Binding.nodes, Scope.missingOfAll] using List.Subset.trans inside held
    | splice holds =>
      obtain rfl := Option.some.inj captured
      exact List.Subset.trans (Scope.missingOfAll_subset_missingOfHolders holds) held
    | @fallback p _ declared default =>
      have checked := (template.declared _ _ _ _ rfl).2.2 t rfl
      have own : ∀ w ∈ p.form.strings, w ∉ names := fun w hw => template.unwritten w
        (List.mem_append_right _ (List.mem_flatMap.2 ⟨p, declared, hw⟩))
      exact checked.missing_default home declared own default captured
  declared t' _ _ _ template := by
    have other := made.isTemplate_eq_false
    rw [template] at other
    cases other

/-- **The frame of a call vets** what its home and the scope of the call vet, with all that they
come to. -/
lemma Scope.throughout_frame (hs : s.Throughout (Vets names found))
    (bound : s.lookup name = some (.template (some t) origin file span))
    (unwritten : ∀ w ∈ call.strings, w ∉ names)
    (held : s.missingOfHolders call.children ⊆ found)
    (made : (t.bindCall call s).1 = some frame) : frame.Throughout (Vets names found) := by
  have home : t.home.Throughout (Vets names found) := hs.of_lookup bound rfl
  have vetted := fun {b} alike =>
    vetted_of_bindsAlike (b := b) hs.here home.here (hs.here.binds _ _ bound) unwritten held alike
  have isFrame := Template.isFrame_of_bindCall made
  obtain ⟨bs, rfl, alike⟩ := Template.exists_of_bindCall made
  refine home.extend ⟨home.here.proper.extend _ _, fun word b bound => ?_⟩ ?_
  · -- a word is a tparameter of the template, bound by the call, or is looked up at home
    rcases given : t.tparameter? word with _ | p
    · rw [isFrame.others _ (Template.tparameter?_eq_none_iff.1 given)] at bound
      exact home.here.binds _ _ bound
    · obtain ⟨declared, rfl⟩ := Template.of_tparameter? given
      obtain ⟨b', bound', _, alike⟩ := isFrame.binds p declared
      obtain rfl := Option.some.inj (bound.symm.trans bound')
      exact vetted alike _
  · intro pair hp inner captured
    rcases (alike pair hp).eq_of_scope? captured with rfl | rfl
    · exact hs
    · exact home

end Call

/-! ## A whole expansion -/

/-- What is expanded misses under a scope. -/
def Subject.missing (s : Scope) : Subject → List Diagnostic
  | .node n => s.missing n
  | .siblings nodes => s.missingOfAll nodes

/-- **An expansion reports no reference but those found before**, if all that its scope comes to is
vetted and what is expanded misses nothing but what was found. -/
theorem Expands.references_subset {c : Config} {used : Nat} {depth : Depth} {x : Subject}
    {e : Expansion} {k : Nat} (h : Expands c used depth s x e k)
    (vets : s.Throughout (Scope.Vets names found)) (unwritten : ∀ w ∈ x.strings, w ∉ names)
    (missing : x.missing s ⊆ found) : references e.journal.diagnostics ⊆ found := by
  -- a reading reports what the node misses and leaves the rest to what is read next; each case
  -- hands that on
  induction h with
  | @nothing _ _ s n _ reading =>
    have own := Scope.missing_reading vets.here n
    rw [reading] at own
    exact List.Subset.trans (List.append_subset.1 own).1 missing
  | @kept _ _ s n _ _ reading =>
    have own := Scope.missing_reading vets.here n
    rw [reading] at own
    exact List.Subset.trans (List.append_subset.1 own).1 missing
  | @plain _ _ s n m problems children _ reading _ ih =>
    have own := Scope.missing_reading vets.here n
    rw [reading] at own
    obtain ⟨reported, inside⟩ := List.append_subset.1 (List.Subset.trans own missing)
    have kept_children : m.children = n.children := by
      cases Scope.reads_of_reading_eq reading <;> rfl
    have inner := ih vets (fun w hw => unwritten w <|
      n.children_subset_strings (kept_children ▸ hw)) inside
    simpa using ⟨reported, inner⟩
  | captured reading _ ih =>
    cases Scope.reads_of_reading_eq reading with
    | @captured _ b _ bound captured =>
      -- captured nodes are vetted with their own scope: what they miss was found when they were
      -- captured
      have vetted := vets.here.binds _ _ bound
      exact ih (vets.of_lookup bound captured)
        (fun w hw => vetted.unwritten w (b.nodes_subset_strings hw)) (vetted.captured _ captured)
  | limited _ check => simp [Config.kind_of_exceededLimit check]
  | @refused _ _ s _ t call _ _ _ _ binding =>
    have silent := t.references_bindCall call s
    rw [binding] at silent
    simp [silent]
  | @called _ _ s n t call _ frame _ _ _ reading _ binding _ ih =>
    have silent := t.references_bindCall call s
    rw [binding] at silent
    have own := Scope.missing_reading vets.here n
    rw [reading] at own
    have held := (List.append_subset.1 (List.Subset.trans own missing)).2
    cases Scope.reads_of_reading_eq reading with
    | called bound entries children =>
      -- the template was checked at its declaration, and its frame vets what the home and this
      -- scope do
      have template := vets.here.binds _ _ bound
      have absent : ∀ w ∈ call.strings, w ∉ names := by
        rw [Node.strings_eq, entries, children, ← Node.strings_eq]
        exact unwritten
      have made := congrArg Prod.fst binding
      have checked := (template.declared _ _ _ _ rfl).2.2 t rfl
      have body : ∀ w ∈ t.body.strings, w ∉ names :=
        fun w hw => template.unwritten w (List.mem_append_left _ hw)
      have inner := ih (Scope.throughout_frame vets bound absent held made) body
        (checked.missing_body (vets.of_lookup bound rfl).here body
          (Template.isFrame_of_bindCall made))
      simpa [silent, Config.callJournal] using inner
  | nil => simp
  | @cons _ _ s n rest _ _ _ _ _ _ ih₁ ih₂ =>
    simp only [Subject.strings, Node.stringsAll_cons, List.forall_mem_append] at unwritten
    rw [Subject.missing, Scope.missingOfAll, List.append_subset] at missing
    rw [Expansion.journal_append, Journal.diagnostics_append, references_append]
    exact List.append_subset.2 ⟨ih₁ vets unwritten.1 missing.1, ih₂ vets unwritten.2 missing.2⟩

end Stencil
