import Stencil.Proofs.Diagnostic.Fault
import Stencil.Proofs.Expansion.Reading

/-!
# Names that no expansion lets through

The result of an expansion is made of the nodes that stand for themselves.  Such a node has a name
that is written somewhere, or one that a bound string gave it.  A written name is reported if it
ought to have been a marker or a call; a bound string is not looked at again, and goes through.

So a scope bars a name if writing it is reported under every scope that it comes to, and if no
string that it comes to is that name (`Scope.Bars`).  The pushed frame of a call bars what the
calling scope bars (`Scope.Bars.frame`), and with this the names of a whole expansion follow by
induction on its derivation (`Expands.not_mem_names`).
-/

namespace Stencil

open Diagnostic Journal

/-- A name that does not go through under a scope when it is written there. -/
def Scope.Reports (s : Scope) (word : String) : Prop :=
  word = expandWord ∨ s.declares word = true

/-- A binding that cannot bring a name into an expansion. -/
structure Binding.Bars (word : String) (b : Binding) : Prop where
  wellFormed : b.isMalformed = false
  unwritten : word ∉ b.strings
  reports : ∀ inner, b.scope? = some inner → inner.Reports word

/-- A scope that cannot bring a name into an expansion, whatever it comes to.  Both fields are
needed: the first is about nodes that are written under the scope itself, the second about those
that its bindings bring in. -/
structure Scope.Bars (word : String) (s : Scope) : Prop where
  reports : s.Reports word
  reached : ∀ b, s.Reaches b → b.Bars word

/-- The strings of what is expanded. -/
def Subject.strings : Subject → List String
  | .node n => n.strings
  | .siblings nodes => Node.stringsAll nodes

variable {word name : String} {s inner : Scope} {b : Binding}

namespace Scope.Bars

lemma captured (h : s.Bars word) (found : s.lookup name = some b)
    (captured : b.scope? = some inner) : inner.Bars word where
  reports := (h.reached b (.bound found)).reports inner captured
  reached _ further := h.reached _ (.within found captured further)

lemma extend {bs : List (String × Binding)} (h : s.Bars word)
    (hb : ∀ pair ∈ bs, pair.2.Bars word ∧
      ∀ inner, pair.2.scope? = some inner → inner.Bars word) (kind : FrameKind) :
    (s.extend bs kind).Bars word where
  reports := h.reports
  reached b reached := by
    rcases reaches_extend reached with reached | ⟨pair, hp, rfl | ⟨inner, captured, further⟩⟩
    · exact h.reached b reached
    · exact (hb pair hp).1
    · exact ((hb pair hp).2 inner captured).reached b further

lemma value_ne (h : s.Bars word) {v : Spanned Scalar} (found : s.lookup name = some (.value v)) :
    v.inner ≠ .string word :=
  fun written => (h.reached _ (.bound found)).unwritten (Scalar.mem_string?.2 written)

end Scope.Bars

/-! ## The frame of a call -/

lemma bars_captured (wellFormed : b.isMalformed = false) (unwritten : word ∉ b.strings)
    (captured : b.scope? = some inner) (bars : inner.Bars word) :
    b.Bars word ∧ ∀ inner, b.scope? = some inner → inner.Bars word := by
  have only : ∀ other, b.scope? = some other → other.Bars word := by
    intro other h
    rw [captured, Option.some.injEq] at h
    exact h ▸ bars
  exact ⟨⟨wellFormed, unwritten, fun other h => (only other h).reports⟩, only⟩

section Call

variable {t : Template} {origin : Origin} {file : Option String} {span : Span} {call : Node}

/-- What a call binds is barred if the call, the scope that it is read under, the template and the
template's home bar it. -/
lemma bars_of_bindsAlike (hs : s.Bars word) (home : t.home.Bars word)
    (template : (Binding.template (some t) origin file span).Bars word)
    (unwritten : word ∉ call.strings) (made : t.BindsAlike call s s b b) :
    b.Bars word ∧ ∀ inner, b.scope? = some inner → inner.Bars word := by
  have captured : ∀ inner, b.scope? = some inner → inner.Bars word := by
    intro inner captured
    rcases made.eq_of_scope? captured with rfl | rfl
    · exact hs
    · exact home
  refine ⟨⟨?_, fun written => ?_, fun inner h => (captured inner h).reports⟩, captured⟩
  · have other := made.isTemplate_eq_false
    cases b <;> first | rfl | cases other
  · -- a string of what a call binds is written by the call, written by the template, or the value
    -- of something bound
    rcases made.mem_strings written with written | ⟨p, declared, written⟩ | ⟨_, v, found, string⟩
    · exact unwritten written
    · exact template.unwritten
        (List.mem_append_right _ (List.mem_flatMap.2 ⟨p, declared, written⟩))
    · rcases found with found | found
      · exact hs.value_ne found string
      · exact home.value_ne found string

/-- A call keeps out of its frame what the scope keeps out, if the call does not write it. -/
lemma Scope.Bars.frame {frame : Scope} (hs : s.Bars word)
    (found : s.lookup name = some (.template (some t) origin file span))
    (unwritten : word ∉ call.strings) (made : (t.bindCall call s).1 = some frame) :
    frame.Bars word ∧ word ∉ t.body.strings := by
  have template := hs.reached _ (.bound found)
  have home := hs.captured found rfl
  obtain ⟨bs, rfl, binds⟩ := Template.exists_of_bindCall made
  refine ⟨home.extend (fun pair hp => ?_) .call, fun written => ?_⟩
  · exact bars_of_bindsAlike hs home template unwritten (binds pair hp)
  · exact template.unwritten (by rw [Binding.strings]; exact List.mem_append_left _ written)

end Call

/-! ## A whole expansion -/

/-- A node that stands for itself without a report does not bear a name that is barred. -/
lemma Scope.Bars.plain {n m : Node} {problems : List Diagnostic} (hs : s.Bars word)
    (reads : s.Reads n (.plain m) problems) (silent : problems = []) : m.name.inner ≠ word := by
  cases reads with
  | unbound ordinary found =>
    rintro same
    rcases hs.reports with rfl | declared
    · exact ordinary same
    · rw [unboundName, same, declared] at silent
      cases silent
  | renamed found string =>
    rintro rfl
    exact hs.value_ne found string
  | misnamed => cases silent

/-- **What a scope bars does not appear** in an expansion under it: if the expansion reports
nothing and the expanded nodes do not have the name for a string, then no node of the result bears
it. -/
theorem Expands.not_mem_names {c : Config} {used : Nat} {depth : Depth} {x : Subject}
    {e : Expansion} {k : Nat} (h : Expands c used depth s x e k) (bars : s.Bars word)
    (unwritten : word ∉ x.strings) (clean : e.journal.hasErrors = false) :
    word ∉ Node.namesAll e.nodes := by
  -- the induction is on the derivation; what is carried along is that the scope bars the name and
  -- that it is not written, and a report anywhere ends the case
  induction h with
  | nothing => simp
  | kept reading =>
    cases Scope.reads_of_reading_eq reading with
    | kept found => cases (bars.reached _ (.bound found)).wellFormed
  | @plain _ _ s n m problems children _ reading _ ih =>
    have reads := Scope.reads_of_reading_eq reading
    have kept_children : m.children = n.children := by cases reads <;> rfl
    rw [hasErrors_append, Bool.or_eq_false_iff] at clean
    have faults : AreOwnFaults (problems ++ (s.entriesOf m.entries).2) := by
      have own := s.areOwnFaults_reading n
      rw [reading] at own
      exact areOwnFaults_append.2 ⟨own, s.areOwnFaults_entriesOf _⟩
    -- nothing is reported of the node itself, so its name is not the barred one; its children are
    -- those that are written
    have silent := (hasErrors_report_eq_false_iff faults.areFaults).1 clean.1
    have inner := ih bars (fun written => unwritten <|
      n.children_subset_strings (kept_children ▸ written)) clean.2
    have own := bars.plain reads (List.append_eq_nil_iff.1 silent).1
    simpa [Node.names_eq, Node.rebuild, own.symm] using inner
  | captured reading _ ih =>
    cases Scope.reads_of_reading_eq reading with
    | @captured _ b _ found captured =>
      -- captured nodes come with their scope, and their strings are those of the binding
      refine ih (bars.captured found captured) (fun written => ?_) clean
      exact (bars.reached _ (.bound found)).unwritten (b.nodes_subset_strings written)
  | limited => simp
  | refused => simp
  | @called _ _ _ n _ call _ _ _ _ _ reading _ binding _ ih =>
    cases Scope.reads_of_reading_eq reading with
    | called found entries children =>
      have absent : word ∉ call.strings := by
        rw [Node.strings_eq, entries, children, ← Node.strings_eq]
        exact unwritten
      -- the frame bars the name if the calling scope does, and the body does not write it
      obtain ⟨frame, body⟩ := bars.frame found absent (congrArg Prod.fst binding)
      rw [hasErrors_append, Bool.or_eq_false_iff] at clean
      exact ih frame body clean.2
  | nil => simp
  | cons _ _ ih₁ ih₂ =>
    rw [Expansion.journal_append, hasErrors_append, Bool.or_eq_false_iff] at clean
    simp only [Subject.strings, Node.stringsAll_cons, List.mem_append, not_or] at unwritten
    rw [Expansion.nodes_append, Node.namesAll_append, List.mem_append, not_or]
    exact ⟨ih₁ bars unwritten.1 clean.1, ih₂ bars unwritten.2 clean.2⟩

end Stencil
