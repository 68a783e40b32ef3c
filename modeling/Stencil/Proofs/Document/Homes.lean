import Stencil.Proofs.Document.Declarations
import Stencil.Proofs.Scope.Frames

/-!
# The homes of declarations

A declaration is read under the scope of those before it, which is the home of its template, and is
then bound on that scope.  Names can come again, declarations can be malformed, and the outer scope
can bind the same names and belong to another document.

`Scope.Sees` says what a scope answers that has some declarations bound on an outer scope: the last
one under a name if there is one, and what was there before if not.  The scope of all declarations
answers so for all of them, and each home for those before (`declarations_see_earlier_ones`).  What
is declared in the document is the same for all of these scopes, since that is marked before the
first declaration is read.
-/

namespace Stencil

/-- The local binding of a declaration: of the template that it declares, or of none if it is
malformed. -/
def Binding.IsDeclarationOf (b : Binding) (decl : Node) : Prop :=
  ∃ template : Option Template, b = .template template .declared none decl.name.span ∧
    (template = none ↔ ¬decl.IsDeclaration) ∧ ∀ t ∈ template, t.IsDeclaredBy decl t.home

namespace Scope

variable {s s' outer : Scope} {names : List String} {before : List Node} {name : String}
variable {height : Nat}

/-! ## Frames by their height -/

/-- The frame of a scope at a height, which is counted from the root. -/
def frameAt? (s : Scope) (height : Nat) : Option (Keyed Binding) :=
  s.frames.reverse[height]?

lemma frameAt?_bind_self (s : Scope) (name : String) (b : Binding) (kind : FrameKind) :
    (s.bind name b kind).frameAt? s.depth = some [(name, b)] := by
  rw [frameAt?, frames_bind, List.reverse_cons, depth_eq_length_frames, ← List.length_reverse,
    List.getElem?_concat_length]

/-- A scope keeps its frames when others are pushed. -/
lemma frameAt?_of_suffix (pushed : s.frames <:+ s'.frames) (inside : height < s.depth) :
    s'.frameAt? height = s.frameAt? height := by
  obtain ⟨above, split⟩ := pushed
  rw [depth_eq_length_frames, ← List.length_reverse] at inside
  rw [frameAt?, ← split, List.reverse_append, List.getElem?_append_left inside, frameAt?]

/-! ## Binding one declaration after another -/

lemma isDeclarationOf_bindDeclaration (decl : Node) (home : Scope) :
    (Binding.template (Template.ofDeclaration decl home).toOption .declared none
      decl.name.span).IsDeclarationOf decl := by
  refine ⟨_, rfl, ?_⟩
  rcases read : Template.ofDeclaration decl home with problems | t
  · have ill : ¬decl.IsDeclaration := by
      rw [← Template.exists_ofDeclaration_iff home, read]
      simp
    exact ⟨iff_of_true rfl ill, nofun⟩
  · obtain ⟨is, declared⟩ := Template.ofDeclaration_eq_ok_iff.1 read
    refine ⟨iff_of_false nofun (not_not.2 is), ?_⟩
    rintro _ ⟨⟩
    exact declared.home.symm ▸ declared

lemma suffix_frames_bindDeclarations (s : Scope) (declarations : List Node) :
    s.frames <:+ (declarations.foldl bindDeclaration s).frames :=
  List.foldlRecOn (motive := fun made : Scope => s.frames <:+ made.frames) declarations _
    List.suffix_rfl fun _ pushed _ _ => pushed.trans (List.suffix_cons _ _)

/-! ## What is seen -/

/-- What a scope answers that has declarations bound on an outer scope, in a document that declares
some names.  Each declaration has a frame, and its binding is what its name is looked up as unless a
later one has the same name.  The frames are counted from the root up, so that a frame keeps its
number when others are pushed. -/
structure Sees (s : Scope) (names : List String) (before : List Node) (outer : Scope) : Prop where
  depth : s.depth = outer.depth + 1 + before.length
  bound : ∀ earlier decl later, before = earlier ++ decl :: later →
    ∃ b : Binding, b.IsDeclarationOf decl ∧
      s.frameAt? (outer.depth + 1 + earlier.length) = some [(decl.name.inner, b)] ∧
      (decl.name.inner ∉ later.map (fun d => d.name.inner) →
        s.lookup decl.name.inner = some b)
  others : ∀ name ∉ before.map fun d => d.name.inner, s.lookup name = outer.lookup name
  declares : ∀ name, s.declares name = true ↔ name ∈ names

lemma sees_enterDocument (outer : Scope) (names : List String) :
    (outer.enterDocument names).Sees names [] outer where
  depth := rfl
  bound earlier decl later split := by simp at split
  others name _ := lookup_enterDocument outer names name
  declares name := List.contains_iff_mem

/-- What is seen with one more declaration. -/
lemma Sees.bindDeclaration (h : s.Sees names before outer) (decl : Node) :
    (s.bindDeclaration decl).Sees names (before ++ [decl]) outer where
  depth := by
    rw [List.length_append, List.length_singleton, ← Nat.add_assoc, ← h.depth]
    rfl
  -- an earlier declaration keeps its frame; its name is hidden if the new one has it
  bound earlier one later split := by
    rcases List.eq_nil_or_concat later with rfl | ⟨later, last, rfl⟩
    · -- the declaration that was bound just now
      obtain ⟨rfl, same⟩ := List.append_inj' split rfl
      obtain rfl := List.singleton_inj.1 same
      refine ⟨_, isDeclarationOf_bindDeclaration decl s, ?_, fun _ => ?_⟩
      · rw [← h.depth]
        exact frameAt?_bind_self ..
      · rw [lookup_bindDeclaration, if_pos rfl]
    · rw [List.concat_eq_append, ← List.cons_append, ← List.append_assoc] at split
      obtain ⟨shorter, same⟩ := List.append_inj' split rfl
      obtain rfl := List.singleton_inj.1 same
      obtain ⟨b, isOf, frame, found⟩ := h.bound earlier one later shorter
      refine ⟨b, isOf, ?_, fun unrepeated => ?_⟩
      · have inside : outer.depth + 1 + earlier.length < s.depth := by
          rw [h.depth, shorter, List.length_append, List.length_cons]
          omega
        have pushed : s.frames <:+ (s.bindDeclaration decl).frames := List.suffix_cons _ _
        rw [frameAt?_of_suffix pushed inside, frame]
      · rw [List.map_concat, List.concat_eq_append, List.mem_append, not_or, List.mem_singleton]
          at unrepeated
        rw [lookup_bindDeclaration, if_neg (Ne.symm unrepeated.2), found unrepeated.1]
  others name unbound := by
    rw [List.map_append, List.mem_append, not_or, List.map_singleton, List.mem_singleton] at unbound
    rw [lookup_bindDeclaration, if_neg (Ne.symm unbound.2), h.others name unbound.1]
  declares := h.declares

/-- Declarations that are bound one after another are seen. -/
lemma sees_bindDeclarations (outer : Scope) (names : List String) (before : List Node) :
    (before.foldl Scope.bindDeclaration (outer.enterDocument names)).Sees names before outer := by
  induction before using List.reverseRecOn with
  | nil => exact sees_enterDocument outer names
  | append_singleton earlier decl ih =>
    rw [List.foldl_append]
    exact ih.bindDeclaration decl

/-- Each declaration has a frame with the binding that was read at its home. -/
lemma frameAt?_bindDeclarations (outer : Scope) (names : List String) (earlier later : List Node)
    (decl : Node) :
    let home := earlier.foldl Scope.bindDeclaration (outer.enterDocument names)
    (later.foldl Scope.bindDeclaration (home.bindDeclaration decl)).frameAt?
        (outer.depth + 1 + earlier.length) =
      some [(decl.name.inner,
        .template (Template.ofDeclaration decl home).toOption .declared none decl.name.span)] := by
  intro home
  have depth : home.depth = outer.depth + 1 + earlier.length :=
    (sees_bindDeclarations outer names earlier).depth
  have inside : home.depth < (home.bindDeclaration decl).depth := Nat.lt_succ_self _
  rw [← depth, frameAt?_of_suffix (suffix_frames_bindDeclarations _ later) inside]
  exact frameAt?_bind_self ..

end Scope

/-- **Declarations see what precedes them.**  Whatever was reported before, the scope that
collecting ends with sees all declarations, and the home of each template that a declaration is
bound to sees the declarations before it and lies below. -/
theorem declarations_see_earlier_ones (policy : CollisionPolicy) (declarations : List Node)
    (outer : Scope) (before : Journal) :
    let names := declarations.map fun d => d.name.inner
    let scope := (declarations.foldl (Collection.add policy)
      ⟨outer.enterDocument names, 0, before⟩).scope
    (collect policy declarations outer).1 = scope ∧
    scope.Sees names declarations outer ∧
    ∀ earlier decl later t, declarations = earlier ++ decl :: later →
      scope.frameAt? (outer.depth + 1 + earlier.length) =
        some [(decl.name.inner, .template (some t) .declared none decl.name.span)] →
      t.home.Sees names earlier outer ∧ t.home.frames <:+ scope.frames := by
  intro names scope
  have bound : scope = declarations.foldl Scope.bindDeclaration (outer.enterDocument names) :=
    Collection.scope_foldl_add ..
  refine ⟨(Collection.scope_foldl_add ..).trans bound.symm, ?_, ?_⟩
  · rw [bound]
    exact Scope.sees_bindDeclarations outer names declarations
  · -- the frame at this height holds the binding that was made there, and a binding holds a
    -- template only if the declaration was well-formed, with the scope of that moment for its home
    intro earlier decl later t split frame
    have home : t.home = earlier.foldl Scope.bindDeclaration (outer.enterDocument names) := by
      rw [bound, split, List.foldl_append, List.foldl_cons,
        Scope.frameAt?_bindDeclarations] at frame
      rcases read : Template.ofDeclaration decl
        (earlier.foldl Scope.bindDeclaration (outer.enterDocument names)) with problems | made
      · rw [read] at frame
        cases frame
      · rw [read] at frame
        cases frame
        exact (Template.ofDeclaration_eq_ok_iff.1 read).2.home
    rw [home, bound, split, List.foldl_append]
    exact ⟨Scope.sees_bindDeclarations outer names earlier,
      Scope.suffix_frames_bindDeclarations _ _⟩

end Stencil
