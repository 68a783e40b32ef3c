import Stencil.Proofs.Template.Concurrence

/-!
# Expansion under scopes that concur

A node that speaks the vocabulary of two scopes that concur is read alike under both
(`Scope.Concurs.reading`): what it is looked up to leads to the same nodes, under scopes that concur
again.  So a whole run under the one scope is a run under the other (`Expands.concurs`).

The induction is on the run.  It changes the vocabulary on the way: what an argument has captured
speaks that of its call, and the body of a template that of its home.

Compared with a simulation this asks more of the scopes and less of the statement: the nodes are the
same on both sides, and the homes of templates may differ as long as they concur.  It is what is
needed where a document has a declaration more, since then every home of a template differs.
-/

namespace Stencil

/-- Readings that lead to the same expansion under scopes that concur on a vocabulary.  A template's
body is read under its home, so a call asks that the homes concur on what the body speaks, which
need not be the vocabulary of the call. -/
inductive Reading.Concurs (V : String → Prop) : Reading → Reading → Prop
  | nothing : Reading.Concurs V .nothing .nothing
  | kept (call : Node) : Reading.Concurs V (.kept call) (.kept call)
  | plain {m : Node} (spoken : m.SpokenIn V) : Reading.Concurs V (.plain m) (.plain m)
  | captured {W : String → Prop} {nodes : List Node} {inner inner' : Scope}
      (scopes : inner.Concurs W inner') (spoken : Node.AllSpokenIn W nodes) :
      Reading.Concurs V (.captured nodes inner) (.captured nodes inner')
  | call {W : String → Prop} {t : Template} {home : Scope} {call : Node}
      (knows : ∀ w, V w → W w) (homes : t.home.Concurs W home) (speaks : t.SpokenIn W)
      (spoken : call.SpokenIn V) : Reading.Concurs V (.call t call) (.call (t.rehome home) call)

variable {V : String → Prop} {s s' : Scope} {n : Node}

lemma Node.SpokenIn.rename (spoken : n.SpokenIn V) {name : Spanned String} (word : V name.inner) :
    (n.rename name).SpokenIn V := by
  intro w hw
  rw [names_eq, strings_eq] at hw
  rcases hw with hw | hw
  · rcases List.mem_cons.1 hw with rfl | hw
    · exact word
    · exact spoken.children w (.inl hw)
  · exact spoken w (.inr (strings_eq n ▸ hw))

namespace Scope.Concurs

/-! ## Readings -/

variable (h : s.Concurs V s')
include h

lemma readMarker (spoken : n.SpokenIn V) :
    Reading.Concurs V (s.readMarker n).1 (s'.readMarker n).1 ∧
      (s.readMarker n).2 = (s'.readMarker n).2 := by
  unfold Scope.readMarker
  split
  · next target sole _ =>
    have word : V target.inner := spoken.entries (Node.mem_strings_of_soleString? sole)
    generalize s.lookup target.inner = a, s'.lookup target.inner = a', h.lookup word = related
    cases related with
    | none => exact ⟨.nothing, rfl⟩
    | some bindings =>
      cases bindings with
      | splice scopes spoken => exact ⟨.captured scopes spoken, rfl⟩
      | _ => exact ⟨.nothing, rfl⟩
  · exact ⟨.nothing, rfl⟩

lemma readRenamed (spoken : n.SpokenIn V) {value : Spanned Scalar}
    (string : ∀ x, value.inner = .string x → V x) :
    Reading.Concurs V (s.readRenamed n value).1 (s'.readRenamed n value).1 ∧
      (s.readRenamed n value).2 = (s'.readRenamed n value).2 := by
  unfold Scope.readRenamed
  split
  · next x hx =>
    have renamed : (n.rename ⟨x, value.span⟩).SpokenIn V := spoken.rename (string x hx)
    dsimp only
    generalize s.lookup x = a, s'.lookup x = a', h.lookup (string x hx) = related
    cases related with
    | none => exact ⟨.plain renamed, rfl⟩
    | some bindings =>
      cases bindings with
      | malformed => exact ⟨.kept _, rfl⟩
      | template knows homes speaks => exact ⟨.call knows homes speaks renamed, rfl⟩
      | _ => exact ⟨.plain renamed, rfl⟩
  · exact ⟨.plain spoken, rfl⟩

/-- **A node that speaks the vocabulary is read alike** under scopes that concur. -/
theorem reading (spoken : n.SpokenIn V) :
    Reading.Concurs V (s.reading n).1 (s'.reading n).1 ∧ (s.reading n).2 = (s'.reading n).2 := by
  unfold Scope.reading
  split
  · exact h.readMarker spoken
  · -- the scopes are forgotten behind what they look up, so that the relation of the two bindings
    -- decides every case
    generalize s.lookup n.name.inner = a, s'.lookup n.name.inner = a',
      h.lookup spoken.name = related
    cases related with
    | none => exact ⟨.plain spoken, h.unboundName_eq spoken.name⟩
    | some bindings =>
      cases bindings with
      | malformed => exact ⟨.kept n, rfl⟩
      | template knows homes speaks => exact ⟨.call knows homes speaks spoken, rfl⟩
      | value string => exact h.readRenamed spoken string
      | node scopes inside =>
        exact ⟨.captured scopes (Node.allSpokenIn_cons.2 ⟨inside, by simp [Node.AllSpokenIn]⟩), rfl⟩
      | splice => exact ⟨.nothing, rfl⟩

lemma exists_reading (spoken : n.SpokenIn V) {r : Reading} {problems : List Diagnostic}
    (read : s.reading n = (r, problems)) :
    ∃ r', s'.reading n = (r', problems) ∧ Reading.Concurs V r r' := by
  obtain ⟨concurs, same⟩ := h.reading spoken
  rw [read] at concurs same
  exact ⟨_, Prod.ext rfl same.symm, concurs⟩

end Scope.Concurs

/-! ## Runs -/

/-- What is expanded is spoken in a vocabulary. -/
def Subject.SpokenIn (V : String → Prop) : Subject → Prop
  | .node n => n.SpokenIn V
  | .siblings nodes => Node.AllSpokenIn V nodes

/-- **A run under a scope is a run under every scope that concurs**, if what is expanded speaks
their vocabulary. -/
theorem Expands.concurs {c : Config} {used : Nat} {depth : Depth} {x : Subject} {e : Expansion}
    {k : Nat} (run : Expands c used depth s x e k) (scopes : s.Concurs V s')
    (spoken : x.SpokenIn V) : Expands c used depth s' x e k := by
  -- the other scope and the vocabulary change with each step, so both are generalised; the limits
  -- are the same and so are the checks
  induction run generalizing s' V with
  | nothing reading =>
    obtain ⟨_, reading', ⟨⟩⟩ := scopes.exists_reading spoken reading
    exact .nothing reading'
  | kept reading =>
    obtain ⟨_, reading', ⟨⟩⟩ := scopes.exists_reading spoken reading
    exact .kept reading'
  | plain reading _ ih =>
    obtain ⟨_, reading', concurs⟩ := scopes.exists_reading spoken reading
    cases concurs with
    | plain inside =>
      rw [scopes.entriesOf_eq fun w hw => inside.entries hw]
      exact .plain reading' (ih scopes inside.children)
  | captured reading _ ih =>
    obtain ⟨_, reading', concurs⟩ := scopes.exists_reading spoken reading
    cases concurs with
    | captured inner inside => exact .captured reading' (ih inner inside)
  | limited reading check =>
    obtain ⟨_, reading', concurs⟩ := scopes.exists_reading spoken reading
    cases concurs with
    | call => exact .limited reading' check
  | refused reading check binding =>
    obtain ⟨_, reading', concurs⟩ := scopes.exists_reading spoken reading
    cases concurs with
    | call knows homes speaks written =>
      have calls := Template.bindCall_concurs homes speaks scopes knows written
      rw [binding] at calls
      generalize binding' : Template.bindCall _ _ s' = made at calls
      obtain ⟨frame', faults'⟩ := made
      -- calls that concur are refused together, for the same faults
      obtain ⟨⟨⟩, rfl⟩ := calls
      exact .refused reading' check binding'
  | called reading check binding _ ih =>
    obtain ⟨_, reading', concurs⟩ := scopes.exists_reading spoken reading
    cases concurs with
    | call knows homes speaks written =>
      have calls := Template.bindCall_concurs homes speaks scopes knows written
      rw [binding] at calls
      generalize binding' : Template.bindCall _ _ s' = made at calls
      obtain ⟨frame', faults'⟩ := made
      -- the body is read under frames that concur on what it speaks
      obtain ⟨⟨frames⟩, rfl⟩ := calls
      exact .called reading' check binding' (ih frames speaks.body)
  | nil => exact .nil
  | cons _ _ ih₁ ih₂ =>
    obtain ⟨first, later⟩ := Node.allSpokenIn_cons.1 spoken
    exact .cons (ih₁ scopes first) (ih₂ scopes later)

/-- A node that speaks the vocabulary expands alike under scopes that concur. -/
lemma Scope.Concurs.expandNode_eq (h : s.Concurs V s') (spoken : n.SpokenIn V) (c : Config)
    (used : Nat) (depth : Depth) : expandNode c used depth s n = expandNode c used depth s' n := by
  obtain ⟨_, run⟩ := exists_expands c used depth s (.node n)
  exact (run.concurs h spoken).eq_expansion

end Stencil
