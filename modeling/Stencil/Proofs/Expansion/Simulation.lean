import Stencil.Proofs.Expansion.Derivation
import Stencil.Proofs.Expansion.Reading

/-!
# Simulation

Two runs are compared by saying which node under one scope stands for which node under another.
Such a correspondence speaks of the runs at their start; it knows nothing of the frames that calls
push, which bind nodes captured with the one scope and with the other.

`Correspondence.Subjects` closes a correspondence under what a run adds: siblings, and the frames of
one template over related bindings, where bindings are related that capture related nodes, however
deep.  What is left to show of a correspondence is that it is a simulation: corresponding nodes are
read alike.  Frames are always read alike, since they answer every lookup with related bindings
(`Correspondence.Answers`), so `Expands.simulate` carries a whole run over, with all that it
reports, counts and logs.

The relation on nodes is a parameter, and it relates nodes under a pair of scopes.  A correspondence
that is of use keeps a condition on the two scopes inside the relation itself, so that no condition
has to be carried along the run.
-/

namespace Stencil

/-! ## Vocabularies -/

/-- The names and the strings of a node belong to a vocabulary. -/
def Node.SpokenIn (V : String → Prop) (n : Node) : Prop :=
  ∀ w, w ∈ n.names ∨ w ∈ n.strings → V w

/-- The names and the strings of some nodes belong to a vocabulary. -/
def Node.AllSpokenIn (V : String → Prop) (nodes : List Node) : Prop :=
  ∀ w, w ∈ Node.namesAll nodes ∨ w ∈ Node.stringsAll nodes → V w

namespace Node

variable {V : String → Prop} {w : String}

lemma SpokenIn.children {n : Node} (h : n.SpokenIn V) : AllSpokenIn V n.children :=
  fun w hw => h w (hw.imp (fun mem => n.children_subset_names mem)
    fun mem => n.children_subset_strings mem)

lemma SpokenIn.name {n : Node} (h : n.SpokenIn V) : V n.name.inner :=
  h _ (.inl (by rw [names_eq]; exact List.mem_cons_self))

lemma SpokenIn.entries {n : Node} (h : n.SpokenIn V) (mem : w ∈ Entry.strings n.entries) : V w :=
  h _ (.inr (n.entries_subset_strings mem))

lemma AllSpokenIn.of_mem {n : Node} {nodes : List Node} (h : AllSpokenIn V nodes)
    (mem : n ∈ nodes) : n.SpokenIn V :=
  fun w hw => h w (hw.imp (fun hn => names_subset_namesAll mem hn)
    fun hs => strings_subset_stringsAll mem hs)

end Node

/-! ## Entries -/

/-- Entries read as the same, if each of their values does. -/
lemma Scope.entriesOf_congr {s s' : Scope} {f : Spanned Scalar → Spanned Scalar}
    {entries : List Entry} (same : ∀ e ∈ entries, s.valueOf e.value = s'.valueOf (f e.value)) :
    s.entriesOf entries = s'.entriesOf (entries.map (Entry.mapValue f)) := by
  have read : entries.map s.entryOf = entries.map fun e => s'.entryOf (e.mapValue f) := by
    refine List.map_congr_left fun e he => ?_
    unfold Scope.entryOf
    rw [same e he]
    rfl
  unfold Scope.entriesOf
  rw [List.map_map, read]
  rfl

/-! ## Correspondences -/

/-- Which node under one scope stands for which node under another. -/
def Correspondence : Type :=
  Scope → Node → Scope → Node → Prop

namespace Correspondence

mutual

/-- What is expanded alike under two scopes, if corresponding nodes are.  A subject stands for
itself under one scope, which is what lets two frames share bindings that have nothing to do with
the correspondence. -/
inductive Subjects (R : Correspondence) : Scope → Subject → Scope → Subject → Prop
  | same (s : Scope) (x : Subject) : Subjects R s x s x
  | node {s s' : Scope} {n n' : Node} (h : R s n s' n') : Subjects R s (.node n) s' (.node n')
  | nil {s s' : Scope} : Subjects R s (.siblings []) s' (.siblings [])
  | cons {s s' : Scope} {n n' : Node} {rest rest' : List Node}
      (head : Subjects R s (.node n) s' (.node n'))
      (tail : Subjects R s (.siblings rest) s' (.siblings rest')) :
      Subjects R s (.siblings (n :: rest)) s' (.siblings (n' :: rest'))
  /-- Anything, under two frames of one template. -/
  | frame (home : Scope) (x : Subject) {bs bs' : Keyed Binding}
      (related : Keyed.Related (Bindings R) bs bs') :
      Subjects R (home.extend bs .call) x (home.extend bs' .call) x

/-- Bindings that bring in what is expanded alike. -/
inductive Bindings (R : Correspondence) : Binding → Binding → Prop
  | same (b : Binding) : Bindings R b b
  | node {s s' : Scope} {n n' : Node} (h : Subjects R s (.node n) s' (.node n')) :
      Bindings R (.node n s) (.node n' s')
  | splice {s s' : Scope} {nodes nodes' : List Node}
      (h : Subjects R s (.siblings nodes) s' (.siblings nodes')) :
      Bindings R (.splice nodes s) (.splice nodes' s')

end

/-- Calls of a template that cannot be made, for the same problems, or that lead to frames under
which its body is expanded alike. -/
inductive Calls (R : Correspondence) (body : Node) :
    Option Scope × List Diagnostic → Option Scope × List Diagnostic → Prop
  | refused (problems : List Diagnostic) : Calls R body (none, problems) (none, problems)
  | made {frame frame' : Scope} (problems : List Diagnostic)
      (frames : R.Subjects frame (.node body) frame' (.node body)) :
      Calls R body (some frame, problems) (some frame', problems)

/-- Readings that lead to the same expansion. -/
inductive Readings (R : Correspondence) (s s' : Scope) : Reading → Reading → Prop
  | nothing : Readings R s s' .nothing .nothing
  | kept (call : Node) : Readings R s s' (.kept call) (.kept call)
  | plain {m m' : Node} (name : m.name = m'.name) (span : m.span = m'.span)
      (entries : s.entriesOf m.entries = s'.entriesOf m'.entries)
      (children : R.Subjects s (.siblings m.children) s' (.siblings m'.children)) :
      Readings R s s' (.plain m) (.plain m')
  | captured {inner inner' : Scope} {nodes nodes' : List Node}
      (related : R.Subjects inner (.siblings nodes) inner' (.siblings nodes')) :
      Readings R s s' (.captured nodes inner) (.captured nodes' inner')
  | call {t : Template} {call call' : Node} (name : call.name = call'.name)
      (span : call.span = call'.span)
      (calls : R.Calls t.body (t.bindCall call s) (t.bindCall call' s')) :
      Readings R s s' (.call t call) (.call t call')

/-- Readings that lead to the same expansion, with the same problems. -/
def ReadAlike (R : Correspondence) (s s' : Scope) (a b : Reading × List Diagnostic) : Prop :=
  R.Readings s s' a.1 b.1 ∧ a.2 = b.2

/-- Corresponding nodes are read alike. -/
def IsSimulation (R : Correspondence) : Prop :=
  ∀ ⦃s n s' n'⦄, R s n s' n' → R.ReadAlike s s' (s.reading n) (s'.reading n')

variable {R : Correspondence} {V : String → Prop} {s s' : Scope} {n : Node} {w : String}

lemma Calls.same (body : Node) (made : Option Scope × List Diagnostic) :
    R.Calls body made made := by
  obtain ⟨_ | frame, problems⟩ := made
  · exact .refused problems
  · exact .made problems (.same _ _)

lemma Calls.problems_eq {body : Node} {made made' : Option Scope × List Diagnostic}
    (h : R.Calls body made made') : made.2 = made'.2 := by
  cases h <;> rfl

lemma Readings.same (s : Scope) (r : Reading) : R.Readings s s r r := by
  cases r with
  | nothing => exact .nothing
  | kept call => exact .kept call
  | plain m => exact .plain rfl rfl rfl (.same _ _)
  | captured nodes inner => exact .captured (.same _ _)
  | call t call => exact .call rfl rfl (.same _ _)

/-- Nodes that are expanded alike one by one are so as siblings. -/
lemma subjects_siblings {f : Spanned Scalar → Spanned Scalar} {nodes : List Node}
    (h : ∀ n ∈ nodes, R.Subjects s (.node n) s' (.node (n.mapValues f))) :
    R.Subjects s (.siblings nodes) s' (.siblings (Node.mapValuesAll f nodes)) := by
  induction nodes with
  | nil =>
    rw [Node.mapValuesAll]
    exact .nil
  | cons n rest ih =>
    rw [Node.mapValuesAll]
    exact .cons (h n List.mem_cons_self) (ih fun other mem => h other (List.mem_cons_of_mem _ mem))

/-- A call with other values makes related frames, if its values are read as the same under both
scopes and what it holds is expanded alike. -/
lemma calls_bindCall {f : Spanned Scalar → Spanned Scalar} {t : Template} {call : Node}
    (same : ∀ v, call.Writes v → s.valueOf v = s'.valueOf (f v))
    (held : ∀ holder ∈ call.children, ∀ n ∈ holder.children,
      R.Subjects s (.node n) s' (.node (n.mapValues f))) :
    R.Calls t.body (t.bindCall call s) (t.bindCall (call.mapValues f) s') := by
  -- whatever a call binds comes from one of its values, from what it holds or from a default, and
  -- each of these is related
  have bindings : ∀ b b', t.BindsThrough f call s s' b b' → R.Bindings b b' := by
    intro b b' through
    cases through with
    | value written =>
      rw [same _ written]
      exact .same _
    | node holds mem => exact .node (held _ holds _ mem)
    | splice holds => exact .splice (subjects_siblings (held _ holds))
    | fallback => exact .same b
  obtain ⟨problems, ends⟩ :=
    t.bindCall_through (f := f) fun v written => congrArg Prod.snd (same v written)
  generalize t.bindCall call s = made, t.bindCall (call.mapValues f) s' = made' at problems ends
  obtain ⟨frame, faults⟩ := made
  obtain ⟨frame', faults'⟩ := made'
  obtain rfl : faults = faults' := problems
  -- either both calls are refused, for the same problems, or both make a frame over the same home
  rcases ends with ⟨rfl, rfl⟩ | ⟨bs, bs', rfl, rfl, related⟩
  · exact .refused faults
  · exact .made faults (.frame t.home _ (related.mono bindings))

/-! ## Scopes that give related answers -/

/-- Scopes that answer the words of a vocabulary with related bindings, so that what is spoken in it
is expanded alike. -/
structure Answers (R : Correspondence) (V : String → Prop) (s s' : Scope) : Prop where
  lookup : ∀ w, V w → Option.Rel R.Bindings (s.lookup w) (s'.lookup w)
  unboundName : ∀ name : Spanned String, V name.inner → s.unboundName name = s'.unboundName name
  /-- A word that is bound to a string is bound to a word of the vocabulary. -/
  closed : ∀ w v x, V w → s.lookup w = some (.value v) → v.inner = .string x → V x
  node : ∀ n : Node, n.SpokenIn V → R.Subjects s (.node n) s' (.node n)

namespace Answers

lemma siblings (h : R.Answers V s s') {nodes : List Node} (spoken : Node.AllSpokenIn V nodes) :
    R.Subjects s (.siblings nodes) s' (.siblings nodes) := by
  have siblings := subjects_siblings (R := R) (f := id) fun n mem => by
    rw [Node.mapValues_id]
    exact h.node n (spoken.of_mem mem)
  rwa [Node.mapValuesAll_id] at siblings

lemma valueOf_eq (h : R.Answers V s s') {v : Spanned Scalar}
    (spoken : ∀ x, v.inner = .string x → V x) : s.valueOf v = s'.valueOf v := by
  unfold Scope.valueOf
  split
  · next x string =>
    generalize s.lookup x = a, s'.lookup x = b, h.lookup x (spoken x string) = related
    cases related with
    | none => rfl
    | some related => cases related <;> rfl
  · rfl

lemma entriesOf_eq (h : R.Answers V s s') {entries : List Entry}
    (spoken : ∀ x ∈ Entry.strings entries, V x) : s.entriesOf entries = s'.entriesOf entries := by
  have same : s.entriesOf entries = s'.entriesOf (entries.map (Entry.mapValue id)) :=
    Scope.entriesOf_congr fun e he =>
      h.valueOf_eq fun x string => spoken x (Entry.mem_strings he string)
  rwa [Entry.mapValue_id, List.map_id] at same

lemma calls (h : R.Answers V s s') (t : Template) {call : Node}
    (written : ∀ v, call.Writes v → ∀ x, v.inner = .string x → V x)
    (held : Node.AllSpokenIn V call.children) :
    R.Calls t.body (t.bindCall call s) (t.bindCall call s') := by
  have calls := calls_bindCall (R := R) (t := t) (f := id)
    (fun v hv => h.valueOf_eq (written v hv)) fun holder mem n inside => by
      rw [Node.mapValues_id]
      exact h.node n ((held.of_mem mem).children.of_mem inside)
  rwa [Node.mapValues_id] at calls

/-- A node that is spoken in the vocabulary stands for itself alike, also under another name. -/
lemma plain (h : R.Answers V s s') (spoken : n.SpokenIn V) (m : Node)
    (entries : m.entries = n.entries) (children : m.children = n.children) :
    R.Readings s s' (.plain m) (.plain m) := by
  refine .plain rfl rfl (h.entriesOf_eq fun x hx => ?_) (h.siblings ?_)
  · exact spoken.entries (entries ▸ hx)
  · exact children ▸ spoken.children

/-- A node that is spoken in the vocabulary calls a template alike, also under another name. -/
lemma readCall (h : R.Answers V s s') (spoken : n.SpokenIn V) (m : Node)
    (entries : m.entries = n.entries) (children : m.children = n.children)
    (template : Option Template) :
    R.Readings s s' (Scope.readCall template m) (Scope.readCall template m) := by
  cases template with
  | none => exact .kept m
  | some t =>
    refine .call rfl rfl (h.calls t (fun v written x string => ?_) (children ▸ spoken.children))
    have mem := written.mem_strings string
    rw [Node.strings_eq, entries, children, ← Node.strings_eq] at mem
    exact spoken x (.inr mem)

lemma readMarker (h : R.Answers V s s') (spoken : n.SpokenIn V) :
    R.ReadAlike s s' (s.readMarker n) (s'.readMarker n) := by
  unfold Scope.readMarker
  split
  · next target sole _ =>
    have hw : V target.inner := spoken.entries (Node.mem_strings_of_soleString? sole)
    generalize s.lookup target.inner = a, s'.lookup target.inner = b, h.lookup _ hw = related
    -- a marker inserts a splice and nothing else, so only a splice on both sides is of interest
    cases related with
    | none => exact ⟨.nothing, rfl⟩
    | @some b _ related =>
      cases related with
      | same =>
        cases b with
        | splice nodes inner => exact ⟨.captured (.same _ _), rfl⟩
        | _ => exact ⟨.nothing, rfl⟩
      | node => exact ⟨.nothing, rfl⟩
      | splice nodes => exact ⟨.captured nodes, rfl⟩
  · exact ⟨.nothing, rfl⟩

lemma readRenamed (h : R.Answers V s s') (spoken : n.SpokenIn V) {value : Spanned Scalar}
    (string : ∀ x, value.inner = .string x → V x) :
    R.ReadAlike s s' (s.readRenamed n value) (s'.readRenamed n value) := by
  unfold Scope.readRenamed
  split
  · next x hx =>
    have renamed := h.plain spoken (n.rename ⟨x, value.span⟩) rfl rfl
    dsimp only
    generalize s.lookup x = a, s'.lookup x = b, h.lookup x (string x hx) = related
    cases related with
    | none => exact ⟨renamed, rfl⟩
    | @some b _ related =>
      cases related with
      | same =>
        cases b with
        | template template => exact ⟨h.readCall spoken (n.rename _) rfl rfl template, rfl⟩
        | _ => exact ⟨renamed, rfl⟩
      | node => exact ⟨renamed, rfl⟩
      | splice => exact ⟨renamed, rfl⟩
  · exact ⟨h.plain spoken n rfl rfl, rfl⟩

/-- A node that is spoken in the vocabulary is read alike. -/
lemma reading (h : R.Answers V s s') (spoken : n.SpokenIn V) :
    R.ReadAlike s s' (s.reading n) (s'.reading n) := by
  unfold Scope.reading
  split
  · exact h.readMarker spoken
  · have closed := h.closed n.name.inner
    -- the two lookups are replaced by related bindings, which settle the case; what the name is
    -- bound to has to stay in the vocabulary
    generalize s.lookup n.name.inner = a, s'.lookup n.name.inner = b,
      h.lookup _ spoken.name = related at closed
    cases related with
    | none => exact ⟨h.plain spoken n rfl rfl, h.unboundName n.name spoken.name⟩
    | @some b _ related =>
      cases related with
      | same =>
        cases b with
        | template template => exact ⟨h.readCall spoken n rfl rfl template, rfl⟩
        | value v => exact h.readRenamed spoken fun x string => closed v x spoken.name rfl string
        | node => exact ⟨.captured (.same _ _), rfl⟩
        | splice => exact ⟨.nothing, rfl⟩
      | node inner => exact ⟨.captured (.cons inner .nil), rfl⟩
      | splice => exact ⟨.nothing, rfl⟩

end Answers

/-! ## Frames -/

lemma Bindings.isImportFrom_eq {b b' : Binding} (h : R.Bindings b b') (file : String) :
    b.isImportFrom file = b'.isImportFrom file := by
  cases h <;> rfl

section Frames

variable {home : Scope} {bs bs' : Keyed Binding} (related : Keyed.Related R.Bindings bs bs')
include related

/-- Frames over related bindings give related answers to every word. -/
lemma answers_frames :
    R.Answers (fun _ => True) (home.extend bs .call) (home.extend bs' .call) where
  lookup w _ := Scope.lookup_related .same related.ofPairs home .call home.declared? w
  unboundName name _ := by
    have lacks := Scope.lacksImport_related (fun _ _ h => h.isImportFrom_eq) related.ofPairs home
      .call home.declared? name.inner
    unfold Scope.unboundName
    rw [Scope.declares_extend, Scope.declares_extend, Scope.extend, lacks]
    rfl
  closed _ _ _ _ _ _ := trivial
  node n _ := .frame home (.node n) related

end Frames

/-! ## Runs -/

/-- What is expanded alike with a node is a node that is read alike. -/
lemma Subjects.exists_reading (simulation : R.IsSimulation) {x : Subject} {r : Reading}
    {problems : List Diagnostic} (h : R.Subjects s (.node n) s' x)
    (reading : s.reading n = (r, problems)) :
    ∃ n' r', x = .node n' ∧ s'.reading n' = (r', problems) ∧ R.Readings s s' r r' := by
  have alike : ∃ n', x = .node n' ∧ R.ReadAlike s s' (s.reading n) (s'.reading n') := by
    cases h with
    | same => exact ⟨n, rfl, .same _ _, rfl⟩
    | @node _ _ _ n' h => exact ⟨n', rfl, simulation h⟩
    | frame home _ related => exact ⟨n, rfl, (answers_frames related).reading fun _ _ => trivial⟩
  obtain ⟨n', rfl, readings, same⟩ := alike
  rw [reading] at readings same
  exact ⟨n', _, rfl, Prod.ext rfl same.symm, readings⟩

lemma Subjects.eq_nil {x : Subject} (h : R.Subjects s (.siblings []) s' x) : x = .siblings [] := by
  cases h <;> rfl

lemma Subjects.exists_cons {rest : List Node} {x : Subject}
    (h : R.Subjects s (.siblings (n :: rest)) s' x) :
    ∃ n' rest', x = .siblings (n' :: rest') ∧ R.Subjects s (.node n) s' (.node n') ∧
      R.Subjects s (.siblings rest) s' (.siblings rest') := by
  cases h with
  | same => exact ⟨n, rest, rfl, .same _ _, .same _ _⟩
  | cons head tail => exact ⟨_, _, rfl, head, tail⟩
  | frame home _ related => exact ⟨n, rest, rfl, .frame home _ related, .frame home _ related⟩

end Correspondence

/-- **What a simulation relates expands alike**: to the same nodes with the same journal. -/
theorem Expands.simulate {R : Correspondence} (simulation : R.IsSimulation) {c : Config}
    {used : Nat} {depth : Depth} {s s' : Scope} {x x' : Subject} {e : Expansion} {k : Nat}
    (h : Expands c used depth s x e k) (related : R.Subjects s x s' x') :
    Expands c used depth s' x' e k := by
  -- each rule is used again on the other side; it is the other reading that says which premises it
  -- has there
  induction h generalizing s' x' with
  | nothing reading =>
    obtain ⟨_, _, rfl, reading', ⟨⟩⟩ := related.exists_reading simulation reading
    exact .nothing reading'
  | kept reading =>
    obtain ⟨_, _, rfl, reading', ⟨⟩⟩ := related.exists_reading simulation reading
    exact .kept reading'
  | plain reading _ ih =>
    obtain ⟨_, _, rfl, reading', readings⟩ := related.exists_reading simulation reading
    -- the node is rebuilt from what it was read as, and that has the same name, span and entries
    cases readings with
    | plain name span entries children =>
      have expanded := Expands.plain reading' (ih children)
      rwa [Node.rebuild, ← name, ← span, ← entries] at expanded
  | captured reading _ ih =>
    obtain ⟨_, _, rfl, reading', readings⟩ := related.exists_reading simulation reading
    cases readings with
    | captured nodes => exact .captured reading' (ih nodes)
  | limited reading check =>
    obtain ⟨_, _, rfl, reading', readings⟩ := related.exists_reading simulation reading
    cases readings with
    | call _ span =>
      rw [span]
      exact .limited reading' check
  | refused reading check binding =>
    obtain ⟨_, _, rfl, reading', readings⟩ := related.exists_reading simulation reading
    cases readings with
    | call _ _ calls =>
      rw [binding] at calls
      generalize binding' : Template.bindCall _ _ s' = made at calls
      cases calls
      exact .refused reading' check binding'
  | called reading check binding _ ih =>
    obtain ⟨_, _, rfl, reading', readings⟩ := related.exists_reading simulation reading
    cases readings with
    | call name span calls =>
      rw [binding] at calls
      generalize binding' : Template.bindCall _ _ s' = made at calls
      cases calls with
      | made _ frames =>
        rw [name, span]
        exact .called reading' check binding' (ih frames)
  | nil =>
    obtain rfl := related.eq_nil
    exact .nil
  | cons _ _ ih₁ ih₂ =>
    obtain ⟨_, _, rfl, head, tail⟩ := related.exists_cons
    exact .cons (ih₁ head) (ih₂ tail)

lemma Correspondence.IsSimulation.expandNode_eq {R : Correspondence} (simulation : R.IsSimulation)
    {c : Config} {used : Nat} {depth : Depth} {s s' : Scope} {n n' : Node}
    (related : R.Subjects s (.node n) s' (.node n')) :
    expandNode c used depth s n = expandNode c used depth s' n' := by
  obtain ⟨_, run⟩ := exists_expands c used depth s (.node n)
  exact (run.simulate simulation related).eq_expansion

end Stencil
