import Mathlib.Data.List.Forall2
import Stencil.Proofs.Expansion.Derivation
import Stencil.Proofs.Expansion.Reading
import Stencil.Proofs.Scope.Stock

/-!
# Where a result comes from

Expansion invents nothing (`expansion_invents_nothing`).  Every node of a result comes from a source
node: it keeps the span and the entries with their names and places, and only values and the node's
name can be others, which bound values then carry.  The names of properties are never touched, and
no entry is lost or added.

What is carried is found along the run.  The scopes of a run are those under which a node is read
(`Config.Visits`); each draws from the stock of the scope with which the run began
(`Config.Visits.drawsFrom`), so no value is carried but one that was written or bound there.

`IsSource` and `IsSourceValue` are read off the scope and the expanded node, without running
anything.  The run enters at one place only, the scopes that it visits; so the statement does not
depend on what the limits let through, and holds of a run with errors as of one without.
-/

namespace Stencil

/-! ## The scopes of a run -/

/-- `c.Visits used depth s x r`: when `x` is expanded under `s`, at a depth and after `used` calls,
something is read under `r`. -/
inductive Config.Visits (c : Config) : Nat → Depth → Scope → Subject → Scope → Prop
  | here {used depth s x} : Visits c used depth s x s
  | plain {used depth s n m problems r} (reading : s.reading n = (.plain m, problems))
      (inner : Visits c used depth s (.siblings m.children) r) : Visits c used depth s (.node n) r
  | captured {used depth s n nodes scope problems r}
      (reading : s.reading n = (.captured nodes scope, problems))
      (inner : Visits c used depth scope (.siblings nodes) r) : Visits c used depth s (.node n) r
  | called {used depth s n t call problems frame faults r}
      (reading : s.reading n = (.call t call, problems))
      (check : c.exceededLimit? depth used = none)
      (binding : t.bindCall call s = (some frame, faults))
      (inner : Visits c (used + 1) depth.next frame (.node t.body) r) :
      Visits c used depth s (.node n) r
  | first {used depth s n rest r} (head : Visits c used depth s (.node n) r) :
      Visits c used depth s (.siblings (n :: rest)) r
  | later {used depth s n rest r}
      (tail : Visits c (used + (expandNode c used depth s n).journal.callCount) depth s
        (.siblings rest) r) : Visits c used depth s (.siblings (n :: rest)) r

/-- A value that is carried in a run: a scope of the run binds it.  A value that no scope binds is
written where it stands, in an entry of the node that is read. -/
def Config.Carries (c : Config) (used : Nat) (depth : Depth) (s : Scope) (x : Subject)
    (v : Spanned Scalar) : Prop :=
  ∃ r, c.Visits used depth s x r ∧ ∃ name, r.lookup name = some (.value v)

/-! ## Nodes that come from others -/

variable {c : Config} {used : Nat} {depth : Depth} {s r : Scope} {x : Subject} {n m : Node}
variable {problems : List Diagnostic} {S : Stock}

/-- The nodes of what is expanded. -/
def Subject.nodes : Subject → List Node
  | .node n => [n]
  | .siblings nodes => nodes

/-- An entry with the name and the span of another, and with its value or one that is carried. -/
structure Entry.ComesFrom (carried : Spanned Scalar → Prop) (e source : Entry) : Prop where
  name : e.name = source.name
  span : e.span = source.span
  value : e.value = source.value ∨ carried e.value

/-- A node with the span of another and with entries that come from its entries in the same order,
under its name or a string that is carried. -/
structure Node.ComesFrom (carried : Spanned Scalar → Prop) (m source : Node) : Prop where
  span : m.span = source.span
  entries : List.Forall₂ (Entry.ComesFrom carried) m.entries source.entries
  name : m.name = source.name ∨
    ∃ v name, carried v ∧ v.inner = .string name ∧ m.name = ⟨name, v.span⟩

namespace Node.ComesFrom

variable {carried carried' : Spanned Scalar → Prop} {source : Node}

lemma self (carried : Spanned Scalar → Prop) (n : Node) : n.ComesFrom carried n where
  span := rfl
  entries := List.forall₂_same.2 fun _ _ => ⟨rfl, rfl, .inl rfl⟩
  name := .inl rfl

lemma mono (h : m.ComesFrom carried source) (more : ∀ v, carried v → carried' v) :
    m.ComesFrom carried' source where
  span := h.span
  entries := h.entries.imp fun _ _ e => ⟨e.name, e.span, e.value.imp_right (more _)⟩
  name := h.name.imp_right fun ⟨v, name, inside, string⟩ => ⟨v, name, more v inside, string⟩

end Node.ComesFrom

/-! ## Readings -/

/-- The node that a reading goes on with in the place of the node read. -/
def Reading.node? : Reading → Option Node
  | .plain m | .kept m | .call _ m => some m
  | .nothing | .captured .. => none

/-- A node itself, or with a string for its name that the name is bound to. -/
inductive Scope.Bears (s : Scope) (n : Node) : Node → Prop
  | own : Bears s n n
  | bound {v : Spanned Scalar} {name : String}
      (found : s.lookup n.name.inner = some (.value v)) (string : v.inner = .string name) :
      Bears s n (n.rename ⟨name, v.span⟩)

namespace Scope.Bears

lemma entries (h : s.Bears n m) : m.entries = n.entries := by
  cases h <;> rfl

lemma children (h : s.Bears n m) : m.children = n.children := by
  cases h <;> rfl

end Scope.Bears

lemma Scope.bears_of_reading (h : (s.reading n).1.node? = some m) : s.Bears n m := by
  have ofCall : ∀ {template : Option Template} {call : Node},
      (readCall template call).node? = some m → call = m := by
    rintro (_ | t) call h <;> exact Option.some.inj h
  -- a marker leads to captured nodes only; a bound name leads to the node itself, or to the node
  -- under the string that the name is bound to
  unfold reading at h
  split at h
  · unfold readMarker at h
    split at h
    · split at h <;> cases h
    · cases h
  · split at h
    · obtain rfl := Option.some.inj h
      exact .own
    · obtain rfl := ofCall h
      exact .own
    · next value found =>
      unfold readRenamed at h
      split at h
      · next string =>
        dsimp only at h
        split at h
        · obtain rfl := ofCall h
          exact .bound found string
        · obtain rfl := Option.some.inj h
          exact .bound found string
      · obtain rfl := Option.some.inj h
        exact .own
    · cases h
    · cases h

namespace Scope.DrawsFrom

/-- Captured nodes come with a scope that draws from the same stock. -/
lemma of_captured (draws : s.DrawsFrom S) {nodes : List Node} {scope : Scope}
    (reading : s.reading n = (.captured nodes scope, problems)) :
    scope.DrawsFrom S ∧ ∀ m ∈ nodes, S.node m := by
  cases Scope.reads_of_reading_eq reading with
  | captured found captured =>
    exact ⟨draws.captured found captured, (draws _ (.bound found)).nodes⟩

/-- The body of a called template is in the stock, and is read under a frame that draws from it. -/
lemma of_called (draws : s.DrawsFrom S) (stocked : S.node n) {t : Template} {call : Node}
    {frame : Scope} {faults : List Diagnostic} (reading : s.reading n = (.call t call, problems))
    (binding : t.bindCall call s = (some frame, faults)) :
    frame.DrawsFrom S ∧ S.node t.body := by
  cases Scope.reads_of_reading_eq reading with
  | called found entries children =>
    refine ⟨draws.frame found ?_ ?_ (congrArg Prod.fst binding), (draws _ (.bound found)).1⟩
    · rw [entries]
      exact S.entries n stocked
    · rw [children]
      exact S.children n stocked

end Scope.DrawsFrom

/-- **The scopes of a run draw from one stock**, if the first one does and has what is expanded. -/
theorem Config.Visits.drawsFrom (h : c.Visits used depth s x r) (draws : s.DrawsFrom S)
    (stocked : ∀ n ∈ x.nodes, S.node n) : r.DrawsFrom S := by
  -- the stock stays that of the first scope; what changes is the scope that draws from it
  induction h with
  | here => exact draws
  | plain reading _ ih =>
    have children := (Scope.bears_of_reading (by rw [reading]; rfl)).children
    refine ih draws fun m mem => ?_
    exact S.children _ (stocked _ (List.mem_singleton_self _)) m (children ▸ mem)
  | captured reading _ ih =>
    obtain ⟨inner, nodes⟩ := draws.of_captured reading
    exact ih inner nodes
  | called reading _ binding _ ih =>
    obtain ⟨frame, body⟩ :=
      draws.of_called (stocked _ (List.mem_singleton_self _)) reading binding
    exact ih frame (List.forall_mem_singleton.2 body)
  | first _ ih =>
    exact ih draws (List.forall_mem_singleton.2 (stocked _ List.mem_cons_self))
  | later _ ih => exact ih draws fun m mem => stocked m (List.mem_cons_of_mem _ mem)

/-! ## Runs -/

lemma Config.Carries.mono {used' : Nat} {depth' : Depth} {s' : Scope} {x' : Subject}
    (more : ∀ r, c.Visits used depth s x r → c.Visits used' depth' s' x' r) (v : Spanned Scalar)
    (h : c.Carries used depth s x v) : c.Carries used' depth' s' x' v := by
  obtain ⟨r, visits, bound⟩ := h
  exact ⟨r, more r visits, bound⟩

/-- A node that is kept or stands for itself comes from the node that is read. -/
lemma Scope.Bears.comesFrom (h : s.Bears n m) {carried : Spanned Scalar → Prop}
    (bound : ∀ name v, s.lookup name = some (.value v) → carried v) : m.ComesFrom carried n := by
  cases h with
  | own => exact .self carried n
  | @bound v name found string =>
    exact
      { span := rfl
        entries := (Node.ComesFrom.self carried n).entries
        name := .inr ⟨v, name, bound _ v found, string, rfl⟩ }

/-- Entries that are read come from the entries that are written. -/
lemma Scope.comesFrom_entriesOf (s : Scope) (entries : List Entry)
    {carried : Spanned Scalar → Prop}
    (bound : ∀ name v, s.lookup name = some (.value v) → carried v) :
    List.Forall₂ (Entry.ComesFrom carried) (s.entriesOf entries).1 entries := by
  rw [entriesOf, List.map_map, List.forall₂_map_left_iff, List.forall₂_same]
  intro e _
  refine ⟨rfl, rfl, ?_⟩
  rcases s.valueOf_eq_or_bound e.value with same | ⟨name, found⟩
  · exact .inl same
  · exact .inr (bound name _ found)

/-- **Every node of a result comes from a node of the stock.** -/
theorem Expands.comesFrom {e : Expansion} {k : Nat} (h : Expands c used depth s x e k)
    (draws : s.DrawsFrom S) (stocked : ∀ n ∈ x.nodes, S.node n) (among : m.Among e.nodes) :
    ∃ source, S.node source ∧ m.ComesFrom (c.Carries used depth s x) source := by
  induction h with
  | nothing | limited | refused | nil => exact absurd among Node.Among.not_nil
  | @kept used depth s n call _ reading =>
    have here := List.forall_mem_singleton.1 stocked
    have bears := s.bears_of_reading (m := call) (by rw [reading]; rfl)
    -- the node itself, or one inside: a malformed call is kept with its children as they are
    -- written
    rcases among.of_singleton with rfl | inner
    · exact ⟨n, here, bears.comesFrom fun name v found => ⟨s, .here, name, found⟩⟩
    · rw [bears.children] at inner
      exact ⟨m, S.among inner (S.children n here), .self _ m⟩
  | @plain used depth s n named _ children _ reading _ ih =>
    have here := List.forall_mem_singleton.1 stocked
    have bears := s.bears_of_reading (m := named) (by rw [reading]; rfl)
    -- the node itself has its entries read and its name perhaps replaced; one inside comes from
    -- the run of the children
    rcases among.of_singleton with rfl | inner
    · have bound : ∀ name v, s.lookup name = some (.value v) →
          c.Carries used depth s (.node n) v := fun name v found => ⟨s, .here, name, found⟩
      have entries := s.comesFrom_entriesOf n.entries bound
      rw [← bears.entries] at entries
      have own := bears.comesFrom bound
      exact ⟨n, here, own.span, bears.entries ▸ entries, own.name⟩
    · have inside : ∀ m ∈ named.children, S.node m := by
        rw [bears.children]
        exact S.children n here
      obtain ⟨source, mem, comes⟩ := ih draws inside inner
      exact ⟨source, mem, comes.mono (.mono fun _ => .plain reading)⟩
  | captured reading _ ih =>
    obtain ⟨scope, nodes⟩ := draws.of_captured reading
    obtain ⟨source, mem, comes⟩ := ih scope nodes among
    exact ⟨source, mem, comes.mono (.mono fun _ => .captured reading)⟩
  | called reading check binding _ ih =>
    have here := List.forall_mem_singleton.1 stocked
    -- the nodes of a call are those of its body, under a frame that draws from the same stock
    obtain ⟨frame, body⟩ := draws.of_called here reading binding
    obtain ⟨source, mem, comes⟩ := ih frame (List.forall_mem_singleton.2 body) among
    exact ⟨source, mem, comes.mono (.mono fun _ => .called reading check binding)⟩
  | cons head _ ih₁ ih₂ =>
    obtain ⟨first, later⟩ := List.forall_mem_cons.1 stocked
    rcases among.of_append with among | among
    · obtain ⟨source, mem, comes⟩ := ih₁ draws (List.forall_mem_singleton.2 first) among
      exact ⟨source, mem, comes.mono (.mono fun _ => .first)⟩
    · obtain ⟨source, mem, comes⟩ := ih₂ draws later among
      rw [head.eq_expansion] at comes
      exact ⟨source, mem, comes.mono (.mono fun _ => .later)⟩

/-- **Expansion invents nothing.**  Every node at any depth of a result comes from a source node: it
has its span, its entries in the same order with the same names and spans, and its name, save for
values of entries and a name that the run carries.  And each value that the run carries is written
in an entry of a source node, is the default of a named tparameter, or was bound in the scope or in
one that the scope comes to. -/
theorem expansion_invents_nothing (c : Config) (used : Nat) (depth : Depth) (s : Scope) (n : Node) :
    (∀ m : Node, m.Among (expandNode c used depth s n).nodes → ∃ source, s.IsSource [n] source ∧
      m.ComesFrom (c.Carries used depth s (.node n)) source) ∧
    ∀ v, c.Carries used depth s (.node n) v → s.IsSourceValue [n] v := by
  have draws := s.drawsFrom_stock [n]
  have stocked : ∀ m ∈ [n], (s.stock [n]).node m := fun m mem => .inl (.here mem)
  constructor
  · intro m among
    obtain ⟨_, run⟩ := exists_expands c used depth s (.node n)
    exact run.comesFrom draws stocked among
  · rintro v ⟨r, visits, name, found⟩
    exact visits.drawsFrom draws stocked (.value v) (.bound found)

end Stencil
