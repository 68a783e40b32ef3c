import Stencil.Proofs.Scope.Reach

/-!
# What a scope draws from

A stock is a supply of nodes and values that is closed under looking inside the nodes.  A scope
draws from a stock if all that it comes to is made of it: the bodies and the defaults of templates,
bound values, and captured nodes (`Scope.DrawsFrom`).  Every scope draws from its own stock,
together with what is read under it (`Scope.stock`).

Binding a call takes nothing from elsewhere: the frame of a call draws from any stock from which the
scope of the call draws and which has what the call writes and holds (`Scope.DrawsFrom.frame`).

A stock is given by two predicates, and closed under looking inside by its own fields, so that
lemmas about a stock never have to speak of depth.  That everything is made of the stock is then a
property of each scope in turn, and it is carried along a run like any other.
-/

namespace Stencil

/-! ## Nodes at any depth -/

/-- A node is one of some nodes, or lies at some depth inside one of them. -/
inductive Node.Among (m : Node) : List Node → Prop
  | here {nodes : List Node} (mem : m ∈ nodes) : Among m nodes
  | inside {nodes : List Node} {parent : Node} (mem : parent ∈ nodes)
      (inner : Among m parent.children) : Among m nodes

namespace Node.Among

variable {m n child : Node} {nodes nodes' : List Node}

lemma not_nil : ¬m.Among [] := by
  rintro (mem | mem) <;> exact absurd mem List.not_mem_nil

lemma of_append (h : m.Among (nodes ++ nodes')) : m.Among nodes ∨ m.Among nodes' := by
  cases h with
  | here mem => exact (List.mem_append.1 mem).imp .here .here
  | inside mem inner => exact (List.mem_append.1 mem).imp (.inside · inner) (.inside · inner)

lemma of_singleton (h : m.Among [n]) : m = n ∨ m.Among n.children := by
  cases h with
  | here mem => exact .inl (List.mem_singleton.1 mem)
  | inside mem inner =>
    obtain rfl := List.mem_singleton.1 mem
    exact .inr inner

lemma of_mem_children (h : m.Among nodes) (mem : child ∈ m.children) : child.Among nodes := by
  induction h with
  | here parent => exact .inside parent (.here mem)
  | inside parent _ ih => exact .inside parent ih

end Node.Among

/-! ## Stocks -/

/-- Nodes and values to make trees of: with a node, its children and the values of its entries. -/
structure Stock where
  node : Node → Prop
  value : Spanned Scalar → Prop
  children : ∀ n, node n → ∀ child ∈ n.children, node child
  entries : ∀ n, node n → ∀ e ∈ n.entries, value e.value

variable {S : Stock}

lemma Stock.among {m : Node} {nodes : List Node} (h : m.Among nodes)
    (inside : ∀ n ∈ nodes, S.node n) : S.node m := by
  induction h with
  | here mem => exact inside _ mem
  | inside mem _ ih => exact ih (S.children _ (inside _ mem))

/-- The default of a tparameter is in a stock. -/
def TparameterForm.DrawsFrom (S : Stock) : TparameterForm → Prop
  | .positional => True
  | .named default => S.value default
  | .node default => S.node default
  | .splice default => ∀ n ∈ default, S.node n

/-- What a binding brings in is in a stock, what it has captured apart. -/
def Binding.DrawsFrom (S : Stock) : Binding → Prop
  | .template (some t) _ _ _ => S.node t.body ∧ ∀ p ∈ t.tparameters, p.form.DrawsFrom S
  | .template none _ _ _ => True
  | .value v => S.value v
  | .node n _ => S.node n
  | .splice nodes _ => ∀ n ∈ nodes, S.node n

lemma Binding.DrawsFrom.nodes {b : Binding} (h : b.DrawsFrom S) : ∀ n ∈ b.nodes, S.node n := by
  intro n mem
  cases b with
  | node m _ =>
    obtain rfl := List.mem_singleton.1 mem
    exact h
  | splice => exact h n mem
  | _ => exact absurd mem List.not_mem_nil

/-- All that a scope comes to is in a stock. -/
def Scope.DrawsFrom (S : Stock) (s : Scope) : Prop :=
  ∀ b, s.Reaches b → b.DrawsFrom S

/-! ## The frame of a call -/

section Call

variable {s inner : Scope} {name : String} {b : Binding} {t : Template} {origin : Origin}
variable {file : Option String} {span : Span} {call : Node}

lemma Scope.DrawsFrom.captured (h : s.DrawsFrom S) (found : s.lookup name = some b)
    (captured : b.scope? = some inner) : inner.DrawsFrom S :=
  fun _ reached => h _ (.within found captured reached)

/-- A value reads as itself or as a bound value. -/
lemma Scope.DrawsFrom.valueOf (h : s.DrawsFrom S) {v : Spanned Scalar} (stocked : S.value v) :
    S.value (s.valueOf v).1 := by
  rcases s.valueOf_eq_or_bound v with same | ⟨_, found⟩
  · rwa [same]
  · exact h _ (.bound found)

lemma Node.Writes.value {v : Spanned Scalar} (written : call.Writes v)
    (entries : ∀ e ∈ call.entries, S.value e.value) (children : ∀ m ∈ call.children, S.node m) :
    S.value v := by
  rcases written with ⟨e, he, rfl⟩ | ⟨holder, hh, e, he, rfl⟩
  · exact entries e he
  · exact S.entries holder (children holder hh) e he

/-- What a call binds is in a stock that has what the call writes and holds, and the defaults. -/
lemma Template.BindsAlike.drawsFrom (made : t.BindsAlike call s s b b) (hs : s.DrawsFrom S)
    (home : t.home.DrawsFrom S) (defaults : ∀ p ∈ t.tparameters, p.form.DrawsFrom S)
    (entries : ∀ e ∈ call.entries, S.value e.value) (children : ∀ m ∈ call.children, S.node m) :
    b.DrawsFrom S := by
  cases made with
  | value written => exact hs.valueOf (written.value entries children)
  | node holds held => exact S.children _ (children _ holds) _ held
  | splice holds => exact S.children _ (children _ holds)
  | @fallback p _ declared default =>
    have stocked := defaults p declared
    unfold fallback? at default
    -- a default is in the stock in the form that it has; a default value may read as a value bound
    -- at home
    rcases form : p.form with _ | v | n | nodes <;> rw [form] at default stocked
    · cases default
    · obtain rfl := Option.some.inj default
      exact home.valueOf stocked
    · obtain rfl := Option.some.inj default
      exact stocked
    · obtain rfl := Option.some.inj default
      exact stocked

/-- **The frame of a call draws from the stock of the call.** -/
lemma Scope.DrawsFrom.frame {frame : Scope} (hs : s.DrawsFrom S)
    (found : s.lookup name = some (.template (some t) origin file span))
    (entries : ∀ e ∈ call.entries, S.value e.value) (children : ∀ m ∈ call.children, S.node m)
    (made : (t.bindCall call s).1 = some frame) : frame.DrawsFrom S := by
  have home : t.home.DrawsFrom S := hs.captured found rfl
  obtain ⟨_, defaults⟩ := hs _ (.bound found)
  obtain ⟨bs, rfl, binds⟩ := Template.exists_of_bindCall made
  intro b reached
  rcases reaches_extend reached with reached | ⟨pair, hp, rfl | ⟨inner, captured, further⟩⟩
  · exact home b reached
  · exact (binds pair hp).drawsFrom hs home defaults entries children
  · rcases (binds pair hp).eq_of_scope? captured with rfl | rfl
    · exact hs b further
    · exact home b further

end Call

/-! ## The stock of a scope -/

/-- The nodes of a tparameter's default. -/
def TparameterForm.nodes : TparameterForm → List Node
  | .positional | .named _ => []
  | .node default => [default]
  | .splice default => default

/-- The trees of a binding: the body and the default nodes of a template, and captured nodes. -/
def Binding.trees : Binding → List Node
  | .template (some t) _ _ _ => t.body :: t.tparameters.flatMap fun p => p.form.nodes
  | b => b.nodes

namespace Scope

/-- The source nodes of what is read under a scope: those at any depth of what is read, and of the
bodies, the defaults and the captured nodes that the scope comes to. -/
def IsSource (s : Scope) (nodes : List Node) (n : Node) : Prop :=
  n.Among nodes ∨ ∃ b, s.Reaches b ∧ n.Among b.trees

/-- The source values of what is read under a scope: the values of the entries of source nodes, the
defaults of named tparameters, and the bound values that the scope comes to. -/
def IsSourceValue (s : Scope) (nodes : List Node) (v : Spanned Scalar) : Prop :=
  (∃ n, s.IsSource nodes n ∧ ∃ e ∈ n.entries, e.value = v) ∨
    (∃ t origin file span, s.Reaches (.template (some t) origin file span) ∧
      ∃ p ∈ t.tparameters, p.form = .named v) ∨
    s.Reaches (.value v)

/-- The stock of a scope and of what is read under it. -/
def stock (s : Scope) (nodes : List Node) : Stock where
  node := s.IsSource nodes
  value := s.IsSourceValue nodes
  children n source child mem := by
    rcases source with among | ⟨b, reached, among⟩
    · exact .inl (among.of_mem_children mem)
    · exact .inr ⟨b, reached, among.of_mem_children mem⟩
  entries n source e mem := .inl ⟨n, source, e, mem, rfl⟩

/-- Every scope draws from its own stock. -/
lemma drawsFrom_stock (s : Scope) (nodes : List Node) : s.DrawsFrom (s.stock nodes) := by
  intro b reached
  have tree : ∀ n ∈ b.trees, s.IsSource nodes n := fun n mem => .inr ⟨b, reached, .here mem⟩
  rcases b with ⟨_ | t, origin, file, span⟩ | v | ⟨n, inner⟩ | ⟨captured, inner⟩
  · trivial
  · refine ⟨tree _ List.mem_cons_self, fun p hp => ?_⟩
    have default : ∀ n ∈ p.form.nodes, s.IsSource nodes n := fun n mem =>
      tree n (List.mem_cons_of_mem _ (List.mem_flatMap.2 ⟨p, hp, mem⟩))
    rcases form : p.form with _ | v | n | captured <;> rw [form] at default
    · trivial
    · exact .inr (.inl ⟨t, origin, file, span, reached, p, hp, form⟩)
    · exact default n (List.mem_singleton_self n)
    · exact default
  · exact .inr (.inr reached)
  · exact tree n (List.mem_singleton_self n)
  · exact tree

end Scope

end Stencil
