import Stencil.Expansion.Reading
import Stencil.Scope.Cost

/-!
# Expansion descends

Each step of an expansion leads to nodes and a scope of smaller cost.  For a node that
stands for itself the children are fewer; captured nodes cost no more than the weight of the
scope that holds them; and the body of a template, read under the frame of a call, costs
less than the call.

The three facts have one form: a reading is taken apart, and the case that leads on rests on a
lookup.  What a scope holds weighs no more than the scope (`weight_le_of_lookup`,
`factor_le_of_lookup`), so the lookup gives the bound.  For a call there is more to do, since the
frame is a new scope: its weight is bounded by what the call can capture and by what the defaults of
the template can (`frameBound`), binding by binding, and the factor of the calling scope has room
for both.
-/

namespace Stencil

/-! ## Sizes -/

theorem Node.count_eq (n : Node) : n.count = Node.countAll n.children + 1 := by
  cases n
  rw [Node.count]

theorem Node.count_le_countAll {n : Node} {nodes : List Node} (h : n ∈ nodes) :
    n.count ≤ Node.countAll nodes := by
  induction nodes with
  | nil => exact absurd h List.not_mem_nil
  | cons first rest ih =>
    rw [countAll]
    rcases List.mem_cons.1 h with rfl | h
    · exact Nat.le_add_right _ _
    · exact Nat.le_trans (ih h) (Nat.le_add_left _ _)

theorem Tparameter.defaultCount_le {p : Tparameter} {tparameters : List Tparameter}
    (h : p ∈ tparameters) : p.defaultCount ≤ Tparameter.defaultsCount tparameters := by
  induction tparameters with
  | nil => exact absurd h List.not_mem_nil
  | cons first rest ih =>
    rw [defaultsCount]
    rcases List.mem_cons.1 h with rfl | h
    · exact Nat.le_add_right _ _
    · exact Nat.le_trans (ih h) (Nat.le_add_left _ _)

/-! ## Readings -/

namespace Scope

variable {s : Scope} {n : Node}

theorem eq_of_readCall {template : Option Template} {call node : Node} {t : Template}
    (h : readCall template call = .call t node) : template = some t ∧ node = call := by
  unfold readCall at h
  split at h
  · cases h
    exact ⟨rfl, rfl⟩
  · cases h

theorem readCall_ne_plain {template : Option Template} {call node : Node} :
    readCall template call ≠ .plain node := by
  unfold readCall
  split <;> simp

theorem readCall_ne_captured {template : Option Template} {call : Node} {nodes : List Node}
    {scope : Scope} : readCall template call ≠ .captured nodes scope := by
  unfold readCall
  split <;> simp

/-- A node that stands for itself, perhaps renamed, keeps its children. -/
theorem children_of_reading_plain {m : Node} (h : (s.reading n).1 = .plain m) :
    m.children = n.children := by
  unfold reading at h
  split at h
  · -- a marker never stands for itself
    unfold readMarker at h
    split at h
    · split at h <;> simp at h
    · simp at h
  · split at h
    · simp only [Reading.plain.injEq] at h
      rw [h]
    · exact absurd h readCall_ne_plain
    · -- bound to a value: if it is a string the node has a new name, and the children that it had
      unfold readRenamed at h
      split at h
      · dsimp only at h
        split at h
        · exact absurd h readCall_ne_plain
        · simp only [Reading.plain.injEq] at h
          rw [← h]
          rfl
      · simp only [Reading.plain.injEq] at h
        rw [h]
    · simp at h
    · simp at h

/-- Captured nodes cost no more than the weight of the scope that holds them. -/
theorem cost_of_reading_captured {nodes : List Node} {scope : Scope}
    (h : (s.reading n).1 = .captured nodes scope) :
    scope.cost (Node.countAll nodes) ≤ s.weight := by
  unfold reading at h
  split at h
  · unfold readMarker at h
    split at h
    · split at h
      · next nodes scope hb =>
        -- a marker that names a splice
        simp only [Reading.captured.injEq] at h
        obtain ⟨rfl, rfl⟩ := h
        have := weight_le_of_lookup s hb
        rwa [Binding.weight] at this
      · simp at h
      · simp at h
    · simp at h
  · split at h
    · simp at h
    · exact absurd h readCall_ne_captured
    · unfold readRenamed at h
      split at h
      · dsimp only at h
        split at h
        · exact absurd h readCall_ne_captured
        · simp at h
      · simp at h
    · next node scope hb =>
      -- a name that is bound to a captured node, which is the only one
      simp only [Reading.captured.injEq] at h
      obtain ⟨rfl, rfl⟩ := h
      have := weight_le_of_lookup s hb
      rw [Binding.weight] at this
      simpa [cost, Node.countAll] using this
    · simp at h

/-- What a call of a template may lead to is within the factor of the calling scope. -/
theorem factor_of_lookup_template {name : String} {t : Template} {origin : Origin}
    {file : Option String} {span : Span}
    (h : s.lookup name = some (.template (some t) origin file span)) :
    1 + t.home.weight +
      (t.body.count + Tparameter.defaultsCount t.tparameters) * t.home.factor ≤ s.factor := by
  have := factor_le_of_lookup s h
  cases t
  rwa [Binding.factor] at this

/-- A call keeps the children of its node, and its template is visible. -/
theorem of_reading_call {t : Template} {call : Node} (h : (s.reading n).1 = .call t call) :
    call.children = n.children ∧
      1 + t.home.weight +
        (t.body.count + Tparameter.defaultsCount t.tparameters) * t.home.factor ≤ s.factor := by
  unfold reading at h
  split at h
  · unfold readMarker at h
    split at h
    · split at h <;> simp at h
    · simp at h
  · split at h
    · simp at h
    · next template _ _ _ hb =>
      -- the name is bound to a template
      obtain ⟨rfl, rfl⟩ := eq_of_readCall h
      exact ⟨rfl, factor_of_lookup_template hb⟩
    · unfold readRenamed at h
      split at h
      · dsimp only at h
        split at h
        · next template _ _ _ hb =>
          -- the name is bound to a string, and that to a template
          obtain ⟨rfl, rfl⟩ := eq_of_readCall h
          exact ⟨rfl, factor_of_lookup_template hb⟩
        · simp at h
      · simp at h
    · simp at h
    · simp at h

end Scope

/-! ## Frames of calls -/

namespace Template

variable {t : Template} {call : Node} {scope : Scope}

/-- A bound on the cost of what the frame of a call captures. -/
def frameBound (t : Template) (call : Node) (scope : Scope) : Nat :=
  max (scope.cost (Node.countAll call.children))
    (t.home.cost (Tparameter.defaultsCount t.tparameters))

/-- The bindings of a settlement are within the bound of the call's frame. -/
def Settlement.Within (bound : Nat) (s : Settlement) : Prop :=
  ∀ pair ∈ s.bound, pair.2.Within bound

theorem within_value {bound : Nat} (v : Spanned Scalar) : (Binding.value v).Within bound := by
  simp [Binding.Within, Binding.weight, Binding.factor]

theorem Settlement.Within.take {bound : Nat} {s : Settlement} (h : s.Within bound)
    {name : String} {b : Binding} (hb : b.Within bound) (problems : List Diagnostic) :
    (s.take name b problems).Within bound := by
  intro pair hp
  rcases List.mem_append.1 hp with hp | hp
  · exact h pair hp
  · obtain rfl := List.mem_singleton.1 hp
    exact hb

theorem within_held {form : TparameterForm} {holder : Node} {b : Binding}
    {problems : List Diagnostic} (hm : holder ∈ call.children)
    (h : held? scope form holder = some (b, problems)) : b.Within (t.frameBound call scope) := by
  have inside : Node.countAll holder.children ≤ Node.countAll call.children := by
    have := Node.count_le_countAll hm
    have := holder.count_eq
    omega
  have bound := Scope.cost_le_cost (s := scope) inside
  -- one case for each form: values weigh nothing, and what is captured is among the children of
  -- the call
  rw [held?.eq_def] at h
  split at h
  · split at h
    · simp only [Option.some.injEq, Prod.mk.injEq] at h
      exact h.1 ▸ within_value _
    · simp at h
  · split at h
    · simp only [Option.some.injEq, Prod.mk.injEq] at h
      exact h.1 ▸ within_value _
    · simp at h
  · split at h
    · next child _ hc =>
      -- a single node is captured, which is all that the holder has
      simp only [Option.some.injEq, Prod.mk.injEq] at h
      simp only [← h.1, Binding.Within, Binding.weight, Binding.factor, and_true]
      rw [hc] at bound
      simp only [Node.countAll, Nat.add_zero] at bound
      unfold frameBound
      unfold Scope.cost at bound ⊢
      omega
    · simp at h
  · split at h
    · simp only [Option.some.injEq, Prod.mk.injEq] at h
      simp only [← h.1, Binding.Within, Binding.weight, Binding.factor, and_true]
      unfold frameBound
      unfold Scope.cost at bound ⊢
      omega
    · simp at h

/-- An offer whose binding is within a bound. -/
def Offer.Within (bound : Nat) : Offer → Prop
  | .refused _ => True
  | .made _ b _ _ => b.Within bound

theorem offers_within (o : Offer) (h : o ∈ t.offers call scope) :
    o.Within (t.frameBound call scope) := by
  rcases List.mem_append.1 h with h | h
  · obtain ⟨e, _, he⟩ := List.mem_filterMap.1 h
    unfold offerOfEntry? at he
    split at he
    · simp at he
    · obtain rfl := Option.some.inj he
      split
      · trivial
      · split
        · exact within_value _
        · trivial
  · obtain ⟨holder, hm, rfl⟩ := List.mem_map.1 h
    unfold offerOfHolder
    split
    · trivial
    · split
      · next hb => exact within_held hm hb
      · trivial

theorem settle_within {bound : Nat} {template : String} {s : Settlement} (h : s.Within bound)
    {o : Offer} (ho : o.Within bound) : (s.settle template o).Within bound := by
  unfold Settlement.settle
  split
  · exact h
  · split
    · exact h
    · exact h.take ho _

theorem foldl_settle_within {bound : Nat} {template : String} {os : List Offer}
    (ho : ∀ o ∈ os, o.Within bound) {s : Settlement} (h : s.Within bound) :
    (os.foldl (Settlement.settle template) s).Within bound := by
  induction os generalizing s with
  | nil => exact h
  | cons o rest ih =>
    exact ih (fun p hp => ho p (List.mem_cons_of_mem _ hp))
      (settle_within h (ho o List.mem_cons_self))

theorem fillOpen_within {bound : Nat} {tparameters : List Tparameter} {entries : List Entry}
    {s : Settlement} (h : s.Within bound) :
    (fillOpen t scope tparameters entries s).Within bound := by
  induction entries generalizing tparameters s with
  | nil =>
    rw [fillOpen]
    exact h
  | cons e rest ih =>
    cases tparameters with
    | nil =>
      rw [fillOpen]
      exact ih h
    | cons p others =>
      rw [fillOpen]
      apply ih
      split
      · exact h.take (within_value _) _
      · exact h

theorem fillDefault_within {p : Tparameter} (hp : p ∈ t.tparameters) {s : Settlement}
    (h : s.Within (t.frameBound call scope)) :
    (t.fillDefault call s p).Within (t.frameBound call scope) := by
  -- a default is read at the home of the template, so what it costs is within the second part of
  -- the bound
  have bound := Scope.cost_le_cost (s := t.home) (Tparameter.defaultCount_le hp)
  unfold fillDefault
  unfold Tparameter.defaultCount at bound
  split
  · exact h
  · split
    · exact h
    · exact h.take (within_value _) _
    · next hf =>
      refine h.take ?_ _
      simp only [hf] at bound
      simp only [Binding.Within, Binding.weight, Binding.factor, and_true]
      unfold frameBound
      unfold Scope.cost at bound ⊢
      omega
    · next hf =>
      refine h.take ?_ _
      simp only [hf] at bound
      simp only [Binding.Within, Binding.weight, Binding.factor, and_true]
      unfold frameBound
      unfold Scope.cost at bound ⊢
      omega

theorem foldl_fillDefault_within {tparameters : List Tparameter}
    (hp : ∀ p ∈ tparameters, p ∈ t.tparameters) {s : Settlement}
    (h : s.Within (t.frameBound call scope)) :
    (tparameters.foldl (t.fillDefault call) s).Within (t.frameBound call scope) := by
  induction tparameters generalizing s with
  | nil => exact h
  | cons p rest ih =>
    exact ih (fun q hq => hp q (List.mem_cons_of_mem _ hq))
      (fillDefault_within (hp p List.mem_cons_self) h)

theorem settlement_within : (t.settlement call scope).Within (t.frameBound call scope) := by
  unfold settlement
  apply foldl_fillDefault_within fun _ h => h
  apply fillOpen_within
  apply foldl_settle_within offers_within
  intro pair h
  exact absurd h List.not_mem_nil

theorem frameBindings_within (t : Template) (call : Node) (scope : Scope) :
    ∀ pair ∈ t.frameBindings (t.settlement call scope),
      pair.2.Within (t.frameBound call scope) := by
  intro pair hp
  obtain ⟨p, _, h⟩ := List.mem_filterMap.1 hp
  obtain ⟨b, hb, rfl⟩ := Option.map_eq_some_iff.1 h
  exact settlement_within _ (Keyed.mem_of_get? hb)

/-- The body of a template, read under the frame of a call, costs less than the call. -/
theorem cost_frame_lt {frame : Scope} (h : (t.bindCall call scope).1 = some frame)
    (visible : 1 + t.home.weight +
      (t.body.count + Tparameter.defaultsCount t.tparameters) * t.home.factor ≤ scope.factor) :
    frame.cost t.body.count < scope.cost call.count := by
  unfold bindCall at h
  dsimp only at h
  split at h
  · obtain rfl := Option.some.inj h
    -- the frame adds to the home what the call binds, and the body is read under both; the factor
    -- of the calling scope was made for this sum
    have weight := Scope.weight_extend_le t.home .call (frameBindings_within t call scope)
    have factor := Scope.factor_extend_le t.home .call (frameBindings_within t call scope)
    have body := Nat.mul_le_mul_left t.body.count factor
    have size := call.count_eq
    unfold frameBound at weight
    unfold Scope.cost at weight ⊢
    rw [size, Nat.add_mul]
    rw [Nat.add_mul] at visible
    omega
  · simp at h

end Template

/-! ## The steps of an expansion -/

namespace Scope

variable {s : Scope} {n : Node}

/-- The children of a node that stands for itself cost less than the node. -/
theorem cost_children_lt {m : Node} (h : (s.reading n).1 = .plain m) :
    2 * s.cost (Node.countAll m.children) + 1 < 2 * s.cost n.count := by
  have children := children_of_reading_plain h
  have := cost_lt_cost (s := s)
    (show Node.countAll m.children < n.count by rw [children, n.count_eq]; omega)
  omega

/-- Captured nodes cost less than the node that stands for them. -/
theorem cost_captured_lt {nodes : List Node} {scope : Scope}
    (h : (s.reading n).1 = .captured nodes scope) :
    2 * scope.cost (Node.countAll nodes) + 1 < 2 * s.cost n.count := by
  have captured := cost_of_reading_captured h
  have := Nat.mul_le_mul (show 1 ≤ n.count by rw [n.count_eq]; omega) s.one_le_factor
  unfold cost at captured ⊢
  omega

/-- The body of the template that a node calls costs less than the node. -/
theorem cost_body_lt {t : Template} {call : Node} {frame : Scope}
    (h : (s.reading n).1 = .call t call) (hb : (t.bindCall call s).1 = some frame) :
    2 * frame.cost t.body.count < 2 * s.cost n.count := by
  have called := of_reading_call h
  have := Template.cost_frame_lt hb called.2
  have : call.count = n.count := by rw [call.count_eq, n.count_eq, called.1]
  simp only [*] at *
  omega

/-- The first of some siblings costs no more than all of them. -/
theorem cost_first_lt (rest : List Node) :
    2 * s.cost n.count < 2 * s.cost (Node.countAll (n :: rest)) + 1 := by
  have := cost_le_cost (s := s)
    (show n.count ≤ Node.countAll (n :: rest) by rw [Node.countAll]; omega)
  omega

/-- The siblings after the first cost less than all of them. -/
theorem cost_rest_lt (rest : List Node) :
    2 * s.cost (Node.countAll rest) + 1 < 2 * s.cost (Node.countAll (n :: rest)) + 1 := by
  have := cost_lt_cost (s := s)
    (show Node.countAll rest < Node.countAll (n :: rest) by
      rw [Node.countAll, n.count_eq]; omega)
  omega

end Scope

end Stencil
