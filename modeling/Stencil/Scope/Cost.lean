import Stencil.Scope.Lookup

/-!
# The cost of a scope

Why does expansion end?  A call jumps to another body under a new frame, and a captured
argument jumps back to the scope of the call, so no tree shrinks.  What shrinks is a cost,
which two numbers of a scope determine:

* `Scope.weight` bounds the cost of everything that the scope has captured;
* `Scope.factor` bounds what one node may lead to, for each template in sight: the body and
  the defaults of the template, read under its home.

Reading nodes of total size `k` under a scope `s` costs at most `s.cost k`.  Both numbers are
defined by recursion on the nesting of scopes; they are used in proofs only.
-/

namespace Stencil

/-- The size of a tparameter's default. -/
def Tparameter.defaultCount (p : Tparameter) : Nat :=
  match p.form with
  | .positional | .named _ => 0
  | .node default => default.count
  | .splice default => Node.countAll default

/-- The size of all defaults of some tparameters. -/
def Tparameter.defaultsCount : List Tparameter → Nat
  | [] => 0
  | p :: rest => p.defaultCount + defaultsCount rest

mutual

/-- A bound on the cost of what a scope has captured. -/
def Scope.weight : Scope → Nat
  | .root => 0
  | .frame parent _ bindings _ => max parent.weight (Binding.weightAll bindings)

/-- A bound on the cost of what some bindings have captured. -/
def Binding.weightAll : List (String × Binding) → Nat
  | [] => 0
  | (_, b) :: rest => max b.weight (Binding.weightAll rest)

/-- The cost of what a binding has captured. -/
def Binding.weight : Binding → Nat
  | .template .. => 0
  | .value _ => 0
  | .node node scope => scope.weight + node.count * scope.factor
  | .splice nodes scope => scope.weight + Node.countAll nodes * scope.factor

/-- A bound on what one node may lead to under a scope. -/
def Scope.factor : Scope → Nat
  | .root => 1
  | .frame parent _ bindings _ => max parent.factor (Binding.factorAll bindings)

/-- A bound on what a call of one of some bindings may lead to. -/
def Binding.factorAll : List (String × Binding) → Nat
  | [] => 0
  | (_, b) :: rest => max b.factor (Binding.factorAll rest)

/-- What a call of a binding may lead to. -/
def Binding.factor : Binding → Nat
  | .template (some ⟨_, tparameters, body, home, _, _⟩) _ _ _ =>
    1 + home.weight + (body.count + Tparameter.defaultsCount tparameters) * home.factor
  | .template none _ _ _ => 0
  | .value _ => 0
  | .node .. => 0
  | .splice .. => 0

end

/-- The cost of reading nodes of total size `k` under a scope. -/
def Scope.cost (s : Scope) (k : Nat) : Nat :=
  s.weight + k * s.factor

namespace Scope

theorem one_le_factor : (s : Scope) → 1 ≤ s.factor
  | .root => by simp [factor]
  | .frame parent _ _ _ => by
    have := one_le_factor parent
    rw [factor]
    omega

theorem cost_lt_cost {s : Scope} {j k : Nat} (h : j < k) : s.cost j < s.cost k := by
  have := Nat.mul_lt_mul_of_pos_right h s.one_le_factor
  unfold cost
  omega

theorem cost_le_cost {s : Scope} {j k : Nat} (h : j ≤ k) : s.cost j ≤ s.cost k := by
  have := Nat.mul_le_mul_right s.factor h
  unfold cost
  omega

end Scope

/-! ## The largest of some bindings -/

namespace Binding

variable {measure : Binding → Nat} {bindings : List (String × Binding)} {bound : Nat}

/-- The largest value of a measure on some bindings. -/
def largest (measure : Binding → Nat) (bindings : List (String × Binding)) : Nat :=
  bindings.foldr (fun pair largest => max (measure pair.2) largest) 0

theorem largest_le_iff :
    largest measure bindings ≤ bound ↔ ∀ pair ∈ bindings, measure pair.2 ≤ bound := by
  induction bindings with
  | nil => simp [largest]
  | cons pair rest ih =>
    rw [List.forall_mem_cons, ← ih]
    exact Nat.max_le

theorem weightAll_eq_largest (bindings : List (String × Binding)) :
    weightAll bindings = largest weight bindings := by
  induction bindings with
  | nil => rw [weightAll]; rfl
  | cons pair rest ih => rw [weightAll, ih]; rfl

theorem factorAll_eq_largest (bindings : List (String × Binding)) :
    factorAll bindings = largest factor bindings := by
  induction bindings with
  | nil => rw [factorAll]; rfl
  | cons pair rest ih => rw [factorAll, ih]; rfl

end Binding

namespace Scope

theorem weight_frame (parent : Scope) (kind : FrameKind) (bindings : List (String × Binding))
    (declared : Option (List String)) :
    (frame parent kind bindings declared).weight =
      max parent.weight (Binding.largest Binding.weight bindings) := by
  rw [weight, Binding.weightAll_eq_largest]

theorem factor_frame (parent : Scope) (kind : FrameKind) (bindings : List (String × Binding))
    (declared : Option (List String)) :
    (frame parent kind bindings declared).factor =
      max parent.factor (Binding.largest Binding.factor bindings) := by
  rw [factor, Binding.factorAll_eq_largest]

/-! ## The bindings of a scope cost no more than the scope -/

/-- What is found in a scope measures no more than the scope, if each frame measures as much as its
parent and the largest of its bindings. -/
theorem le_of_lookup {measure : Scope → Nat} {part : Binding → Nat} {name : String} {b : Binding}
    (frames : ∀ parent kind bindings declared, measure (frame parent kind bindings declared) =
      max (measure parent) (Binding.largest part bindings)) :
    (s : Scope) → s.lookup name = some b → part b ≤ measure s
  | .root, h => by simp [lookup] at h
  | .frame parent kind bindings declared, h => by
    rw [lookup] at h
    rw [frames]
    split at h
    · next c hc =>
      obtain rfl := Option.some.inj h
      have inside : part c ≤ Binding.largest part bindings :=
        Binding.largest_le_iff.1 (Nat.le_refl _) _ (Keyed.mem_of_get? hc)
      exact Nat.le_trans inside (Nat.le_max_right _ _)
    · exact Nat.le_trans (le_of_lookup frames parent h) (Nat.le_max_left _ _)

theorem weight_le_of_lookup {name : String} {b : Binding} (s : Scope)
    (h : s.lookup name = some b) : b.weight ≤ s.weight :=
  s.le_of_lookup weight_frame h

theorem factor_le_of_lookup {name : String} {b : Binding} (s : Scope)
    (h : s.lookup name = some b) : b.factor ≤ s.factor :=
  s.le_of_lookup factor_frame h

end Scope

/-! ## A frame costs no more than its bindings -/

/-- A binding that captures at most the cost `bound` and leads to no call. -/
def Binding.Within (bound : Nat) (b : Binding) : Prop :=
  b.weight ≤ bound ∧ b.factor = 0

theorem Scope.weight_extend_le (s : Scope) (kind : FrameKind)
    {bindings : List (String × Binding)} {bound : Nat}
    (h : ∀ pair ∈ bindings, pair.2.Within bound) :
    (s.extend bindings kind).weight ≤ max s.weight bound := by
  have captured : Binding.largest Binding.weight (Keyed.ofPairs bindings) ≤ bound :=
    Binding.largest_le_iff.2 fun pair hp => (h pair (Keyed.mem_of_mem_ofPairs hp)).1
  rw [extend, weight_frame]
  omega

theorem Scope.factor_extend_le (s : Scope) (kind : FrameKind)
    {bindings : List (String × Binding)} {bound : Nat}
    (h : ∀ pair ∈ bindings, pair.2.Within bound) :
    (s.extend bindings kind).factor ≤ s.factor := by
  have called : Binding.largest Binding.factor (Keyed.ofPairs bindings) ≤ 0 :=
    Binding.largest_le_iff.2 fun pair hp =>
      Nat.le_of_eq (h pair (Keyed.mem_of_mem_ofPairs hp)).2
  rw [extend, factor_frame]
  omega

end Stencil
