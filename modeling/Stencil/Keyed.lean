/-!
# Values by name

A keyed list holds values by name, each name once, in the order in which the names first
came.  Putting a value under a name that is there keeps the place and replaces the value.

Two orders of the names occur: the order of arrival, and the order of a record's fields, in
which the names that are whole numbers come first and ascend.
-/

namespace Stencil

/-- Values by name, in the order of their names' arrival. -/
abbrev Keyed (β : Type) := List (String × β)

namespace Keyed

variable {β : Type}

/-- The value under a name. -/
def get? (m : Keyed β) (name : String) : Option β :=
  List.lookup name m

/-- Whether a name has a value. -/
def has (m : Keyed β) (name : String) : Bool :=
  (m.get? name).isSome

/-- The names, in order. -/
def names (m : Keyed β) : List String :=
  m.map Prod.fst

/-- The list with a value put under a name: in the name's place if it has one, else last. -/
def put : Keyed β → String → β → Keyed β
  | [], name, value => [(name, value)]
  | (other, old) :: rest, name, value =>
    if other = name then (name, value) :: rest
    else (other, old) :: put rest name value

/-- The keyed list of some pairs, put one after another. -/
def ofPairs (pairs : List (String × β)) : Keyed β :=
  pairs.foldl (fun m pair => put m pair.1 pair.2) []

/-! ## Members -/

theorem mem_of_get? {m : Keyed β} {name : String} {value : β}
    (h : m.get? name = some value) : (name, value) ∈ m := by
  induction m with
  | nil => simp [get?] at h
  | cons pair rest ih =>
    obtain ⟨other, old⟩ := pair
    by_cases same : name = other
    · subst same
      rw [get?, List.lookup_cons_self] at h
      rw [Option.some.inj h]
      exact List.mem_cons_self
    · rw [get?, List.lookup_cons, beq_false_of_ne same] at h
      exact List.mem_cons_of_mem _ (ih h)

theorem mem_names_of_has {m : Keyed β} {name : String} (h : m.has name = true) :
    name ∈ m.names := by
  obtain ⟨value, hv⟩ := Option.isSome_iff_exists.1 h
  exact List.mem_map.2 ⟨_, mem_of_get? hv, rfl⟩

theorem mem_put {m : Keyed β} {name : String} {value : β} {pair : String × β}
    (h : pair ∈ m.put name value) : pair ∈ m ∨ pair = (name, value) := by
  induction m with
  | nil => exact .inr (List.mem_singleton.1 h)
  | cons first rest ih =>
    obtain ⟨other, old⟩ := first
    rw [put] at h
    split at h
    · rcases List.mem_cons.1 h with h | h
      · exact .inr h
      · exact .inl (List.mem_cons_of_mem _ h)
    · rcases List.mem_cons.1 h with rfl | h
      · exact .inl List.mem_cons_self
      · exact (ih h).imp_left (List.mem_cons_of_mem _)

theorem mem_foldl_put {pairs : List (String × β)} {m : Keyed β} {pair : String × β}
    (h : pair ∈ pairs.foldl (fun m pair => m.put pair.1 pair.2) m) :
    pair ∈ m ∨ pair ∈ pairs := by
  induction pairs generalizing m with
  | nil => exact .inl h
  | cons first rest ih =>
    rcases ih h with h | h
    · rcases mem_put h with h | rfl
      · exact .inl h
      · exact .inr List.mem_cons_self
    · exact .inr (List.mem_cons_of_mem _ h)

/-- Every pair of a keyed list is one of the pairs it was made of. -/
theorem mem_of_mem_ofPairs {pairs : List (String × β)} {pair : String × β}
    (h : pair ∈ ofPairs pairs) : pair ∈ pairs := by
  rcases mem_foldl_put h with h | h
  · exact absurd h List.not_mem_nil
  · exact h

/-! ## The order of a record's fields -/

/-- The whole number that a field name spells, if it spells one in the one usual way and the
number is less than `2 ^ 32 - 1`. -/
def index? (name : String) : Option Nat :=
  match name.toNat? with
  | some n => if toString n = name ∧ n < Nat.pow 2 32 - 1 then some n else none
  | none => none

/-- The fields of a record given by pairs: the whole numbers first, ascending, then the other
names by arrival. -/
def fieldsOfPairs (pairs : List (String × β)) : Keyed β :=
  let all := ofPairs pairs
  let numbered := all.filterMap fun pair => (index? pair.1).map fun n => (n, pair)
  let sorted := numbered.mergeSort fun a b => a.1 ≤ b.1
  sorted.map Prod.snd ++ all.filter fun pair => (index? pair.1).isNone

end Keyed

end Stencil
