import Mathlib.Data.List.Induction
import Mathlib.Tactic.Lemma
import Stencil.Keyed

/-!
# Looking up and putting values

The laws of keyed lists.  A list in which no name occurs twice is settled by what its names look
up: its order does not matter (`get?_eq_of_perm`).

A list of pairs becomes a keyed list by putting one pair after another (`ofPairs`), and then the
last value of a name counts (`get?_ofPairs`) at the place of its first.

`Related` compares two keyed lists with the same names in the same order, value by value.  What is
done with both by name, be it a lookup or a further value, keeps them related.  This is how frames
of two scopes are compared.
-/

namespace Stencil

namespace Keyed

variable {α β : Type} {m m' : Keyed β} {name other : String} {value : β}

/-- A name is looked up in the first pair, then in the others. -/
lemma get?_cons (pair : String × β) (rest : Keyed β) (name : String) :
    get? (pair :: rest) name = if pair.1 = name then some pair.2 else get? rest name := by
  rw [get?, List.lookup_cons]
  by_cases same : pair.1 = name
  · rw [if_pos same, same, beq_self_eq_true]
  · rw [if_neg same, beq_false_of_ne (Ne.symm same)]
    rfl

/-- A name without a value is looked up in vain. -/
lemma has_eq_false_iff : m.has name = false ↔ m.get? name = none := by
  rw [has, Option.isSome_eq_false_iff, Option.isNone_iff_eq_none]

/-- The names that have a value are the names of the list. -/
lemma has_iff_mem_names : m.has name = true ↔ name ∈ m.names := by
  refine ⟨mem_names_of_has, ?_⟩
  intro h
  obtain ⟨pair, hp, rfl⟩ := List.mem_map.1 h
  exact List.lookup_isSome_iff.2 ⟨pair, hp, beq_self_eq_true _⟩

/-- A name is looked up in vain just if it is none of the list. -/
lemma get?_eq_none_iff : m.get? name = none ↔ name ∉ m.names := by
  rw [← has_eq_false_iff, ← Bool.not_eq_true, has_iff_mem_names]

/-! ## Putting values -/

/-- A value is found under the name that it was put under, and nothing else has changed. -/
lemma get?_put (m : Keyed β) (name other : String) (value : β) :
    (m.put name value).get? other = if name = other then some value else m.get? other := by
  induction m with
  | nil => rw [put, get?_cons]
  | cons pair rest ih =>
    obtain ⟨key, old⟩ := pair
    rw [put, get?_cons]
    by_cases found : key = name
    · rw [if_pos found, get?_cons, found]
      split <;> rfl
    · rw [if_neg found, get?_cons, ih]
      by_cases same : key = other
      · rw [if_pos same, if_neg fun h => found (same.trans h.symm), if_pos same]
      · rw [if_neg same]
        split <;> rfl

/-- The name that a value was put under is one more name. -/
lemma has_put : (m.put name value).has other = (name == other || m.has other) := by
  rw [has, get?_put, has]
  by_cases same : name = other <;> simp [same]

/-- A value under a new name comes last. -/
lemma put_eq_append (fresh : m.has name = false) : m.put name value = m ++ [(name, value)] := by
  induction m with
  | nil => rfl
  | cons pair rest ih =>
    rw [has_eq_false_iff, get?_cons] at fresh
    by_cases same : pair.1 = name
    · rw [if_pos same] at fresh
      cases fresh
    · rw [if_neg same] at fresh
      have last := ih (has_eq_false_iff.2 fresh)
      rw [put, if_neg same, last]
      rfl

/-- Putting some pairs one after another, every name of them and every earlier name has a value. -/
lemma has_foldl_put {pairs : List (String × β)}
    (h : m.has name = true ∨ name ∈ pairs.map Prod.fst) :
    Keyed.has (pairs.foldl (fun m pair => put m pair.1 pair.2) m) name = true := by
  induction pairs generalizing m with
  | nil => simpa using h
  | cons pair rest ih =>
    refine ih ?_
    rw [has_put]
    rcases h with h | h
    · simp [h]
    · rcases List.mem_cons.1 h with rfl | h
      · simp
      · exact .inr h

/-- Whatever some pairs name has a value in the keyed list of them. -/
lemma exists_get?_ofPairs {pairs : List (String × β)} (h : name ∈ pairs.map Prod.fst) :
    ∃ value, (ofPairs pairs).get? name = some value ∧ (name, value) ∈ pairs := by
  have has := has_foldl_put (m := []) (.inr h)
  obtain ⟨value, found⟩ := Option.isSome_iff_exists.1 has
  exact ⟨value, found, mem_of_mem_ofPairs (mem_of_get? found)⟩

/-- The keyed list of some pairs has their names. -/
lemma mem_names_ofPairs_iff {pairs : List (String × β)} :
    name ∈ (ofPairs pairs).names ↔ name ∈ names pairs := by
  constructor
  · intro h
    obtain ⟨pair, hp, rfl⟩ := List.mem_map.1 h
    exact List.mem_map_of_mem (mem_of_mem_ofPairs hp)
  · intro h
    obtain ⟨value, found, _⟩ := exists_get?_ofPairs h
    exact List.mem_map_of_mem (f := Prod.fst) (mem_of_get? found)

/-- A name that none of the pairs has is looked up in vain. -/
lemma get?_ofPairs_eq_none_iff {pairs : List (String × β)} :
    (ofPairs pairs).get? name = none ↔ name ∉ names pairs := by
  rw [get?_eq_none_iff, mem_names_ofPairs_iff]

/-- Of the pairs that a keyed list is made of, the last one under a name counts. -/
lemma get?_ofPairs (pairs : List (String × β)) (name : String) :
    (ofPairs pairs).get? name =
      (pairs.filter fun pair => pair.1 == name).getLast?.map Prod.snd := by
  induction pairs using List.reverseRecOn with
  | nil => rfl
  | append_singleton rest pair ih =>
    have made : ofPairs (rest ++ [pair]) = (ofPairs rest).put pair.1 pair.2 := by
      rw [ofPairs, List.foldl_append, List.foldl_cons, List.foldl_nil, ofPairs]
    rw [made, get?_put, List.filter_append]
    by_cases same : pair.1 = name
    · simp [same]
    · simp [same, ih]

/-! ## Lists without repeated names -/

/-- Putting a value under a name that is there changes no names. -/
lemma names_put (known : m.has name = true) : (m.put name value).names = m.names := by
  induction m with
  | nil => cases known
  | cons pair rest ih =>
    obtain ⟨key, old⟩ := pair
    rw [put]
    by_cases found : key = name
    · rw [if_pos found, ← found]
      rfl
    · rw [has, get?_cons, if_neg found] at known
      rw [if_neg found]
      exact congrArg (key :: ·) (ih known)

/-- Putting a value makes no name occur twice. -/
lemma nodup_put (nodup : m.names.Nodup) (name : String) (value : β) :
    (m.put name value).names.Nodup := by
  rcases known : m.has name with _ | _
  · have absent : name ∉ m.names := by
      rw [← has_iff_mem_names, known]
      exact Bool.false_ne_true
    rw [put_eq_append known, names, List.map_append]
    refine List.nodup_append.2 ⟨nodup, by simp, ?_⟩
    rintro a ha b hb rfl
    obtain rfl := List.mem_singleton.1 hb
    exact absent ha
  · rwa [names_put known]

/-- A keyed list has each name once. -/
lemma nodup_ofPairs (pairs : List (String × β)) : (ofPairs pairs).names.Nodup :=
  List.foldlRecOn (motive := fun m : Keyed β => m.names.Nodup) pairs _ List.nodup_nil
    fun _ nodup pair _ => nodup_put nodup pair.1 pair.2

/-- A list in which no name occurs twice is the keyed list of itself. -/
lemma ofPairs_eq_self (nodup : m.names.Nodup) : ofPairs m = m := by
  -- the pairs put so far are generalised; the next one has a new name, so it comes last, where it
  -- stood
  have along : ∀ (rest seen : Keyed β), (names (seen ++ rest)).Nodup →
      rest.foldl (fun m pair => put m pair.1 pair.2) seen = seen ++ rest := by
    intro rest
    induction rest with
    | nil => exact fun seen _ => (List.append_nil seen).symm
    | cons pair rest ih =>
      intro seen nodup
      have fresh : seen.has pair.1 = false := by
        rw [← Bool.not_eq_true, has_iff_mem_names]
        intro known
        rw [names, List.map_append] at nodup
        exact (List.nodup_append.1 nodup).2.2 _ known _ List.mem_cons_self rfl
      rw [List.append_cons] at nodup ⊢
      rw [List.foldl_cons, put_eq_append fresh]
      exact ih _ nodup
  exact along m [] nodup

/-- A record's fields keep their order where no name occurs twice or spells a whole number. -/
lemma fieldsOfPairs_eq_self (nodup : m.names.Nodup) (named : ∀ name ∈ m.names, index? name = none) :
    fieldsOfPairs m = m := by
  have none_at : ∀ pair ∈ m, index? pair.1 = none := fun pair hp =>
    named _ (List.mem_map_of_mem (f := Prod.fst) hp)
  have numbered : (m.filterMap fun pair => (index? pair.1).map fun n => (n, pair)) = [] := by
    refine List.filterMap_eq_nil_iff.2 fun pair hp => ?_
    rw [none_at pair hp]
    rfl
  have others : (m.filter fun pair => (index? pair.1).isNone) = m := by
    refine List.filter_eq_self.2 fun pair hp => ?_
    rw [none_at pair hp]
    rfl
  rw [fieldsOfPairs, ofPairs_eq_self nodup, numbered, others, List.mergeSort_nil]
  rfl

/-- A name that begins with no digit does not spell a whole number. -/
lemma index?_eq_none (h : ∀ c ∈ name.toList.head?, c.isDigit = false) : index? name = none := by
  rw [index?]
  split
  · split
    · next n _ spelt =>
      have digits : name.toList = Nat.toDigits 10 n := by
        rw [← spelt.1]
        exact Nat.toList_repr
      obtain ⟨c, rest, first⟩ := List.exists_cons_of_ne_nil (Nat.toDigits_ne_nil (n := n) (b := 10))
      have digit : c.isDigit = true := Nat.isDigit_of_mem_toDigits (by decide) (Nat.le_refl 10)
        (first ▸ List.mem_cons_self)
      rw [digits, first] at h
      rw [h c rfl] at digit
      cases digit
    · rfl
  · rfl

/-- Where no name occurs twice, each pair is found under its name. -/
lemma get?_eq_some_iff (nodup : m.names.Nodup) :
    m.get? name = some value ↔ (name, value) ∈ m := by
  refine ⟨mem_of_get?, ?_⟩
  intro h
  induction m with
  | nil => exact absurd h List.not_mem_nil
  | cons pair rest ih =>
    obtain ⟨fresh, nodup⟩ := List.nodup_cons.1 nodup
    rw [get?_cons]
    rcases List.mem_cons.1 h with rfl | h
    · exact if_pos rfl
    · have ne : pair.1 ≠ name := by
        rintro same
        have mem : name ∈ names rest := List.mem_map_of_mem (f := Prod.fst) h
        exact fresh (same ▸ mem)
      rw [if_neg ne]
      exact ih nodup h

/-- **The order of a list without repeated names does not matter** to what is looked up. -/
theorem get?_eq_of_perm (h : List.Perm m m') (nodup : m.names.Nodup) (name : String) :
    m.get? name = m'.get? name := by
  have nodup' : m'.names.Nodup := (h.map Prod.fst).nodup_iff.1 nodup
  apply Option.ext
  intro value
  rw [get?_eq_some_iff nodup, get?_eq_some_iff nodup', h.mem_iff]

/-- Looking up commutes with changing the values. -/
lemma get?_map (m : Keyed α) (f : α → β) (name : String) :
    get? (m.map fun pair => (pair.1, f pair.2)) name = (m.get? name).map f := by
  induction m with
  | nil => rfl
  | cons pair rest ih =>
    rw [List.map_cons, get?_cons, get?_cons]
    by_cases same : pair.1 = name
    · rw [if_pos same, if_pos same]
      rfl
    · rw [if_neg same, if_neg same]
      exact ih

/-- Changing the values changes no names. -/
lemma has_map (m : Keyed α) (f : α → β) (name : String) :
    has (m.map fun pair => (pair.1, f pair.2)) name = m.has name := by
  rw [has, get?_map, Option.isSome_map, has]

/-- Putting a value commutes with changing the values. -/
lemma put_map (m : Keyed α) (f : α → β) (name : String) (a : α) :
    put (m.map fun pair => (pair.1, f pair.2)) name (f a) =
      (m.put name a).map fun pair => (pair.1, f pair.2) := by
  induction m with
  | nil => rfl
  | cons pair rest ih =>
    rw [List.map_cons, put, put]
    by_cases same : pair.1 = name
    · rw [if_pos same, if_pos same]
      rfl
    · rw [if_neg same, if_neg same, List.map_cons, ih]

/-- So does the making of a keyed list. -/
lemma ofPairs_map (pairs : List (String × α)) (f : α → β) :
    ofPairs (pairs.map fun pair => (pair.1, f pair.2)) =
      (ofPairs pairs).map fun pair => (pair.1, f pair.2) := by
  have along : ∀ (pairs : List (String × α)) (m : Keyed α),
      (pairs.map fun pair => (pair.1, f pair.2)).foldl (fun m pair => put m pair.1 pair.2)
          (m.map fun pair => (pair.1, f pair.2)) =
        (pairs.foldl (fun m pair => put m pair.1 pair.2) m).map fun pair => (pair.1, f pair.2) := by
    intro pairs
    induction pairs with
    | nil => exact fun _ => rfl
    | cons pair rest ih =>
      intro m
      rw [List.map_cons, List.foldl_cons, List.foldl_cons, put_map, ih]
  exact along pairs []

/-! ## Related values -/

/-- Two keyed lists with the same names in the same order, and with related values. -/
inductive Related (R : α → β → Prop) : Keyed α → Keyed β → Prop
  | nil : Related R [] []
  | cons {name : String} {a : α} {b : β} {m : Keyed α} {m' : Keyed β} (head : R a b)
      (tail : Related R m m') : Related R ((name, a) :: m) ((name, b) :: m')

namespace Related

variable {R : α → β → Prop} {l k : Keyed α} {l' k' : Keyed β}

/-- Related lists have the same names. -/
lemma names_eq (h : Related R l l') : l.names = l'.names := by
  induction h with
  | nil => rfl
  | cons _ _ ih => exact congrArg _ ih

/-- A name is bound in both lists, to related values, or in neither. -/
lemma get? (h : Related R l l') (name : String) :
    (l.get? name = none ∧ l'.get? name = none) ∨
      ∃ a b, l.get? name = some a ∧ l'.get? name = some b ∧ R a b := by
  induction h with
  | nil => exact .inl ⟨rfl, rfl⟩
  | @cons key a b _ _ head _ ih =>
    rw [get?_cons, get?_cons]
    by_cases same : key = name
    · rw [if_pos same, if_pos same]
      exact .inr ⟨a, b, rfl, rfl, head⟩
    · rw [if_neg same, if_neg same]
      exact ih

/-- A name has a value in both lists or in neither. -/
lemma has_eq (h : Related R l l') (name : String) : l.has name = l'.has name := by
  rcases h.get? name with ⟨none, none'⟩ | ⟨a, b, found, found', _⟩
  · rw [Keyed.has, Keyed.has, none, none']
    rfl
  · rw [Keyed.has, Keyed.has, found, found']
    rfl

/-- Each pair of the one list has its counterpart in the other. -/
lemma exists_of_mem (h : Related R l l') {pair : String × α} (hp : pair ∈ l) :
    ∃ b, (pair.1, b) ∈ l' ∧ R pair.2 b := by
  induction h with
  | nil => exact absurd hp List.not_mem_nil
  | @cons _ _ b _ _ head _ ih =>
    rcases List.mem_cons.1 hp with rfl | hp
    · exact ⟨b, List.mem_cons_self, head⟩
    · obtain ⟨b, hb, related⟩ := ih hp
      exact ⟨b, List.mem_cons_of_mem _ hb, related⟩

/-- Tests that related values pass alike find the same among the values under some names. -/
lemma any_filter_eq (h : Related R l l') {p : α → Bool} {q : β → Bool}
    (same : ∀ a b, R a b → p a = q b) (named : String → Bool) :
    (l.filter fun pair => named pair.1).any (fun pair => p pair.2) =
      (l'.filter fun pair => named pair.1).any fun pair => q pair.2 := by
  induction h with
  | nil => rfl
  | cons head _ ih =>
    rw [List.filter_cons, List.filter_cons]
    split
    · rw [List.any_cons, List.any_cons, same _ _ head, ih]
    · exact ih

/-- Related lists are related when others are put behind them. -/
lemma append (h : Related R l l') (h' : Related R k k') : Related R (l ++ k) (l' ++ k') := by
  induction h with
  | nil => exact h'
  | cons head _ ih => exact .cons head ih

/-- Related values can be put under one name. -/
lemma put (h : Related R l l') {name : String} {a : α} {b : β} (hab : R a b) :
    Related R (l.put name a) (l'.put name b) := by
  induction h with
  | nil => exact .cons hab .nil
  | @cons key _ _ _ _ head tail ih =>
    rw [Keyed.put, Keyed.put]
    by_cases same : key = name
    · rw [if_pos same, if_pos same]
      exact .cons hab tail
    · rw [if_neg same, if_neg same]
      exact .cons head ih

/-- Related lists of pairs can be put into related lists. -/
lemma foldl_put (h : Related R l l') (acc : Related R k k') :
    Related R (l.foldl (fun m pair => Keyed.put m pair.1 pair.2) k)
      (l'.foldl (fun m pair => Keyed.put m pair.1 pair.2) k') := by
  induction h generalizing k k' with
  | nil => exact acc
  | cons head _ ih => exact ih (acc.put head)

/-- Related lists of pairs make related keyed lists. -/
lemma ofPairs (h : Related R l l') : Related R (Keyed.ofPairs l) (Keyed.ofPairs l') :=
  h.foldl_put .nil

/-- The relation can be weakened at the values that occur. -/
lemma mono_of_mem {S : α → β → Prop} (h : Related R l l')
    (le : ∀ pair ∈ l, ∀ b, R pair.2 b → S pair.2 b) : Related S l l' := by
  induction h with
  | nil => exact .nil
  | cons head _ ih =>
    exact .cons (le _ List.mem_cons_self _ head) (ih fun p hp => le p (List.mem_cons_of_mem _ hp))

/-- The relation can be weakened. -/
lemma mono {S : α → β → Prop} (h : Related R l l') (le : ∀ a b, R a b → S a b) :
    Related S l l' :=
  h.mono_of_mem fun pair _ => le pair.2

end Related

end Keyed

end Stencil
