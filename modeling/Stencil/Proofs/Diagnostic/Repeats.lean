import Mathlib.Data.List.Basic
import Stencil.Diagnostic.Basic
import Stencil.Proofs.Firsts

/-!
# Repeats

Two diagnostics are repeats of each other when they have the same code and message at the same
span.  The engine recognises repeats by a key that joins the three to one text, and the text keeps
them apart (`key_eq_iff`): codes have one length, what follows tells whether there is a span, and
numbers hold neither of the marks that end them.

So merging by keys is merging of repeats, and each is left with its first report
(`distinct_keeps_first_reports`).  Merging and picking out the diagnostics of one sort can be done
in either order as long as no sort is repeated by another (`filter_distinct`).
-/

namespace Stencil

/-! ## Marks between numbers -/

/-- A mark that does not occur before it splits a text in one way. -/
lemma append_cons_eq_iff {α : Type} {mark : α} {l k r q : List α} (h : mark ∉ l) (h' : mark ∉ k) :
    l ++ mark :: r = k ++ mark :: q ↔ l = k ∧ r = q := by
  induction l generalizing k with
  | nil =>
    rcases k with _ | ⟨y, rest⟩
    · simp
    · have ne : mark ≠ y := fun same => h' (same ▸ List.mem_cons_self)
      simp [ne]
  | cons x rest ih =>
    rcases k with _ | ⟨y, others⟩
    · have ne : x ≠ mark := fun same => h (same ▸ List.mem_cons_self)
      simp [ne]
    · have inner := ih (k := others) (fun mem => h (List.mem_cons_of_mem _ mem))
        fun mem => h' (List.mem_cons_of_mem _ mem)
      simp only [List.cons_append, List.cons.injEq, inner, and_assoc]

lemma isDigit_of_mem_repr {n : Nat} {c : Char} (h : c ∈ n.repr.toList) : c.isDigit = true := by
  rw [Nat.toList_repr] at h
  exact Nat.isDigit_of_mem_toDigits (by decide) (by decide) h

/-- The text of a number is made of digits and the minus sign. -/
lemma not_mem_toString {mark : Char} (digit : mark.isDigit = false) (sign : mark ≠ '-') (x : Int) :
    mark ∉ (toString x).toList := by
  have natural : ∀ n : Nat, mark ∉ n.repr.toList := by
    intro n mem
    rw [isDigit_of_mem_repr mem] at digit
    cases digit
  rw [Int.toString_eq_repr, Int.repr_eq_if]
  split
  · exact natural _
  · rw [String.toList_append, List.mem_append, not_or]
    exact ⟨by simpa using sign, natural _⟩

/-- Numbers have texts of their own. -/
lemma toString_eq_iff {x y : Int} : toString x = toString y ↔ x = y := by
  have natural : ∀ m n : Nat, m.repr = n.repr → m = n := by
    intro m n h
    rw [← String.toList_inj, Nat.toList_repr, Nat.toList_repr] at h
    rw [← Nat.ofDigitChars_ten_toDigits (n := m), h, Nat.ofDigitChars_ten_toDigits]
  have unsigned : ∀ m n : Nat, m.repr ≠ "-" ++ n.repr := by
    intro m n h
    have sign : '-' ∈ m.repr.toList := by simp [h]
    exact absurd (isDigit_of_mem_repr sign) (by decide)
  refine ⟨fun h => ?_, congrArg toString⟩
  rw [Int.toString_eq_repr, Int.toString_eq_repr, Int.repr_eq_if, Int.repr_eq_if] at h
  split at h <;> split at h
  · have := natural _ _ h
    omega
  · exact absurd h (unsigned _ _)
  · exact absurd h.symm (unsigned _ _)
  · have := natural _ _ (by simpa using h)
    omega

/-! ## Keys -/

namespace Kind

lemma mem_all (k : Kind) : k ∈ all := by
  cases k <;> decide

lemma length_code (k : Kind) : k.code.toList.length = 5 := by
  cases k <;> decide

/-- No two kinds have the same code. -/
lemma eq_of_code_eq {a b : Kind} (h : a.code = b.code) : a = b := by
  have : ∀ a ∈ all, ∀ b ∈ all, a.code = b.code → a = b := by decide
  exact this a a.mem_all b b.mem_all h

end Kind

namespace Diagnostic

/-- The part of a key after the code. -/
def place (d : Diagnostic) : List Char :=
  match d.span with
  | some span =>
    '@' :: ((toString span.offset).toList ++
      '+' :: ((toString span.size).toList ++ ':' :: d.message.toList))
  | none => ':' :: d.message.toList

lemma toList_key (d : Diagnostic) : d.key.toList = d.code.toList ++ d.place := by
  unfold key place
  rcases d.span with _ | span <;> simp

lemma place_eq_iff {a b : Diagnostic} :
    a.place = b.place ↔ a.span = b.span ∧ a.message = b.message := by
  have plus : ∀ x : Int, '+' ∉ (toString x).toList := not_mem_toString rfl (by decide)
  have colon : ∀ x : Int, ':' ∉ (toString x).toList := not_mem_toString rfl (by decide)
  unfold place
  rcases a.span with _ | ⟨offset, size⟩ <;> rcases b.span with _ | ⟨offset', size'⟩
  · simp [String.toList_inj]
  · simp
  · simp
  · simp only [List.cons.injEq, true_and, append_cons_eq_iff (plus offset) (plus offset'),
      append_cons_eq_iff (colon size) (colon size'), String.toList_inj, toString_eq_iff,
      Option.some.injEq, Span.mk.injEq, and_assoc]

/-- **Keys keep diagnostics apart**: two have the same key exactly if they have the same code and
message at the same span. -/
theorem key_eq_iff {a b : Diagnostic} :
    a.key = b.key ↔ a.code = b.code ∧ a.span = b.span ∧ a.message = b.message := by
  have length : a.code.toList.length = b.code.toList.length :=
    a.kind.length_code.trans b.kind.length_code.symm
  rw [← String.toList_inj, toList_key, toList_key,
    List.append_eq_append_iff_of_size_eq_left length, String.toList_inj, place_eq_iff]

lemma kind_eq_of_key_eq {a b : Diagnostic} (h : a.key = b.key) : a.kind = b.kind :=
  Kind.eq_of_code_eq (key_eq_iff.1 h).1

/-! ## Merging repeats -/

/-- Whether a diagnostic repeats another: it has the same code and message at the same span. -/
def isRepeat (a b : Diagnostic) : Bool :=
  a.code == b.code && a.span == b.span && a.message == b.message

lemma isRepeat_iff {a b : Diagnostic} : a.isRepeat b = true ↔ a.key = b.key := by
  simp [isRepeat, key_eq_iff, and_assoc]

lemma kind_eq_of_isRepeat {a b : Diagnostic} (h : a.isRepeat b = true) : a.kind = b.kind :=
  kind_eq_of_key_eq (isRepeat_iff.1 h)

/-- What is not among the keys seen is merged as if the rest were alone. -/
lemma distinctFrom_eq (seen : List String) (diagnostics : List Diagnostic) :
    distinctFrom seen diagnostics =
      (diagnostics.filter fun d => !seen.contains d.key).eraseDupsBy isRepeat := by
  induction diagnostics generalizing seen with
  | nil => rfl
  | cons d rest ih =>
    rw [distinctFrom, List.filter_cons]
    by_cases known : seen.contains d.key = true
    · simp only [known, if_true, Bool.not_true, Bool.false_eq_true, if_false]
      exact ih seen
    · -- from here on the rest is also filtered by the key of this one, which is to leave out its
      -- repeats
      rw [if_neg known, if_pos (by simpa using known), List.eraseDupsBy_cons, ih,
        List.filter_filter]
      congr 2
      apply List.filter_congr
      intro e _
      have same : (e.key == d.key) = e.isRepeat d := by
        rw [Bool.eq_iff_iff, isRepeat_iff, beq_iff_eq]
      rw [List.contains_cons, same]
      cases e.isRepeat d <;> simp

/-- **Merging keeps the first report of each**: what is left is the diagnostics that repeat no
earlier one. -/
theorem distinct_eq_eraseDupsBy (diagnostics : List Diagnostic) :
    distinct diagnostics = diagnostics.eraseDupsBy isRepeat := by
  rw [distinct, distinctFrom_eq]
  simp

lemma distinct_pair (a b : Diagnostic) :
    distinct [a, b] = if a.key = b.key then [a] else [a, b] := by
  by_cases same : a.key = b.key
  · simp [distinct, distinctFrom, same]
  · simp [distinct, distinctFrom, same, Ne.symm same]

/-- Diagnostics with messages of their own are no repeats. -/
lemma distinct_eq_self {diagnostics : List Diagnostic} (apart : (diagnostics.map message).Nodup) :
    distinct diagnostics = diagnostics := by
  -- the keys seen grow along the list, so what is shown is that no key to come is among them
  have along : ∀ seen : List String, (∀ d ∈ diagnostics, d.key ∉ seen) →
      distinctFrom seen diagnostics = diagnostics := by
    induction diagnostics with
    | nil => exact fun _ _ => rfl
    | cons d rest ih =>
      intro seen fresh
      obtain ⟨own, apart⟩ := List.nodup_cons.1 apart
      have unseen : ¬ seen.contains d.key = true := by
        simpa using fresh d List.mem_cons_self
      rw [distinctFrom, if_neg unseen, ih apart]
      intro e he
      rw [List.mem_cons, not_or]
      refine ⟨fun same => ?_, fresh e (List.mem_cons_of_mem _ he)⟩
      exact own (List.mem_map.2 ⟨e, he, (key_eq_iff.1 same).2.2⟩)
  exact along [] fun _ _ => List.not_mem_nil

lemma mem_of_mem_distinct {diagnostics : List Diagnostic} {d : Diagnostic}
    (h : d ∈ distinct diagnostics) : d ∈ diagnostics := by
  rw [distinct] at h
  generalize ([] : List String) = seen at h
  induction diagnostics generalizing seen with
  | nil => exact absurd h List.not_mem_nil
  | cons first rest ih =>
    rw [distinctFrom] at h
    split at h
    · exact List.mem_cons_of_mem _ (ih _ h)
    · rcases List.mem_cons.1 h with rfl | h
      · exact List.mem_cons_self
      · exact List.mem_cons_of_mem _ (ih _ h)

lemma exists_mem_distinctFrom {seen : List String} {diagnostics : List Diagnostic}
    {d : Diagnostic} (h : d ∈ diagnostics) (fresh : d.key ∉ seen) :
    ∃ d' ∈ distinctFrom seen diagnostics, d'.key = d.key := by
  induction diagnostics generalizing seen with
  | nil => exact absurd h List.not_mem_nil
  | cons first rest ih =>
    rw [distinctFrom]
    rcases List.mem_cons.1 h with rfl | h
    · rw [if_neg (by simpa using fresh)]
      exact ⟨d, List.mem_cons_self, rfl⟩
    · split
      · exact ih h fresh
      · by_cases same : d.key = first.key
        · exact ⟨first, List.mem_cons_self, same.symm⟩
        · have fresh' : d.key ∉ first.key :: seen := by simp [same, fresh]
          obtain ⟨d', hd', hk⟩ := ih h fresh'
          exact ⟨d', List.mem_cons_of_mem _ hd', hk⟩

/-- Whatever is merged leaves a diagnostic of the same kind behind. -/
lemma exists_mem_distinct {diagnostics : List Diagnostic} {d : Diagnostic}
    (h : d ∈ diagnostics) : ∃ d' ∈ distinct diagnostics, d'.kind = d.kind := by
  obtain ⟨d', hd', hk⟩ := exists_mem_distinctFrom h (List.not_mem_nil (a := d.key))
  exact ⟨d', hd', kind_eq_of_key_eq hk⟩

/-- **Merging goes by sorts**: where what repeats a diagnostic is of its sort, the diagnostics of
one sort are merged as if they were alone. -/
theorem filter_distinct {p : Diagnostic → Bool} (diagnostics : List Diagnostic)
    (sorted : ∀ a ∈ diagnostics, ∀ b ∈ diagnostics, a.isRepeat b = true → p a = p b) :
    (distinct diagnostics).filter p = distinct (diagnostics.filter p) := by
  rw [distinct_eq_eraseDupsBy, distinct_eq_eraseDupsBy]
  induction length : diagnostics.length using Nat.strongRecOn generalizing diagnostics with
  | _ n ih =>
    subst length
    rcases diagnostics with _ | ⟨d, rest⟩
    · rfl
    · -- what is merged behind the first diagnostic is what does not repeat it
      have shorter : (rest.filter fun e => decide (e.isRepeat d = false)).length <
          (d :: rest).length := Nat.lt_succ_of_le (List.length_filter_le _ _)
      have inner := ih _ shorter _ (fun a ha b hb => sorted a
        (List.mem_cons_of_mem _ (List.mem_filter.1 ha).1) b
        (List.mem_cons_of_mem _ (List.mem_filter.1 hb).1)) rfl
      rw [List.eraseDupsBy_cons, List.filter_cons, List.filter_cons, inner, List.filter_filter]
      split
      · rw [List.eraseDupsBy_cons, List.filter_filter]
        simp only [Bool.and_comm]
      · next out =>
        congr 1
        apply List.filter_congr
        intro e he
        rcases same : e.isRepeat d with _ | _
        · simp
        · have := sorted e (List.mem_cons_of_mem _ he) d List.mem_cons_self same
          simp [this, out]

/-! ## First reports -/

lemma isRepeat_trans (a b c : Diagnostic) (ab : a.isRepeat b = true) (bc : b.isRepeat c = true) :
    a.isRepeat c = true :=
  isRepeat_iff.2 ((isRepeat_iff.1 ab).trans (isRepeat_iff.1 bc))

/-- The keys seen are as good as the diagnostics met. -/
lemma distinctFrom_eq_firstsAfter {seen : List String} {before diagnostics : List Diagnostic}
    (same : ∀ d : Diagnostic, seen.contains d.key = before.any d.isRepeat) :
    distinctFrom seen diagnostics = firstsAfter isRepeat before diagnostics := by
  induction diagnostics generalizing seen before with
  | nil => rfl
  | cons d rest ih =>
    rw [distinctFrom]
    cases met : before.any d.isRepeat with
    | true =>
      rw [if_pos ((same d).trans met), ih same, firstsAfter_cons_of_like isRepeat_trans met]
    | false =>
      rw [if_neg (by rw [same d, met]; exact Bool.false_ne_true), firstsAfter_cons_of_new met]
      refine congrArg (d :: ·) (ih fun e => ?_)
      have repeats : (e.key == d.key) = e.isRepeat d := by
        rw [Bool.eq_iff_iff, isRepeat_iff, beq_iff_eq]
      rw [List.contains_cons, List.any_cons, same e, repeats]

lemma distinct_eq_firsts (diagnostics : List Diagnostic) :
    distinct diagnostics = firsts isRepeat diagnostics := by
  rw [distinct, ← firstsAfter_nil_left]
  exact distinctFrom_eq_firstsAfter fun _ => rfl

/-- **Merging keeps the first reports.**  What is left of any diagnostics are those that repeat no
earlier one, and there is nothing to merge in them again.  Keys take two diagnostics for the same
exactly if they have the same code and message at the same span, whatever marks the messages
hold. -/
theorem distinct_keeps_first_reports :
    (∀ diagnostics, distinct diagnostics = firsts isRepeat diagnostics) ∧
      (∀ a b : Diagnostic, a.key = b.key ↔
        a.code = b.code ∧ a.span = b.span ∧ a.message = b.message) ∧
      ∀ diagnostics, distinct (distinct diagnostics) = distinct diagnostics := by
  refine ⟨distinct_eq_firsts, fun _ _ => key_eq_iff, fun diagnostics => ?_⟩
  rw [distinct_eq_firsts (distinct diagnostics), distinct_eq_firsts diagnostics]
  exact firsts_eq_self (pairwise_firsts isRepeat diagnostics)

end Diagnostic

end Stencil
