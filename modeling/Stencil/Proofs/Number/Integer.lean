import Stencil.Proofs.Number.Text

/-!
# Integers as they are written

An integer is written as a sign, if it is negative, and its digits without needless zeros.  A
reader that takes the longest literal off a text takes just these, unless a digit, a point or an
exponent follows (`scan_integer`).
-/

namespace Stencil

namespace Literal

variable {digits rest : List Char}

/-- The characters that an integer can go on with. -/
def goesOn (c : Char) : Bool :=
  c.isDigit || c == '.' || c == 'e' || c == 'E'

/-- The characters that a literal can begin with. -/
def begins (c : Char) : Bool :=
  c == '-' || c.isDigit

/-- The integer of a sign and a magnitude as it is written. -/
def integerChars (negative : Bool) (magnitude : Nat) : List Char :=
  (if negative then ['-'] else []) ++ Nat.toDigits 10 magnitude

lemma begins_head_integerChars (negative : Bool) (magnitude : Nat) :
    ∃ c others, integerChars negative magnitude = c :: others ∧ begins c = true := by
  cases negative with
  | true => exact ⟨_, _, rfl, rfl⟩
  | false =>
    obtain ⟨digit, others, written⟩ := List.exists_cons_of_ne_nil
      (Nat.toDigits_ne_nil (n := magnitude) (b := 10))
    refine ⟨digit, others, written, ?_⟩
    rw [begins, isDigit_of_mem_toDigits (written ▸ List.mem_cons_self), Bool.or_true]

lemma takeFraction_of_ends (ends : EndsRun goesOn rest) : takeFraction rest = ([], rest) := by
  unfold takeFraction
  split
  · next after => exact absurd (endsRun_cons.1 ends) (by decide)
  · rfl

lemma takeExponent_of_ends (ends : EndsRun goesOn rest) : takeExponent rest = (none, rest) := by
  unfold takeExponent
  split
  · next mark after =>
    have other := endsRun_cons.1 ends
    have no_mark : ¬(mark = 'e' ∨ mark = 'E') := by
      rintro (rfl | rfl)
      · exact absurd other (by decide)
      · exact absurd other (by decide)
    rw [if_neg no_mark]
  · rfl

lemma scanUnsigned_of_ends (negative : Bool) (nonempty : digits ≠ [])
    (all : ∀ c ∈ digits, c.isDigit = true) (ends : EndsRun goesOn rest) :
    scanUnsigned negative (digits ++ rest) = some (⟨negative, digits, [], none⟩, rest) := by
  have ends' : EndsRun Char.isDigit rest := by
    intro c hc
    have other := ends c hc
    simp only [goesOn, Bool.or_eq_false_iff] at other
    exact other.1.1.1
  rw [scanUnsigned, takeDigits_append all ends']
  split
  · next none => exact absurd (Prod.mk.inj none).1 nonempty
  · next taken =>
    obtain ⟨rfl, rfl⟩ := Prod.mk.inj taken
    simp only [takeFraction_of_ends ends, takeExponent_of_ends ends]

/-- **An integer is taken off a text that goes on with something else.** -/
lemma scan_integer (negative : Bool) (magnitude : Nat) (ends : EndsRun goesOn rest) :
    scan (integerChars negative magnitude ++ rest) =
      some (⟨negative, Nat.toDigits 10 magnitude, [], none⟩, rest) := by
  have all : ∀ c ∈ Nat.toDigits 10 magnitude, c.isDigit = true := fun _ h =>
    isDigit_of_mem_toDigits h
  have taken := fun sign => scanUnsigned_of_ends sign Nat.toDigits_ne_nil all ends
  cases negative with
  | true => exact taken true
  | false =>
    obtain ⟨digit, others, written⟩ := List.exists_cons_of_ne_nil
      (Nat.toDigits_ne_nil (n := magnitude) (b := 10))
    -- without a minus sign the scan begins with a digit, which is not taken for one
    have plain : digit ≠ '-' := by
      rintro rfl
      exact absurd (all '-' (by rw [written]; exact List.mem_cons_self)) (by decide)
    show scan (Nat.toDigits 10 magnitude ++ rest) = _
    rw [← taken false, written, List.cons_append]
    unfold scan
    split
    · next first => exact absurd (List.cons.inj first).1 plain
    · rfl

lemma ofChars?_integer (negative : Bool) (magnitude : Nat) :
    ofChars? (integerChars negative magnitude) =
      some ⟨negative, Nat.toDigits 10 magnitude, [], none⟩ := by
  have scanned := scan_integer negative magnitude endsRun_nil
  rw [List.append_nil] at scanned
  rw [ofChars?, scanned]

lemma value_integer (negative : Bool) (magnitude : Nat) :
    value ⟨negative, Nat.toDigits 10 magnitude, [], none⟩ = .ofFraction negative magnitude 1 := by
  have small : ¬((0 : Int) + Nat.log2 magnitude + 1 < -400) := by omega
  rw [value, List.append_nil, digitsValue_toDigits]
  show Number.ofDecimal negative magnitude 0 = _
  by_cases zero : magnitude = 0
  · rw [zero]
    rfl
  · rw [Number.ofDecimal, if_neg zero, if_neg (by decide), if_neg small]
    show Number.ofFraction negative (magnitude * 10 ^ 0) 1 = _
    rw [Nat.pow_zero, Nat.mul_one]

/-! ## No needless zeros -/

/-- The digits of a positive number do not begin with a zero. -/
lemma head?_toDigits_ne {n : Nat} (pos : 0 < n) : (Nat.toDigits 10 n).head? ≠ some '0' := by
  induction n using Nat.strongRecOn with
  | _ n ih =>
    rcases Nat.lt_or_ge n 10 with small | large
    · have digit : ∀ d < 10, 0 < d → [Nat.digitChar d].head? ≠ some '0' := by decide
      rw [Nat.toDigits_of_lt_base small]
      exact digit n small pos
    · rw [Nat.toDigits_of_base_le (by decide) large,
        List.head?_append_of_ne_nil _ Nat.toDigits_ne_nil]
      exact ih (n / 10) (Nat.div_lt_self pos (by decide)) (Nat.div_pos large (by decide))

/-- No number is written as a zero with digits behind it. -/
lemma toDigits_ne_zero_cons (n : Nat) (c : Char) : Nat.toDigits 10 n ≠ '0' :: c :: rest := by
  intro written
  rcases Nat.eq_zero_or_pos n with rfl | pos
  · rw [Nat.toDigits_zero] at written
    cases written
  · exact head?_toDigits_ne pos (by rw [written]; rfl)

end Literal

end Stencil
