import Stencil.Proofs.Number.Shortest
import Stencil.Proofs.Text.Ends

/-!
# The text of a number is read back

The digits of a number are laid out as a literal of their own value (`Decimal.speltBy_layout`), and
a literal is read back from its characters (`ofChars?_chars`).  So the text of a finite number is a
literal that is rounded to this number (`exists_literal_chars`), and two numbers of one text are the
same.  The negative zero alone is left out: it is written as the other zero.

The layouts of a number, with the point after, among or before its digits or with an exponent, are
literals of one value: what differs is how many digits stand before the point and what power makes
up for it (`Decimal.value_eq_of_digits`).
-/

namespace Stencil

/-- Whether a number can be told from its text: not-a-number and the infinite ones are no literals,
and the sign of a zero is not written. -/
def Number.isLegible (x : Number) : Bool :=
  x.isFinite && x != .zero true

/-! ## Literals as they are written -/

namespace Literal

/-- The digits of a literal are digits, with one at least before the point. -/
structure WellFormed (l : Literal) : Prop where
  whole_ne_nil : l.whole ≠ []
  isDigit_whole : ∀ c ∈ l.whole, c.isDigit = true
  isDigit_fraction : ∀ c ∈ l.fraction, c.isDigit = true

/-- The fraction of a literal as it is written. -/
def fractionChars (l : Literal) : List Char :=
  if l.fraction = [] then [] else '.' :: l.fraction

/-- The exponent of a literal as it is written. -/
def exponentChars (l : Literal) : List Char :=
  (l.exponent.map Number.exponentText).getD []

/-- A literal as it is written, without its sign. -/
def unsigned (l : Literal) : List Char :=
  l.whole ++ (l.fractionChars ++ l.exponentChars)

/-- A literal as it is written. -/
def chars (l : Literal) : List Char :=
  (if l.negative then ['-'] else []) ++ l.unsigned

lemma unsigned_of_fraction {l : Literal} (h : l.fraction ≠ []) :
    l.unsigned = l.whole ++ '.' :: (l.fraction ++ l.exponentChars) := by
  rw [unsigned, fractionChars, if_neg h, List.cons_append]

lemma unsigned_of_no_fraction {l : Literal} (h : l.fraction = []) :
    l.unsigned = l.whole ++ l.exponentChars := by
  rw [unsigned, fractionChars, if_pos h, List.nil_append]

/-- The decimal that a literal denotes, up to its sign. -/
def decimal (l : Literal) : Number.Decimal :=
  ⟨digitsValue (l.whole ++ l.fraction), l.exponent.getD 0 - l.fraction.length⟩

lemma digitsValue_eq (digits : List Char) : digitsValue digits = Nat.ofDigitChars 10 digits 0 :=
  rfl

lemma digitsValue_zeros_append (k : Nat) (digits : List Char) :
    digitsValue (List.replicate k '0' ++ digits) = digitsValue digits := by
  rw [digitsValue_eq, digitsValue_eq, Nat.ofDigitChars_append, Nat.ofDigitChars_replicate_zero,
    Nat.mul_zero]

lemma digitsValue_append_zeros (digits : List Char) (k : Nat) :
    digitsValue (digits ++ List.replicate k '0') = 10 ^ k * digitsValue digits := by
  rw [digitsValue_eq, digitsValue_eq, Nat.ofDigitChars_append, Nat.ofDigitChars_replicate_zero]

lemma digitsValue_toDigits (n : Nat) : digitsValue (Nat.toDigits 10 n) = n :=
  Nat.ofDigitChars_ten_toDigits

lemma isDigit_of_mem_toDigits {c : Char} {n : Nat} (h : c ∈ Nat.toDigits 10 n) :
    c.isDigit = true :=
  Nat.isDigit_of_mem_toDigits (by decide) (Nat.le_refl 10) h

/-! ## Reading a literal back -/

/-- Digits are taken off a text that goes on with another character. -/
lemma takeDigits_append {digits rest : List Char} (all : ∀ c ∈ digits, c.isDigit = true)
    (ends : EndsRun Char.isDigit rest) : takeDigits (digits ++ rest) = (digits, rest) := by
  rw [takeDigits, takeWhile_run all ends, dropWhile_run all ends]

lemma takeDigits_of_all {digits : List Char} (all : ∀ c ∈ digits, c.isDigit = true) :
    takeDigits digits = (digits, []) := by
  have taken := takeDigits_append all endsRun_nil
  rwa [List.append_nil] at taken

lemma takeExponent_exponentText (e : Int) :
    takeExponent (Number.exponentText e) = (some e, []) := by
  have taken := takeDigits_of_all fun c (h : c ∈ Nat.toDigits 10 e.natAbs) =>
    isDigit_of_mem_toDigits h
  obtain ⟨digit, digits, written⟩ := List.exists_cons_of_ne_nil
    (Nat.toDigits_ne_nil (n := e.natAbs) (b := 10))
  have value := digitsValue_toDigits e.natAbs
  rw [written] at taken value
  rw [Number.exponentText, written]
  by_cases sign : e < 0
  · simp only [takeExponent, takeSign, if_pos sign, taken, value]
    simp only [true_or, if_true, Prod.mk.injEq, Option.some.injEq, and_true]
    omega
  · simp only [takeExponent, takeSign, if_neg sign, taken, value]
    simp only [true_or, if_true, Bool.false_eq_true, if_false, Prod.mk.injEq, Option.some.injEq,
      and_true]
    omega

lemma takeExponent_exponentChars (l : Literal) :
    takeExponent l.exponentChars = (l.exponent, []) := by
  unfold exponentChars
  cases l.exponent with
  | none => rfl
  | some e => exact takeExponent_exponentText e

lemma endsRun_exponentChars (l : Literal) : EndsRun Char.isDigit l.exponentChars := by
  unfold exponentChars
  cases l.exponent with
  | none => exact endsRun_nil
  | some e => exact endsRun_cons.2 (by decide)

lemma endsRun_fractionChars_append (l : Literal) :
    EndsRun Char.isDigit (l.fractionChars ++ l.exponentChars) := by
  by_cases h : l.fraction = []
  · rw [fractionChars, if_pos h, List.nil_append]
    exact l.endsRun_exponentChars
  · rw [fractionChars, if_neg h]
    exact endsRun_cons.2 (by decide)

lemma takeFraction_chars {l : Literal} (wf : l.WellFormed) :
    takeFraction (l.fractionChars ++ l.exponentChars) = (l.fraction, l.exponentChars) := by
  by_cases h : l.fraction = []
  · rw [fractionChars, if_pos h, h, List.nil_append]
    unfold exponentChars
    cases l.exponent with
    | none => rfl
    | some e => rfl
  · rw [fractionChars, if_neg h, List.cons_append, takeFraction,
      takeDigits_append wf.isDigit_fraction l.endsRun_exponentChars]
    split
    · next none => exact absurd (Prod.mk.inj none).1 h
    · next taken => exact taken.symm

lemma scanUnsigned_unsigned {l : Literal} (wf : l.WellFormed) :
    scanUnsigned l.negative l.unsigned = some (l, []) := by
  rw [scanUnsigned, unsigned,
    takeDigits_append wf.isDigit_whole l.endsRun_fractionChars_append]
  split
  · next none => exact absurd (Prod.mk.inj none).1 wf.whole_ne_nil
  · next taken =>
    obtain ⟨rfl, rfl⟩ := Prod.mk.inj taken
    simp only [takeFraction_chars wf, takeExponent_exponentChars]

/-- **A literal is read back from its characters.** -/
theorem ofChars?_chars {l : Literal} (wf : l.WellFormed) : ofChars? l.chars = some l := by
  have read := scanUnsigned_unsigned wf
  have scanned : scan l.chars = some (l, []) := by
    unfold chars
    cases negative : l.negative with
    | true =>
      rw [negative] at read
      exact read
    | false =>
      rw [negative] at read
      obtain ⟨digit, digits, whole⟩ := List.exists_cons_of_ne_nil wf.whole_ne_nil
      -- a literal without a sign begins with a digit
      have plain : digit ≠ '-' := by
        rintro rfl
        exact absurd (wf.isDigit_whole '-' (by rw [whole]; exact List.mem_cons_self)) (by decide)
      rw [unsigned, whole] at read ⊢
      simp only [Bool.false_eq_true, if_false, List.nil_append, List.cons_append] at read ⊢
      unfold scan
      split
      · next first => exact absurd (List.cons.inj first).1 plain
      · exact read
  rw [ofChars?, scanned]

end Literal

/-! ## The literal of a number -/

namespace Number

variable {d : Decimal} {l : Literal}

/-- Zeros after the last digit make up for a greater power. -/
lemma Decimal.value_eq_of_digits {k : Nat} (digits : l.decimal.digits = 10 ^ k * d.digits)
    (power : l.decimal.power + k = d.power) : l.decimal.value = d.value := by
  rw [value, value, digits, ← power, zpow_add₀ (by norm_num), zpow_natCast, Nat.cast_mul]
  push_cast
  ring

/-- Characters spell a decimal: they are a literal of its value, without the sign. -/
def Decimal.SpeltBy (d : Decimal) (negative : Bool) (chars : List Char) : Prop :=
  ∃ l : Literal, l.WellFormed ∧ l.negative = negative ∧ l.unsigned = chars ∧
    l.decimal.value = d.value

section Layout

variable {ds : List Char} {negative : Bool} (some_digit : ds ≠ [])
  (all : ∀ c ∈ ds, c.isDigit = true) (value : Literal.digitsValue ds = d.digits)

lemma isDigit_zeros (k : Nat) : ∀ c ∈ List.replicate k '0', c.isDigit = true := fun _ h =>
  List.eq_of_mem_replicate h ▸ rfl

include some_digit all value

/-- An integer, with zeros after its digits. -/
lemma Decimal.speltBy_integer (integer : 0 ≤ d.power) :
    d.SpeltBy negative (ds ++ List.replicate d.power.toNat '0') := by
  refine ⟨⟨negative, ds ++ List.replicate d.power.toNat '0', [], none⟩,
    ⟨by simp [some_digit], ?_, by simp⟩, rfl, ?_, value_eq_of_digits (k := d.power.toNat) ?_ ?_⟩
  · exact List.forall_mem_append.2 ⟨all, isDigit_zeros _⟩
  · rw [Literal.unsigned_of_no_fraction rfl]
    exact List.append_nil _
  · rw [Literal.decimal, List.append_nil, Literal.digitsValue_append_zeros, value]
  · simp only [Literal.decimal, Option.getD_none, List.length_nil]
    omega

/-- The point falls among the digits. -/
lemma Decimal.speltBy_among {places : Nat} (among : (places : Int) = ds.length + d.power)
    (pos : 0 < places) (fractional : d.power < 0) :
    d.SpeltBy negative (ds.take places ++ '.' :: ds.drop places) := by
  refine ⟨⟨negative, ds.take places, ds.drop places, none⟩,
    ⟨?_, fun c h => all c (List.mem_of_mem_take h), fun c h => all c (List.mem_of_mem_drop h)⟩, rfl,
    ?_, value_eq_of_digits (k := 0) ?_ ?_⟩
  · simp [some_digit, pos.ne']
  · have fraction : ds.drop places ≠ [] := by
      rw [ne_eq, List.drop_eq_nil_iff]
      omega
    rw [Literal.unsigned_of_fraction fraction]
    simp [Literal.exponentChars]
  · rw [Literal.decimal, List.take_append_drop, value, Nat.pow_zero, Nat.one_mul]
  · simp only [Literal.decimal, Option.getD_none, List.length_drop]
    omega

/-- The point stands before the digits and some zeros. -/
lemma Decimal.speltBy_before {zeros : Nat} (before : (zeros : Int) = -(ds.length + d.power)) :
    d.SpeltBy negative ('0' :: '.' :: (List.replicate zeros '0' ++ ds)) := by
  refine ⟨⟨negative, ['0'], List.replicate zeros '0' ++ ds, none⟩, ⟨by simp, by simp, ?_⟩, rfl, ?_,
    value_eq_of_digits (k := 0) ?_ ?_⟩
  · exact List.forall_mem_append.2 ⟨isDigit_zeros _, all⟩
  · rw [Literal.unsigned_of_fraction (by simp [some_digit])]
    simp [Literal.exponentChars]
  · rw [Literal.decimal, ← List.append_assoc, ← List.replicate_one, ← List.replicate_add,
      Literal.digitsValue_zeros_append, value, Nat.pow_zero, Nat.one_mul]
  · simp only [Literal.decimal, Option.getD_none, List.length_append, List.length_replicate]
    omega

/-- One digit before the point, which is not written before nothing, and an exponent. -/
lemma Decimal.speltBy_exponent :
    d.SpeltBy negative (ds.take 1 ++ ((if ds.drop 1 = [] then [] else '.' :: ds.drop 1) ++
      exponentText (ds.length + d.power - 1))) := by
  refine ⟨⟨negative, ds.take 1, ds.drop 1, some (ds.length + d.power - 1)⟩,
    ⟨by simp [some_digit], fun c h => all c (List.mem_of_mem_take h),
      fun c h => all c (List.mem_of_mem_drop h)⟩, rfl, rfl, value_eq_of_digits (k := 0) ?_ ?_⟩
  · rw [Literal.decimal, List.take_append_drop, value, Nat.pow_zero, Nat.one_mul]
  · have := List.length_pos_iff.2 some_digit
    simp only [Literal.decimal, Option.getD_some, List.length_drop]
    omega

end Layout

/-- **The digits of a decimal are laid out as a literal of its value.** -/
theorem Decimal.speltBy_layout (d : Decimal) (negative : Bool) : d.SpeltBy negative d.layout := by
  have value := Literal.digitsValue_toDigits d.digits
  have all : ∀ c ∈ Nat.toDigits 10 d.digits, c.isDigit = true := fun c h =>
    Literal.isDigit_of_mem_toDigits h
  have some_digit : Nat.toDigits 10 d.digits ≠ [] := Nat.toDigits_ne_nil
  unfold layout
  dsimp only
  split
  · next integer => exact speltBy_integer some_digit all value integer.1
  · split
    · next among =>
      exact speltBy_among some_digit all value (Int.toNat_of_nonneg (by omega)) (by omega)
        (by omega)
    · split
      · next before => exact speltBy_before some_digit all value (Int.toNat_of_nonneg (by omega))
      · have exponent : d.SpeltBy negative _ := speltBy_exponent some_digit all value
        generalize Nat.toDigits 10 d.digits = ds at exponent some_digit ⊢
        rcases ds with _ | ⟨c, _ | ⟨c', ds⟩⟩
        · exact absurd rfl some_digit
        · exact exponent
        · exact exponent

/-- **The text of a number is a literal that is rounded to it.** -/
theorem exists_literal_chars {x : Number} (legible : x.isLegible = true) :
    ∃ l : Literal, l.WellFormed ∧ x.chars = l.chars ∧ l.decimal.number l.negative = x := by
  rcases x with _ | _ | ⟨negative, mantissa, exponent, canonical⟩
  · cases legible
  · cases legible
  · rcases Nat.eq_zero_or_pos mantissa with rfl | pos
    · -- the only zero that can be told from its text is the positive one, whose text is a single
      -- digit
      have zero : Number.finite negative 0 exponent canonical = .zero false := by
        have least : exponent = -1074 := by
          obtain ⟨-, -, -, full | least⟩ := canonical
          · cases full
          · exact least
        subst least
        cases negative with
        | false => rfl
        | true =>
          have illegible : (Number.zero true).isLegible = false := by decide
          exact absurd legible (ne_true_of_eq_false illegible)
      rw [zero]
      have digit : ∀ c ∈ ['0'], c.isDigit = true := List.forall_mem_singleton.2 (by decide)
      exact ⟨⟨false, ['0'], [], none⟩, ⟨by decide, digit, nofun⟩, by decide, by decide⟩
    · obtain ⟨l, wf, rfl, layout, value⟩ :=
        (shortest mantissa exponent).speltBy_layout negative
      obtain ⟨_, rounds⟩ := (roundsTo_shortest canonical pos).congr value
      refine ⟨l, wf, ?_, rounds _⟩
      rw [chars, if_neg pos.ne', ← layout, Literal.chars]

/-- **Numbers of one text are equal.** -/
theorem eq_of_chars_eq {x y : Number} (hx : x.isLegible = true) (hy : y.isLegible = true)
    (same : x.chars = y.chars) : x = y := by
  obtain ⟨l, wf, written, rfl⟩ := exists_literal_chars hx
  obtain ⟨l', wf', written', rfl⟩ := exists_literal_chars hy
  have read : some l = some l' := by
    rw [← Literal.ofChars?_chars wf, ← Literal.ofChars?_chars wf', ← written, ← written', same]
  obtain rfl := Option.some.inj read
  rfl

/-! ## The characters of a number -/

/-- The characters that numbers are written with. -/
def isNumberChar (c : Char) : Bool :=
  c.isDigit || c == '.' || c == 'e' || c == '+' || c == '-'

lemma isNumberChar_of_isDigit {c : Char} (h : c.isDigit = true) : isNumberChar c = true := by
  simp [isNumberChar, h]

lemma isNumberChar_exponentText (e : Int) : ∀ c ∈ exponentText e, isNumberChar c = true := by
  intro c h
  rcases List.mem_cons.1 h with rfl | h
  · rfl
  · rcases List.mem_cons.1 h with rfl | h
    · split <;> rfl
    · exact isNumberChar_of_isDigit (Literal.isDigit_of_mem_toDigits h)

lemma isNumberChar_chars {x : Number} (legible : x.isLegible = true) :
    ∀ c ∈ x.chars, isNumberChar c = true := by
  obtain ⟨l, wf, written, -⟩ := exists_literal_chars legible
  rw [written, Literal.chars, Literal.unsigned]
  refine List.forall_mem_append.2 ⟨?_, List.forall_mem_append.2
    ⟨fun c h => isNumberChar_of_isDigit (wf.isDigit_whole c h), List.forall_mem_append.2 ⟨?_, ?_⟩⟩⟩
  · cases l.negative <;> simp [isNumberChar]
  · unfold Literal.fractionChars
    split
    · exact List.forall_mem_nil _
    · exact List.forall_mem_cons.2
        ⟨rfl, fun c h => isNumberChar_of_isDigit (wf.isDigit_fraction c h)⟩
  · unfold Literal.exponentChars
    cases l.exponent with
    | none => exact List.forall_mem_nil _
    | some e => exact isNumberChar_exponentText e

/-- A number begins with a digit or a minus sign. -/
lemma exists_chars_eq_cons {x : Number} (legible : x.isLegible = true) :
    ∃ c rest, x.chars = c :: rest ∧ (c.isDigit || c == '-') = true := by
  obtain ⟨l, wf, written, -⟩ := exists_literal_chars legible
  obtain ⟨digit, digits, whole⟩ := List.exists_cons_of_ne_nil wf.whole_ne_nil
  have isDigit := wf.isDigit_whole digit (by rw [whole]; exact List.mem_cons_self)
  rw [written, Literal.chars, Literal.unsigned, whole]
  cases l.negative with
  | true => exact ⟨'-', _, rfl, rfl⟩
  | false => exact ⟨digit, _, rfl, by rw [isDigit]; rfl⟩

end Number

end Stencil
