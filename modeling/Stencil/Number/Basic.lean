/-!
# Numbers

The numbers of a tree are binary floating-point values of 64 bits: a sign, a mantissa of at
most 53 bits and a power of two.  `Number` holds them exactly, over the integers, so that
reading, printing and comparing are ordinary arithmetic.

A finite number is kept in its one canonical form, which the type enforces; equality of
numbers is therefore equality of values, except that the two signed zeros stay apart and
that there is one not-a-number, equal to itself.
-/

namespace Stencil

/-- The canonical pairs of mantissa and exponent: the mantissa fills its 53 bits, unless the
exponent is the least one. -/
def Number.Canonical (mantissa : Nat) (exponent : Int) : Prop :=
  mantissa < Nat.pow 2 53 ∧ -1074 ≤ exponent ∧ exponent ≤ 971 ∧
    (Nat.pow 2 52 ≤ mantissa ∨ exponent = -1074)

instance (mantissa : Nat) (exponent : Int) :
    Decidable (Number.Canonical mantissa exponent) := by
  unfold Number.Canonical
  infer_instance

/-- A binary floating-point number of 64 bits. -/
inductive Number where
  /-- The result of an undefined operation. -/
  | nan
  /-- A value beyond the largest finite number. -/
  | infinite (negative : Bool)
  /-- The value `mantissa · 2 ^ exponent` with a sign. -/
  | finite (negative : Bool) (mantissa : Nat) (exponent : Int)
      (canonical : Number.Canonical mantissa exponent)
deriving DecidableEq

namespace Number

/-- The zero of the given sign. -/
def zero (negative : Bool) : Number :=
  .finite negative 0 (-1074) (by decide)

/-- Whether a number is finite. -/
def isFinite : Number → Bool
  | .finite .. => true
  | _ => false

/-! ## Rounding a fraction -/

/-- The integer nearest to `num / den`; a half goes to the even neighbour. -/
def nearest (num den : Nat) : Nat :=
  let quotient := num / den
  let twice := 2 * (num % den)
  if twice < den then quotient
  else if den < twice then quotient + 1
  else quotient + quotient % 2

/-- The fraction `num / den` multiplied by `base ^ power`. -/
def scale (base : Nat) (num den : Nat) : Int → Nat × Nat
  | .ofNat k => (num * Nat.pow base k, den)
  | .negSucc k => (num, den * Nat.pow base (k + 1))

/-- The exponent at which the positive fraction `num / den` has a mantissa of 53 bits, but
never less than the least exponent. -/
def exponentOf (num den : Nat) : Int :=
  let low : Int := (Nat.log2 num : Int) - Nat.log2 den - 53
  let (n, d) := scale 2 num den (-low)
  max (if Nat.pow 2 53 * d ≤ n then low + 1 else low) (-1074)

/-- The number with the given mantissa and exponent; infinite where they are out of range. -/
def ofParts (negative : Bool) (mantissa : Nat) (exponent : Int) : Number :=
  if h : Canonical mantissa exponent then .finite negative mantissa exponent h
  else .infinite negative

/-- The number nearest to `num / den`; a half goes to the even mantissa. -/
def ofFraction (negative : Bool) (num den : Nat) : Number :=
  if num = 0 then zero negative
  else
    let exponent := exponentOf num den
    let (n, d) := scale 2 num den (-exponent)
    let mantissa := nearest n d
    if mantissa = Nat.pow 2 53 then ofParts negative (Nat.pow 2 52) (exponent + 1)
    else ofParts negative mantissa exponent

/-- The number nearest to an integer. -/
def ofInt (n : Int) : Number :=
  ofFraction (decide (n < 0)) n.natAbs 1

/-- The number nearest to `digits · 10 ^ power`.  The first three cases settle values far out
of range without forming the power of ten. -/
def ofDecimal (negative : Bool) (digits : Nat) (power : Int) : Number :=
  if digits = 0 then zero negative
  else if 400 < power then .infinite negative
  else if power + Nat.log2 digits + 1 < -400 then zero negative
  else
    let (num, den) := scale 10 digits 1 power
    ofFraction negative num den

/-! ## Integers among the numbers -/

/-- The magnitude of a mantissa and exponent as a fraction. -/
def magnitude (mantissa : Nat) (exponent : Int) : Nat × Nat :=
  scale 2 mantissa 1 exponent

/-- The integer a number is, if it is one; both zeros are the integer zero. -/
def toInt? : Number → Option Int
  | .finite negative mantissa exponent _ =>
    let (num, den) := magnitude mantissa exponent
    if num % den = 0 then
      some (if negative then -((num / den : Nat) : Int) else ((num / den : Nat) : Int))
    else none
  | _ => none

/-- The number nearest to an integer, which is an integer again.  Integers of at most 53 bits
are numbers themselves. -/
def roundInt (n : Int) : Int :=
  if n.natAbs ≤ Nat.pow 2 53 then n else (ofInt n).toInt?.getD n

/-- Whether a number is an integer. -/
def isInteger (x : Number) : Bool :=
  x.toInt?.isSome

/-- Whether a number is at most an integer; not-a-number never is. -/
def atMost : Number → Int → Bool
  | .nan, _ => false
  | .infinite negative, _ => negative
  | .finite negative mantissa exponent _, n =>
    let (num, den) := magnitude mantissa exponent
    decide ((if negative then -(num : Int) else (num : Int)) ≤ n * den)

/-- Whether a number is greater than an integer; not-a-number never is. -/
def exceeds : Number → Int → Bool
  | .nan, _ => false
  | x, n => !x.atMost n

end Number

end Stencil
