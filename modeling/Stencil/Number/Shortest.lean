import Stencil.Number.Literal

/-!
# The text of a number

A finite number is written with the fewest decimal digits that read back to it, and among
those with the digits nearest to it.  The digits stand positionally while the point falls
at most `positionalAfter` places after the first digit and less than `positionalBefore`
places before it; otherwise they carry an exponent.

`Number.text` tries the grids of multiples of `10 ^ power` from the coarsest on and takes
the first one on which a neighbour of the number reads back.  The finest grid holds the
number itself, so the search always ends with digits that read back.
-/

namespace Stencil

namespace Number

/-! ## Choosing the digits -/

/-- A decimal value `digits · 10 ^ power`. -/
structure Decimal where
  digits : Nat
  power : Int
deriving DecidableEq

/-- Whether a decimal value reads back to the number with these parts. -/
def readsBack (mantissa : Nat) (exponent : Int) (d : Decimal) : Bool :=
  match ofDecimal false d.digits d.power with
  | .finite _ m e _ => m == mantissa && e == exponent
  | _ => false

/-- A magnitude in units of `10 ^ power`, as a fraction. -/
def inUnits (mantissa : Nat) (exponent power : Int) : Nat × Nat :=
  let (num, den) := magnitude mantissa exponent
  scale 10 num den (-power)

/-- The multiple of `10 ^ power` that reads back: the nearer neighbour on the grid (the even
one of two equally near), else the other one. -/
def onGrid? (mantissa : Nat) (exponent power : Int) : Option Decimal :=
  let (num, den) := inUnits mantissa exponent power
  let near := nearest num den
  let far := if near = num / den then near + 1 else num / den
  if readsBack mantissa exponent ⟨near, power⟩ then some ⟨near, power⟩
  else if readsBack mantissa exponent ⟨far, power⟩ then some ⟨far, power⟩
  else none

/-- The power of ten whose multiples hold every number with this exponent. -/
def finestPower (exponent : Int) : Int :=
  min exponent 0

/-- The first grid that holds a decimal value reading back, from `steps` powers above the
finest one downwards. -/
def fewestFrom (mantissa : Nat) (exponent : Int) : Nat → Decimal
  | 0 =>
    let (num, den) := inUnits mantissa exponent (finestPower exponent)
    ⟨num / den, finestPower exponent⟩
  | steps + 1 =>
    (onGrid? mantissa exponent (finestPower exponent + (steps + 1 : Nat))).getD
      (fewestFrom mantissa exponent steps)

/-- The least power of ten above a positive magnitude.  The binary logarithm leaves two
candidates. -/
def powerAbove (mantissa : Nat) (exponent : Int) : Int :=
  let (num, den) := magnitude mantissa exponent
  let estimate := ((Nat.log2 num : Int) - Nat.log2 den - 1) * 30103 / 100000 + 1
  let (n, d) := scale 10 1 1 estimate
  if num * d < n * den then estimate else estimate + 1

/-- Trailing zeros of the digits move into the power. -/
def Decimal.strip (d : Decimal) : Decimal :=
  if h : d.digits = 0 ∨ d.digits % 10 ≠ 0 then d
  else Decimal.strip ⟨d.digits / 10, d.power + 1⟩
termination_by d.digits
decreasing_by omega

/-- The shortest decimal value that reads back to a positive number. -/
def shortest (mantissa : Nat) (exponent : Int) : Decimal :=
  (fewestFrom mantissa exponent
    (powerAbove mantissa exponent - 1 - finestPower exponent).toNat).strip

/-! ## Laying them out -/

/-- The most places before the point that are written without an exponent. -/
def positionalAfter : Int := 21

/-- The bound on the zeros between the point and the first digit of a number written without
an exponent. -/
def positionalBefore : Int := 6

/-- The text of an exponent, with its sign. -/
def exponentText (e : Int) : List Char :=
  'e' :: (if e < 0 then '-' else '+') :: Nat.toDigits 10 e.natAbs

/-- The digits of a decimal value, laid out. -/
def Decimal.layout (d : Decimal) : List Char :=
  let digits := Nat.toDigits 10 d.digits
  let places : Int := digits.length + d.power
  if 0 ≤ d.power ∧ places ≤ positionalAfter then
    digits ++ List.replicate d.power.toNat '0'
  else if 0 < places ∧ places ≤ positionalAfter then
    digits.take places.toNat ++ '.' :: digits.drop places.toNat
  else if -positionalBefore < places ∧ places ≤ 0 then
    '0' :: '.' :: (List.replicate (-places).toNat '0' ++ digits)
  else
    match digits with
    | [digit] => digit :: exponentText (places - 1)
    | _ => digits.take 1 ++ '.' :: (digits.drop 1 ++ exponentText (places - 1))

/-- The characters of a number. -/
def chars : Number → List Char
  | .nan => "NaN".toList
  | .infinite negative => (if negative then ['-'] else []) ++ "Infinity".toList
  | .finite negative mantissa exponent _ =>
    if mantissa = 0 then ['0']
    else (if negative then ['-'] else []) ++ (shortest mantissa exponent).layout

/-- The text of a number.  The sign of a zero is not written. -/
def text (x : Number) : String :=
  String.ofList x.chars

end Number

end Stencil
