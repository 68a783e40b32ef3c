import Stencil.Number.Basic

/-!
# Decimal literals

A decimal literal is an optional minus sign, digits, an optional fraction and an optional
exponent.  `Literal.scan` takes the longest literal off the front of a text and returns the
rest; `Literal.value` is the number nearest to what a literal denotes.
-/

namespace Stencil

/-- A decimal literal, taken apart. -/
structure Literal where
  negative : Bool
  /-- The digits before the point. -/
  whole : List Char
  /-- The digits after the point; empty when there is no point. -/
  fraction : List Char
  /-- The exponent; absent when none is written. -/
  exponent : Option Int
deriving DecidableEq

namespace Literal

/-- The natural number that a list of decimal digits denotes. -/
def digitsValue (digits : List Char) : Nat :=
  digits.foldl (fun n c => 10 * n + (c.toNat - '0'.toNat)) 0

/-- The digits at the front of a text, and the rest. -/
def takeDigits (text : List Char) : List Char × List Char :=
  (text.takeWhile Char.isDigit, text.dropWhile Char.isDigit)

/-- A point with digits after it, if the text begins with one. -/
def takeFraction : List Char → List Char × List Char
  | '.' :: rest =>
    match takeDigits rest with
    | ([], _) => ([], '.' :: rest)
    | (digits, rest) => (digits, rest)
  | text => ([], text)

/-- The sign of an exponent and the text after it. -/
def takeSign : List Char → Bool × List Char
  | '-' :: rest => (true, rest)
  | '+' :: rest => (false, rest)
  | text => (false, text)

/-- An exponent with its mark, if the text begins with one. -/
def takeExponent : List Char → Option Int × List Char
  | mark :: rest =>
    if mark = 'e' ∨ mark = 'E' then
      let (negative, unsigned) := takeSign rest
      match takeDigits unsigned with
      | ([], _) => (none, mark :: rest)
      | (digits, after) =>
        (some (if negative then -(digitsValue digits : Int) else digitsValue digits), after)
    else (none, mark :: rest)
  | [] => (none, [])

/-- The unsigned literal at the front of a text, and the rest. -/
def scanUnsigned (negative : Bool) (text : List Char) : Option (Literal × List Char) :=
  match takeDigits text with
  | ([], _) => none
  | (whole, rest) =>
    let (fraction, rest) := takeFraction rest
    let (exponent, rest) := takeExponent rest
    some (⟨negative, whole, fraction, exponent⟩, rest)

/-- The longest literal at the front of a text, and the rest. -/
def scan : List Char → Option (Literal × List Char)
  | '-' :: rest => scanUnsigned true rest
  | text => scanUnsigned false text

/-! ## A literal is taken off the front -/

theorem length_takeDigits (text : List Char) :
    (takeDigits text).1.length + (takeDigits text).2.length = text.length := by
  rw [takeDigits, ← List.length_append, List.takeWhile_append_dropWhile]

theorem length_takeFraction_le (text : List Char) :
    (takeFraction text).2.length ≤ text.length := by
  unfold takeFraction
  split
  · next rest =>
    have := length_takeDigits rest
    split
    · simp
    · next h =>
      rw [h] at this
      simp only [List.length_cons] at this ⊢
      omega
  · simp

theorem length_takeSign_le (text : List Char) : (takeSign text).2.length ≤ text.length := by
  unfold takeSign
  split <;> simp

theorem length_takeExponent_le (text : List Char) :
    (takeExponent text).2.length ≤ text.length := by
  unfold takeExponent
  split
  · next mark rest =>
    have sign := length_takeSign_le rest
    have := length_takeDigits (takeSign rest).2
    split
    · dsimp only
      split
      · simp
      · next h =>
        rw [h] at this
        simp only [List.length_cons] at this ⊢
        omega
    · simp
  · simp

theorem length_lt_of_scanUnsigned {negative : Bool} {text rest : List Char} {l : Literal}
    (h : scanUnsigned negative text = some (l, rest)) : rest.length < text.length := by
  unfold scanUnsigned at h
  have digits := length_takeDigits text
  split at h
  · simp at h
  · next whole after nonempty ht =>
    have fraction := length_takeFraction_le after
    have exponent := length_takeExponent_le (takeFraction after).2
    simp only [Option.some.injEq, Prod.mk.injEq] at h
    rw [ht] at digits
    have : whole ≠ [] := fun hw => nonempty hw
    have := List.length_pos_iff.2 this
    dsimp only at digits
    rw [← h.2]
    omega

theorem length_lt_of_scan {text rest : List Char} {l : Literal}
    (h : scan text = some (l, rest)) : rest.length < text.length := by
  unfold scan at h
  split at h
  · have := length_lt_of_scanUnsigned h
    simp only [List.length_cons]
    omega
  · exact length_lt_of_scanUnsigned h

/-- The literal a whole text is. -/
def ofChars? (text : List Char) : Option Literal :=
  match scan text with
  | some (literal, []) => some literal
  | _ => none

/-- The number nearest to what a literal denotes. -/
def value (l : Literal) : Number :=
  Number.ofDecimal l.negative (digitsValue (l.whole ++ l.fraction))
    (l.exponent.getD 0 - l.fraction.length)

end Literal

end Stencil
