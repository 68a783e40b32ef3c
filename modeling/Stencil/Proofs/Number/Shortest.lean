import Stencil.Number.Shortest
import Stencil.Proofs.Number.Rounding

/-!
# The digits of a number

The digits that are chosen for a number are rounded to it (`roundsTo_shortest`): on a grid they were
taken because they read back, and the finest grid holds the number itself.

That the digits are the fewest is of no concern here, only that they are rounded to the number; and
`shortest` takes a decimal for no other reason than that it does.  What has to be shown is that
there is one to take, and for this the search goes on to a grid as fine as the number's own.
-/

namespace Stencil

namespace Number

/-- The value of a decimal. -/
def Decimal.value (d : Decimal) : ℚ :=
  d.digits * 10 ^ d.power

/-- The number nearest to a decimal, with a sign. -/
def Decimal.number (d : Decimal) (negative : Bool) : Number :=
  ofFraction negative (scale 10 d.digits 1 d.power).1 (scale 10 d.digits 1 d.power).2

/-- A decimal is rounded to the number with these parts, with either sign. -/
def Decimal.RoundsTo (d : Decimal) (mantissa : Nat) (exponent : Int) : Prop :=
  ∃ canonical, ∀ negative, d.number negative = .finite negative mantissa exponent canonical

variable {mantissa : Nat} {exponent : Int} {d d' : Decimal}

lemma Decimal.ratio_scale (d : Decimal) : ratio (scale 10 d.digits 1 d.power) = d.value := by
  rw [Number.ratio_scale (by decide), Nat.cast_one, div_one, Nat.cast_ofNat, value]

lemma Decimal.den_pos (d : Decimal) : 0 < (scale 10 d.digits 1 d.power).2 :=
  scale_snd_pos (by decide) Nat.one_pos _ _

lemma Decimal.number_congr (same : d.value = d'.value) (negative : Bool) :
    d.number negative = d'.number negative :=
  ofFraction_congr negative d.den_pos d'.den_pos
    (by rw [Prod.mk.eta, Prod.mk.eta, d.ratio_scale, d'.ratio_scale, same])

lemma Decimal.RoundsTo.congr (h : d.RoundsTo mantissa exponent) (same : d'.value = d.value) :
    d'.RoundsTo mantissa exponent := by
  obtain ⟨canonical, rounds⟩ := h
  exact ⟨canonical, fun negative => (number_congr same negative).trans (rounds negative)⟩

lemma Decimal.value_strip (d : Decimal) : d.strip.value = d.value := by
  induction d using Decimal.strip.induct with
  | case1 d done => rw [strip, dif_pos done]
  | case2 d further ih =>
    obtain ⟨-, ends⟩ := not_or.1 further
    have tenfold : d.digits = d.digits / 10 * 10 := by omega
    rw [strip, dif_neg further, ih, value, value]
    conv_rhs => rw [tenfold]
    rw [zpow_add₀ (by norm_num), zpow_one, Nat.cast_mul]
    push_cast
    ring

/-! ## The grids -/

/-- The sign of a fraction is the sign of its number. -/
lemma ofFraction_sign {negative sign : Bool} {num den : Nat} {canonical}
    (h : ofFraction negative num den = .finite sign mantissa exponent canonical) (other : Bool) :
    ofFraction other num den = .finite other mantissa exponent canonical := by
  unfold ofFraction ofParts Number.zero at *
  dsimp only at *
  repeat' split at h
  all_goals cases h
  all_goals simp_all

/-- What reads back to a positive number was rounded to it, and not settled as out of range. -/
lemma roundsTo_of_readsBack (pos : 0 < mantissa) (h : readsBack mantissa exponent d = true) :
    d.RoundsTo mantissa exponent := by
  unfold readsBack ofDecimal at h
  split at h
  · next sign m e canonical read =>
    simp only [Bool.and_eq_true, beq_iff_eq] at h
    obtain ⟨rfl, rfl⟩ := h
    have nonzero : ∀ s, zero s ≠ .finite sign m e canonical := by
      rintro s ⟨⟩
      exact absurd pos (Nat.lt_irrefl 0)
    -- the ways in which reading settles a decimal without rounding give zeros and infinities, and
    -- the number is neither
    have rounded : d.number false = .finite sign m e canonical := by
      split at read
      · exact absurd read (nonzero _)
      · split at read
        · cases read
        · split at read
          · exact absurd read (nonzero _)
          · exact read
    exact ⟨canonical, ofFraction_sign rounded⟩
  · cases h

lemma roundsTo_of_onGrid {power : Int} (pos : 0 < mantissa)
    (h : onGrid? mantissa exponent power = some d) : d.RoundsTo mantissa exponent := by
  have reads : readsBack mantissa exponent d = true := by
    unfold onGrid? at h
    grind
  exact roundsTo_of_readsBack pos reads

/-- The finest grid holds the number itself. -/
lemma value_fewestFrom_zero (mantissa : Nat) (exponent : Int) :
    (fewestFrom mantissa exponent 0).value = mantissa * 2 ^ exponent := by
  rw [fewestFrom, inUnits, magnitude, finestPower]
  rcases exponent with k | k
  · have coarse : min (Int.ofNat k) 0 = 0 := min_eq_right (Int.natCast_nonneg k)
    rw [coarse]
    simp [scale, Decimal.value]
  · -- a negative power of two is written with as many decimal places, as a power of five over one
    -- of ten
    have fine : min (Int.negSucc k) 0 = Int.negSucc k := min_eq_left (Int.negSucc_lt_zero k).le
    have split : Nat.pow 10 (k + 1) = Nat.pow 5 (k + 1) * Nat.pow 2 (k + 1) :=
      Nat.mul_pow 5 2 (k + 1)
    have two : 0 < Nat.pow 2 (k + 1) := Nat.pow_pos (by decide)
    have ten : (10 : ℚ) = 5 * 2 := by norm_num
    rw [fine, Int.neg_negSucc]
    simp only [scale, Decimal.value]
    rw [split, one_mul, ← Nat.mul_assoc, Nat.mul_div_cancel _ two]
    simp only [Nat.pow_eq, Nat.cast_mul, Nat.cast_pow, Nat.cast_ofNat, zpow_negSucc, ten, mul_pow]
    field_simp

variable (canonical : Canonical mantissa exponent) (pos : 0 < mantissa)
include canonical pos

lemma roundsTo_fewestFrom (steps : Nat) :
    (fewestFrom mantissa exponent steps).RoundsTo mantissa exponent := by
  induction steps with
  | zero =>
    have value := value_fewestFrom_zero mantissa exponent
    rw [← Decimal.ratio_scale] at value
    exact ⟨canonical, ofFraction_of_ratio_eq canonical pos (Decimal.den_pos _) value⟩
  | succ steps ih =>
    rw [fewestFrom]
    rcases h : onGrid? mantissa exponent (finestPower exponent + (steps + 1 : Nat)) with _ | d
    · exact ih
    · exact roundsTo_of_onGrid pos h

/-- **The digits of a number are rounded to it.** -/
theorem roundsTo_shortest : (shortest mantissa exponent).RoundsTo mantissa exponent :=
  (roundsTo_fewestFrom canonical pos _).congr (Decimal.value_strip _)

end Number

end Stencil
