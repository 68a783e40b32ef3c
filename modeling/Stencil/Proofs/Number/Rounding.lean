import Mathlib.Algebra.Order.Field.Power
import Mathlib.Data.Int.Log
import Mathlib.Data.Rat.Floor
import Mathlib.Tactic.FieldSimp
import Mathlib.Tactic.Lemma
import Stencil.Number.Basic

/-!
# Rounding a fraction

Fractions are rounded without being reduced first, so it has to be shown that the result depends on
the value of a fraction and not on its numerator and denominator (`ofFraction_congr`).  The one step
where this is not plain is the choice of the exponent, which compares the lengths of the two: it
comes out as the binary logarithm of the value (`exponentOf_eq_log`).

A value that is a number already is rounded to itself (`ofFraction_of_ratio_eq`).

The binary lengths of numerator and denominator leave two candidates for the logarithm of their
quotient (`log_ratio_bounds`); the comparison that follows in `exponentOf` decides between them, and
`le_scale_iff_le_log` says what it compares.  From there on numerator and denominator do not occur
alone any more.
-/

namespace Stencil

namespace Number

/-- The value of a fraction. -/
def ratio (f : Nat × Nat) : ℚ :=
  f.1 / f.2

lemma ratio_scale {base : Nat} (pos : 0 < base) (num den : Nat) (power : Int) :
    ratio (scale base num den power) = (num : ℚ) / den * (base : ℚ) ^ power := by
  have base_ne : (base : ℚ) ≠ 0 := by exact_mod_cast pos.ne'
  cases power with
  | ofNat k =>
    simp only [ratio, scale, Nat.pow_eq, Nat.cast_mul, Nat.cast_pow, Int.ofNat_eq_natCast,
      zpow_natCast]
    ring
  | negSucc k =>
    simp only [ratio, scale, Nat.pow_eq, Nat.cast_mul, Nat.cast_pow, zpow_negSucc]
    rw [div_mul_eq_div_div, div_eq_mul_inv (_ / _)]

lemma scale_snd_pos {base den : Nat} (pos : 0 < base) (hd : 0 < den) (num : Nat) (power : Int) :
    0 < (scale base num den power).2 := by
  cases power with
  | ofNat k => exact hd
  | negSucc k => exact Nat.mul_pos hd (Nat.pow_pos pos)

/-! ## The nearest integer -/

variable {num den num' den' : Nat}

lemma nearest_mul_right {k : Nat} (pos : 0 < k) (num den : Nat) :
    nearest (num * k) (den * k) = nearest num den := by
  have less : ∀ a b : Nat, a * k < b * k ↔ a < b := fun a b => Nat.mul_lt_mul_right pos
  unfold nearest
  simp only [Nat.mul_div_mul_right num den pos, Nat.mul_mod_mul_right, ← Nat.mul_assoc, less]

/-- The nearest integer of a fraction depends on its value only. -/
lemma nearest_congr (hd : 0 < den) (hd' : 0 < den')
    (same : ratio (num, den) = ratio (num', den')) : nearest num den = nearest num' den' := by
  have crossed : num * den' = num' * den := by
    have hq : (den : ℚ) ≠ 0 := by exact_mod_cast hd.ne'
    have hq' : (den' : ℚ) ≠ 0 := by exact_mod_cast hd'.ne'
    rw [ratio, ratio, div_eq_div_iff hq hq'] at same
    exact_mod_cast same
  calc nearest num den = nearest (num * den') (den * den') := (nearest_mul_right hd' _ _).symm
    _ = nearest (num' * den) (den' * den) := by rw [crossed, Nat.mul_comm den den']
    _ = nearest num' den' := nearest_mul_right hd _ _

lemma nearest_one (n : Nat) : nearest n 1 = n := by
  simp [nearest, Nat.mod_one]

/-! ## The exponent -/

/-- The binary lengths of a numerator and a denominator leave two logarithms for their ratio. -/
lemma log_ratio_bounds (hn : 0 < num) (hd : 0 < den) :
    (Nat.log2 num : Int) - Nat.log2 den - 1 ≤ Int.log 2 (ratio (num, den)) ∧
      Int.log 2 (ratio (num, den)) ≤ (Nat.log2 num : Int) - Nat.log2 den := by
  have two : (0 : ℚ) < 2 := by norm_num
  have den_pos : (0 : ℚ) < den := by exact_mod_cast hd
  have value_pos : 0 < ratio (num, den) := div_pos (by exact_mod_cast hn) den_pos
  have num_le : (2 : ℚ) ^ (Nat.log2 num : Int) ≤ num := by
    exact_mod_cast Nat.log2_self_le hn.ne'
  have num_lt : (num : ℚ) < 2 ^ ((Nat.log2 num : Int) + 1) := by
    exact_mod_cast Nat.lt_log2_self
  have den_le : (2 : ℚ) ^ (Nat.log2 den : Int) ≤ den := by
    exact_mod_cast Nat.log2_self_le hd.ne'
  have den_lt : (den : ℚ) < 2 ^ ((Nat.log2 den : Int) + 1) := by
    exact_mod_cast Nat.lt_log2_self
  set L : Int := (Nat.log2 num : Int) - Nat.log2 den with hL
  -- both bounds compare powers of two: the numerator is at least its power, the denominator less
  -- than the next one, and the other way round
  constructor
  · apply (Int.zpow_le_iff_le_log (by decide) value_pos).1
    rw [ratio, le_div_iff₀ den_pos]
    calc (2 : ℚ) ^ (L - 1) * den ≤ 2 ^ (L - 1) * 2 ^ ((Nat.log2 den : Int) + 1) := by
          gcongr
      _ = 2 ^ (Nat.log2 num : Int) := by
          rw [← zpow_add₀ two.ne']
          congr 1
          omega
      _ ≤ num := num_le
  · apply Int.lt_add_one_iff.1
    apply (Int.lt_zpow_iff_log_lt (by decide) value_pos).1
    rw [ratio, div_lt_iff₀ den_pos]
    calc (num : ℚ) < 2 ^ ((Nat.log2 num : Int) + 1) := num_lt
      _ = 2 ^ (L + 1) * 2 ^ (Nat.log2 den : Int) := by
          rw [← zpow_add₀ two.ne']
          congr 1
          omega
      _ ≤ 2 ^ (L + 1) * den := by
          gcongr

/-- Comparing a fraction that was scaled by a power of two compares its logarithm. -/
lemma le_scale_iff_le_log (hn : 0 < num) (hd : 0 < den) (k : Nat) (power : Int) :
    Nat.pow 2 k * (scale 2 num den power).2 ≤ (scale 2 num den power).1 ↔
      k - power ≤ Int.log 2 (ratio (num, den)) := by
  have two : (0 : ℚ) < 2 := by norm_num
  have value_pos : 0 < ratio (num, den) :=
    div_pos (by exact_mod_cast hn) (by exact_mod_cast hd)
  have scaled := ratio_scale (by decide : 0 < 2) num den power
  have scaled_pos := scale_snd_pos (by decide : 0 < 2) hd num power
  generalize scale 2 num den power = f at scaled scaled_pos
  have f_pos : (0 : ℚ) < f.2 := by exact_mod_cast scaled_pos
  have compared : Nat.pow 2 k * f.2 ≤ f.1 ↔ (2 : ℚ) ^ (k : Int) ≤ ratio f := by
    rw [ratio, le_div_iff₀ f_pos]
    norm_cast
  rw [compared, scaled, ← Int.zpow_le_iff_le_log (by decide) value_pos, Nat.cast_ofNat,
    zpow_sub₀ two.ne', div_le_iff₀ (zpow_pos two power)]
  rfl

/-- The exponent of a fraction is that of the last bit of a full mantissa. -/
lemma exponentOf_eq_log (hn : 0 < num) (hd : 0 < den) :
    exponentOf num den = max (Int.log 2 (ratio (num, den)) - 52) (-1074) := by
  obtain ⟨low, high⟩ := log_ratio_bounds hn hd
  have decided := le_scale_iff_le_log hn hd 53
    (-((Nat.log2 num : Int) - Nat.log2 den - 53))
  unfold exponentOf
  dsimp only
  split
  · next reached =>
    have := decided.1 reached
    omega
  · next missed =>
    have := mt decided.2 missed
    omega

/-! ## The number of a fraction -/

/-- **Rounding sees only the value of a fraction.** -/
theorem ofFraction_congr (negative : Bool) (hd : 0 < den) (hd' : 0 < den')
    (same : ratio (num, den) = ratio (num', den')) :
    ofFraction negative num den = ofFraction negative num' den' := by
  have hq : (0 : ℚ) < den := by exact_mod_cast hd
  have hq' : (0 : ℚ) < den' := by exact_mod_cast hd'
  have zero_iff : num = 0 ↔ num' = 0 := by
    have same_zero : ratio (num, den) = 0 ↔ ratio (num', den') = 0 := by rw [same]
    simpa [ratio, hq.ne', hq'.ne'] using same_zero
  unfold ofFraction
  rcases Nat.eq_zero_or_pos num with zero | pos
  · rw [if_pos zero, if_pos (zero_iff.1 zero)]
  · have pos' : 0 < num' := Nat.pos_of_ne_zero fun zero => pos.ne' (zero_iff.2 zero)
    rw [if_neg pos.ne', if_neg pos'.ne']
    -- the exponent is a logarithm of the value, and the mantissa the nearest integer of the value
    -- in its units
    have exponent : exponentOf num den = exponentOf num' den' := by
      rw [exponentOf_eq_log pos hd, exponentOf_eq_log pos' hd', same]
    rw [exponent]
    have mantissa : nearest (scale 2 num den (-exponentOf num' den')).1
          (scale 2 num den (-exponentOf num' den')).2 =
        nearest (scale 2 num' den' (-exponentOf num' den')).1
          (scale 2 num' den' (-exponentOf num' den')).2 := by
      apply nearest_congr (scale_snd_pos (by decide) hd _ _) (scale_snd_pos (by decide) hd' _ _)
      rw [Prod.mk.eta, Prod.mk.eta, ratio_scale (by decide), ratio_scale (by decide)]
      exact congrArg (· * _) same
    dsimp only
    rw [mantissa]

/-- **A number is rounded to itself**, from any fraction of its value. -/
theorem ofFraction_of_ratio_eq {mantissa : Nat} {exponent : Int}
    (canonical : Canonical mantissa exponent) (pos : 0 < mantissa) (hd : 0 < den)
    (value : ratio (num, den) = mantissa * 2 ^ exponent) (negative : Bool) :
    ofFraction negative num den = .finite negative mantissa exponent canonical := by
  have two : (0 : ℚ) < 2 := by norm_num
  have value_pos : 0 < ratio (num, den) := by
    rw [value]
    exact mul_pos (by exact_mod_cast pos) (zpow_pos two _)
  have num_pos : 0 < num := by
    apply Nat.pos_of_ne_zero
    rintro rfl
    simp [ratio] at value_pos
  obtain ⟨small, low, high, full⟩ := id canonical
  -- the exponent comes out as the number's own: its mantissa fills the 53 bits, or the exponent is
  -- the least one anyway
  have own : exponentOf num den = exponent := by
    have below : Int.log 2 (ratio (num, den)) < 53 + exponent := by
      apply (Int.lt_zpow_iff_log_lt (by decide) value_pos).1
      rw [value, Nat.cast_ofNat, zpow_add₀ two.ne']
      gcongr
      exact_mod_cast small
    rw [exponentOf_eq_log num_pos hd]
    rcases full with full | least
    · have above : 52 + exponent ≤ Int.log 2 (ratio (num, den)) := by
        apply (Int.zpow_le_iff_le_log (by decide) value_pos).1
        rw [value, Nat.cast_ofNat, zpow_add₀ two.ne']
        gcongr
        exact_mod_cast full
      omega
    · omega
  -- in units of this exponent the value is the mantissa, an integer, so nothing is rounded
  have rounded : nearest (scale 2 num den (-exponent)).1 (scale 2 num den (-exponent)).2 =
      mantissa := by
    rw [← nearest_one mantissa]
    apply nearest_congr (scale_snd_pos (by decide) hd _ _) Nat.one_pos
    have unscaled : (num : ℚ) / den = mantissa * 2 ^ exponent := value
    rw [Prod.mk.eta, ratio_scale (by decide), unscaled, mul_assoc, Nat.cast_ofNat,
      ← zpow_add₀ two.ne', add_neg_cancel, zpow_zero]
    simp [ratio]
  have inside : mantissa ≠ Nat.pow 2 53 := small.ne
  unfold ofFraction ofParts
  rw [if_neg num_pos.ne', own]
  dsimp only
  rw [rounded, if_neg inside, dif_pos canonical]

end Number

end Stencil
