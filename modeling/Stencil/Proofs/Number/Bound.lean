import Mathlib.Tactic.Lemma
import Stencil.Number.Basic

/-!
# Numbers as bounds

A limit of the configuration is a number, and a number is compared with the integers that a run
counts.  The set of integers that a number is at most is upward closed, and a number that is an
integer is at most just the integers that are not less.

A limit need not be an integer, and it need not be finite: an infinite limit is at most all integers
or none of them, and what is no number is at most none.  So the counts that a limit admits are those
up to some integer, or all, or none, and later modules use no more of it than that they are closed
downward.
-/

namespace Stencil

namespace Number

/-- The denominator of a magnitude is positive. -/
lemma scale_den_pos (num : Nat) (power : Int) : 0 < (scale 2 num 1 power).2 := by
  cases power with
  | ofNat k => simp [scale]
  | negSucc k =>
    simp only [scale, Nat.one_mul]
    exact Nat.two_pow_pos (k + 1)

/-- What is at most an integer is at most every larger one. -/
lemma atMost_mono {x : Number} {m n : Int} (h : m ≤ n) (hm : x.atMost m = true) :
    x.atMost n = true := by
  cases x with
  | nan => simp [atMost] at hm
  | infinite negative => exact hm
  | finite negative mantissa exponent canonical =>
    simp only [atMost, decide_eq_true_eq] at hm ⊢
    exact Int.le_trans hm (Int.mul_le_mul_of_nonneg_right h (Int.natCast_nonneg _))

/-- What holds off a larger integer holds off a smaller one. -/
lemma atMost_eq_false_of_le {x : Number} {m n : Int} (h : m ≤ n) (hn : x.atMost n = false) :
    x.atMost m = false :=
  Bool.eq_false_iff.2 fun hm => Bool.false_ne_true (hn.symm.trans (atMost_mono h hm))

/-- A number that is an integer is at most an integer as integers compare. -/
lemma atMost_iff {x : Number} {m : Int} (h : x.toInt? = some m) (n : Int) :
    x.atMost n = true ↔ m ≤ n := by
  cases x with
  | nan => simp [toInt?] at h
  | infinite negative => simp [toInt?] at h
  | finite negative mantissa exponent canonical =>
    have pos : 0 < (magnitude mantissa exponent).2 := scale_den_pos mantissa exponent
    simp only [toInt?] at h
    split at h
    · next whole =>
      simp only [atMost, decide_eq_true_eq]
      generalize magnitude mantissa exponent = f at *
      obtain ⟨num, den⟩ := f
      dsimp only at *
      -- the numerator is the integer times the denominator, which cancels
      have divides : den ∣ num := Nat.dvd_of_mod_eq_zero whole
      have num_eq : num = num / den * den := (Nat.div_mul_cancel divides).symm
      have cancel : ∀ k : Int, k * den ≤ n * den ↔ k ≤ n := fun k =>
        Int.mul_le_mul_right (by omega)
      generalize num / den = q at *
      subst num_eq
      rw [← Option.some.inj h, ← cancel]
      split
      · rw [Int.natCast_mul, Int.neg_mul]
      · rw [Int.natCast_mul]
    · simp at h

end Number

end Stencil
