import Mathlib.Algebra.Order.AbsoluteValue.Basic
import Mathlib.Algebra.Order.Field.Basic
import Mathlib.Algebra.Order.Field.Rat
import Mathlib.Data.Nat.GCD.Basic
import Mathlib.RingTheory.Coprime.Lemmas
import Mathlib.Tactic.FieldSimp
import Mathlib.Tactic.Linarith
import Mathlib.Tactic.LinearCombination
import Mathlib.Tactic.Ring

/-! Fractions next to each other, and the fractions of bounded size that are nearest to a number
between them. -/

namespace Imflib.BestApproximation

/-- A fraction that is not negative. It may be infinite. -/
structure Fraction where
  num : ℕ
  den : ℕ
  deriving DecidableEq, Repr

namespace Fraction

def value (a : Fraction) : ℚ := a.num / a.den

def Fits (bound : ℕ) (a : Fraction) : Prop := a.num ≤ bound ∧ a.den ≤ bound

instance (bound : ℕ) : DecidablePred (Fits bound) := fun _ => inferInstanceAs (Decidable (_ ∧ _))

def combine (m : ℕ) (a : Fraction) (n : ℕ) (b : Fraction) : Fraction :=
  ⟨m * a.num + n * b.num, m * a.den + n * b.den⟩

def cross (a b : Fraction) : ℤ := a.num * b.den - b.num * a.den

variable {a b : Fraction} {bound : ℕ}

theorem cross_combine (m : ℕ) (a : Fraction) (n : ℕ) (b p : Fraction) :
    cross (combine m a n b) p = m * cross a p + n * cross b p := by
  unfold cross combine
  push_cast
  ring

theorem cross_self (a : Fraction) : cross a a = 0 := by
  unfold cross
  ring

theorem cross_comm (a b : Fraction) : cross a b = -cross b a := by
  unfold cross
  ring

theorem abs_value_sub (positive : 0 < a.den) (otherPositive : 0 < b.den) :
    |a.value - b.value| = |(cross a b : ℚ)| / (a.den * b.den) := by
  have first : (0 : ℚ) < a.den := by exact_mod_cast positive
  have second : (0 : ℚ) < b.den := by exact_mod_cast otherPositive
  have difference : a.value - b.value = cross a b / (a.den * b.den) := by
    unfold value cross
    push_cast
    field_simp
  rw [difference, abs_div, abs_of_pos (mul_pos first second)]

theorem abs_value_sub_le_iff {target : Fraction} (targetPositive : 0 < target.den)
    (positive : 0 < a.den) (otherPositive : 0 < b.den) :
    |target.value - a.value| ≤ |target.value - b.value| ↔
      |cross target a| * b.den ≤ |cross target b| * a.den := by
  rw [abs_value_sub targetPositive positive, abs_value_sub targetPositive otherPositive]
  have first : (0 : ℚ) < a.den := by exact_mod_cast positive
  have second : (0 : ℚ) < b.den := by exact_mod_cast otherPositive
  have third : (0 : ℚ) < target.den := by exact_mod_cast targetPositive
  rw [div_le_div_iff₀ (mul_pos third first) (mul_pos third second)]
  constructor
  · intro near
    have scaled : |(cross target a : ℚ)| * b.den ≤ |(cross target b : ℚ)| * a.den := by
      apply le_of_mul_le_mul_left _ third
      linarith
    exact_mod_cast scaled
  · intro near
    have scaled : |(cross target a : ℚ)| * b.den ≤ |(cross target b : ℚ)| * a.den := by
      exact_mod_cast near
    have := mul_le_mul_of_nonneg_left scaled third.le
    linarith

end Fraction

open Fraction

/-- Nothing lies between them that is not greater than both in each part. -/
def Neighbours (a b : Fraction) : Prop := cross a b = 1 ∨ cross a b = -1

namespace Neighbours

variable {a b p target : Fraction} {bound m n : ℕ}

theorem symm (neighbours : Neighbours a b) : Neighbours b a := by
  rw [Neighbours, cross_comm b a]
  rcases neighbours with one | one
  · rw [one]
    exact .inr rfl
  · rw [one]
    exact .inl rfl

theorem combine_left (neighbours : Neighbours a b) (times : ℕ) :
    Neighbours (combine times b 1 a) b := by
  rw [Neighbours, cross_combine, cross_self]
  rcases neighbours with one | one
  · exact .inl (by rw [one]; ring)
  · exact .inr (by rw [one]; ring)

theorem coprime (neighbours : Neighbours a b) : Nat.Coprime a.num a.den := by
  apply Nat.isCoprime_iff_coprime.mp
  rcases neighbours with one | one
  · refine ⟨b.den, -b.num, ?_⟩
    rw [← one]
    unfold cross
    ring
  · refine ⟨-b.den, b.num, ?_⟩
    have := congrArg Neg.neg one
    rw [neg_neg] at this
    rw [← this]
    unfold cross
    ring

/-- The first neighbour in a fraction, as far as it is made of both. -/
def share (a b p : Fraction) : ℤ := cross a b * cross p b

theorem share_num (neighbours : Neighbours a b) (p : Fraction) :
    (p.num : ℤ) = share a b p * a.num + share b a p * b.num := by
  have square : cross a b * cross a b = 1 := by
    rcases neighbours with one | one <;> rw [one] <;> rfl
  calc (p.num : ℤ) = cross a b * cross a b * p.num := by rw [square, one_mul]
    _ = share a b p * a.num + share b a p * b.num := by
      unfold share
      unfold cross
      ring

theorem share_den (neighbours : Neighbours a b) (p : Fraction) :
    (p.den : ℤ) = share a b p * a.den + share b a p * b.den := by
  have square : cross a b * cross a b = 1 := by
    rcases neighbours with one | one <;> rw [one] <;> rfl
  calc (p.den : ℤ) = cross a b * cross a b * p.den := by rw [square, one_mul]
    _ = share a b p * a.den + share b a p * b.den := by
      unfold share
      unfold cross
      ring

theorem share_nonpos (neighbours : Neighbours a b) (fits : Fits bound p)
    (tooGreat : ¬ Fits bound (combine 1 a 1 b)) : share a b p ≤ 0 ∨ share b a p ≤ 0 := by
  by_contra positive
  rw [not_or, not_le, not_le] at positive
  obtain ⟨first, second⟩ := positive
  have num := share_num neighbours p
  have den := share_den neighbours p
  have nums : (a.num : ℤ) + b.num ≤ p.num := by
    have := mul_le_mul_of_nonneg_right (Int.add_one_le_iff.mpr first) (Int.natCast_nonneg a.num)
    have := mul_le_mul_of_nonneg_right (Int.add_one_le_iff.mpr second) (Int.natCast_nonneg b.num)
    linarith
  have dens : (a.den : ℤ) + b.den ≤ p.den := by
    have := mul_le_mul_of_nonneg_right (Int.add_one_le_iff.mpr first) (Int.natCast_nonneg a.den)
    have := mul_le_mul_of_nonneg_right (Int.add_one_le_iff.mpr second) (Int.natCast_nonneg b.den)
    linarith
  obtain ⟨numFits, denFits⟩ := fits
  apply tooGreat
  constructor
  · show 1 * a.num + 1 * b.num ≤ bound
    omega
  · show 1 * a.den + 1 * b.den ≤ bound
    omega

theorem abs_cross (neighbours : Neighbours a b) (m n : ℕ) (p : Fraction) :
    |cross (combine m a n b) p| = |m * share b a p - n * share a b p| := by
  have signed : cross a b * cross (combine m a n b) p = m * share b a p - n * share a b p := by
    rw [cross_combine]
    unfold share
    rw [cross_comm b a, cross_comm p b, cross_comm a p]
    ring
  rw [← signed, abs_mul]
  rcases neighbours with one | one <;> rw [one] <;> norm_num

theorem abs_cross_right (neighbours : Neighbours a b) (m n : ℕ) :
    |cross (combine m a n b) b| = m := by
  rw [cross_combine, cross_self]
  rcases neighbours with one | one <;> rw [one] <;> simp

theorem le_abs_cross (neighbours : Neighbours a b) (positive : 0 < p.den)
    (without : share a b p ≤ 0) :
    0 < b.den ∧ (m : ℤ) * p.den ≤ |cross (combine m a n b) p| * b.den := by
  have den := share_den neighbours p
  have denPositive : (0 : ℤ) < p.den := by exact_mod_cast positive
  have lost := mul_nonneg (neg_nonneg.mpr without) (Int.natCast_nonneg a.den)
  have rest : (p.den : ℤ) ≤ share b a p * b.den := by linarith
  have other : 0 < share b a p * b.den := by linarith
  have otherDen : (0 : ℤ) < b.den := by
    rcases (Int.natCast_nonneg b.den).lt_or_eq with more | none_
    · exact more
    · rw [← none_, mul_zero] at other
      exact absurd other (lt_irrefl 0)
  refine ⟨by exact_mod_cast otherDen, ?_⟩
  have shorter : (m : ℤ) * share b a p ≤ |cross (combine m a n b) p| := by
    rw [abs_cross neighbours]
    have := mul_nonneg (Int.natCast_nonneg n) (neg_nonneg.mpr without)
    have := le_abs_self ((m : ℤ) * share b a p - n * share a b p)
    linarith
  calc (m : ℤ) * p.den ≤ m * (share b a p * b.den) :=
        mul_le_mul_of_nonneg_left rest (Int.natCast_nonneg m)
    _ = m * share b a p * b.den := by ring
    _ ≤ |cross (combine m a n b) p| * b.den :=
        mul_le_mul_of_nonneg_right shorter (Int.natCast_nonneg b.den)

theorem combine_comm (m : ℕ) (a : Fraction) (n : ℕ) (b : Fraction) :
    combine m a n b = combine n b m a := by
  unfold combine
  rw [Nat.add_comm, Nat.add_comm (m * a.den)]

end Neighbours

/-- Of the fractions within the bound none is nearer. -/
structure Nearest (bound : ℕ) (target : ℚ) (a : Fraction) : Prop where
  positive : 0 < a.den
  fits : Fits bound a
  least : ∀ p : Fraction, Fits bound p → 0 < p.den → |target - a.value| ≤ |target - p.value|

/-- Between two neighbours that cannot be added the nearer one of them is nearest. -/
theorem Neighbours.nearest {a b : Fraction} {bound m n : ℕ} (neighbours : Neighbours a b)
    (positive : 0 < (combine m a n b).den) (fits : Fits bound b)
    (tooGreat : ¬ Fits bound (combine 1 a 1 b)) (nearer : m * a.den ≤ n * b.den) :
    Nearest bound (combine m a n b).value b := by
  have denPositive : 0 < b.den := by
    by_contra none_
    have zero : b.den = 0 := by omega
    have sum : 0 < m * a.den + n * b.den := positive
    rw [zero] at sum nearer
    omega
  refine ⟨denPositive, fits, fun p pFits pPositive => ?_⟩
  rw [abs_value_sub_le_iff positive denPositive pPositive, neighbours.abs_cross_right]
  rcases neighbours.share_nonpos pFits tooGreat with without | without
  · exact (neighbours.le_abs_cross pPositive without).2
  · -- Then the other neighbour is between, and it is not nearer either.
    obtain ⟨otherPositive, farther⟩ := neighbours.symm.le_abs_cross (n := m) (m := n) pPositive without
    rw [Neighbours.combine_comm] at farther
    have scale : (0 : ℤ) < a.den := by exact_mod_cast otherPositive
    have less : (m : ℤ) * a.den ≤ n * b.den := by exact_mod_cast nearer
    apply le_of_mul_le_mul_right _ scale
    calc (m : ℤ) * p.den * a.den = m * a.den * p.den := by ring
      _ ≤ n * b.den * p.den := mul_le_mul_of_nonneg_right less (Int.natCast_nonneg p.den)
      _ = n * p.den * b.den := by ring
      _ ≤ |cross (combine m a n b) p| * a.den * b.den :=
          mul_le_mul_of_nonneg_right farther (Int.natCast_nonneg b.den)
      _ = |cross (combine m a n b) p| * b.den * a.den := by ring

end Imflib.BestApproximation
