import Imflib.Base.BestApproximation
import Imflib.Encoder.EncoderParameters
import Mathlib.Data.Nat.Cast.Field

/-! The frame rate and the aspect ratio of the input: fractions of a bounded size. -/

namespace Imflib.Encoder

open BestApproximation Fraction

structure AVRational where
  num : Int
  den : Int
  deriving DecidableEq, Repr

def lastStep (max : ℕ) (a0 a1 : Fraction) (x : ℕ) : ℕ :=
  let x := if a1.num = 0 then x else (max - a0.num) / a1.num
  if a1.den = 0 then x else min x ((max - a0.den) / a1.den)

/-- The loop of `av_reduce` over the convergents. Its numbers are not negative, and for parts that are
`int`s they fit into 64 bits. -/
def avReduceLoop (max : ℕ) (a0 a1 : Fraction) (num den : ℕ) : Fraction :=
  if _nonzero : den = 0 then a1
  else
    let x := num / den
    let nextDen := num - den * x
    let a2 : Fraction := ⟨x * a1.num + a0.num, x * a1.den + a0.den⟩
    if max < a2.num ∨ max < a2.den then
      let x := lastStep max a0 a1 x
      if num * a1.den < den * (2 * x * a1.den + a0.den) then
        ⟨x * a1.num + a0.num, x * a1.den + a0.den⟩
      else a1
    else avReduceLoop max a1 a2 den nextDen
  termination_by den
  decreasing_by
    rw [← Nat.mod_eq_sub_mul_div]
    exact Nat.mod_lt num (Nat.pos_of_ne_zero _nonzero)

/-- `av_reduce` without the sign. If there is no common divisor, both numbers are zero. -/
def avReduceAbs (num den : Int) (max : ℕ) : Fraction :=
  let gcd := Int.gcd num den
  let num := num.natAbs / gcd
  let den := den.natAbs / gcd
  if num ≤ max ∧ den ≤ max then ⟨num, den⟩ else avReduceLoop max ⟨0, 1⟩ ⟨1, 0⟩ num den

def avReduce (num den : Int) (max : ℕ) : AVRational :=
  let sign := decide (num < 0) != decide (den < 0)
  let a1 := avReduceAbs num den max
  { num := if sign then -a1.num else a1.num, den := a1.den }

section Loop

variable {max x : ℕ} {a0 a1 : Fraction}

theorem mul_add_le_of_le_div {k n start : ℕ} (small : start ≤ max) (few : k ≤ (max - start) / n) :
    k * n + start ≤ max := by
  have := (Nat.mul_le_mul_right n few).trans (Nat.div_mul_le_self (max - start) n)
  omega

theorem lt_mul_add {n start : ℕ} (positive : n ≠ 0) :
    max < ((max - start) / n + 1) * n + start := by
  have split := Nat.div_add_mod (max - start) n
  have below := Nat.mod_lt (max - start) (Nat.pos_of_ne_zero positive)
  have more : ((max - start) / n + 1) * n = n * ((max - start) / n) + n := by ring
  omega

theorem fits_of_le {k : ℕ} (fewer : x ≤ k) (fits : Fits max (combine k a1 1 a0)) :
    Fits max (combine x a1 1 a0) :=
  ⟨(Nat.add_le_add_right (Nat.mul_le_mul_right _ fewer) _).trans fits.1,
    (Nat.add_le_add_right (Nat.mul_le_mul_right _ fewer) _).trans fits.2⟩

theorem lastStep_fits (small : Fits max a0) : Fits max (combine (lastStep max a0 a1 x) a1 1 a0) := by
  have num (k : ℕ) (few : a1.num ≠ 0 → k ≤ (max - a0.num) / a1.num) :
      k * a1.num + 1 * a0.num ≤ max := by
    rw [one_mul]
    by_cases zero : a1.num = 0
    · rw [zero, mul_zero, zero_add]
      exact small.1
    · exact mul_add_le_of_le_div small.1 (few zero)
  have den (k : ℕ) (few : a1.den ≠ 0 → k ≤ (max - a0.den) / a1.den) :
      k * a1.den + 1 * a0.den ≤ max := by
    rw [one_mul]
    by_cases zero : a1.den = 0
    · rw [zero, mul_zero, zero_add]
      exact small.2
    · exact mul_add_le_of_le_div small.2 (few zero)
  refine ⟨num _ fun nonzero => ?_, den _ fun nonzero => ?_⟩
  · unfold lastStep
    rw [if_neg nonzero]
    split_ifs
    · exact le_refl _
    · exact min_le_left _ _
  · unfold lastStep
    rw [if_neg nonzero]
    exact min_le_right _ _

theorem lastStep_last (tooGreat : ¬ Fits max (combine x a1 1 a0)) :
    ¬ Fits max (combine (lastStep max a0 a1 x + 1) a1 1 a0) := by
  intro fits
  have num : (lastStep max a0 a1 x + 1) * a1.num + 1 * a0.num ≤ max := fits.1
  have den : (lastStep max a0 a1 x + 1) * a1.den + 1 * a0.den ≤ max := fits.2
  rw [one_mul] at num den
  have before : lastStep max a0 a1 x + 1 ≤ x := by
    by_contra more
    exact tooGreat (fits_of_le (by omega) fits)
  unfold lastStep at num den before
  by_cases zeroNum : a1.num = 0
  · rw [if_pos zeroNum] at den before
    by_cases zeroDen : a1.den = 0
    · rw [if_pos zeroDen] at before
      omega
    · rw [if_neg zeroDen] at den before
      rcases min_choice x ((max - a0.den) / a1.den) with same | same
      · rw [same] at before
        omega
      · rw [same] at den
        exact absurd den (not_le.mpr (lt_mul_add zeroDen))
  · rw [if_neg zeroNum] at num den
    by_cases zeroDen : a1.den = 0
    · rw [if_pos zeroDen] at num
      exact absurd num (not_le.mpr (lt_mul_add zeroNum))
    · rw [if_neg zeroDen] at num den
      rcases min_choice ((max - a0.num) / a1.num) ((max - a0.den) / a1.den) with same | same
      · rw [same] at num
        exact absurd num (not_le.mpr (lt_mul_add zeroNum))
      · rw [same] at den
        exact absurd den (not_le.mpr (lt_mul_add zeroDen))

theorem lastStep_lt (small : Fits max a0) (tooGreat : ¬ Fits max (combine x a1 1 a0)) :
    lastStep max a0 a1 x < x := by
  by_contra more
  exact tooGreat (fits_of_le (not_lt.mp more) (lastStep_fits small))

theorem combine_one (x : ℕ) (a1 a0 : Fraction) :
    combine x a1 1 a0 = ⟨x * a1.num + a0.num, x * a1.den + a0.den⟩ := by
  rw [combine, one_mul, one_mul]

/-- The target of the loop lies between the last convergent and the one that is tried last. -/
theorem combine_lastStep {num den k : ℕ} (few : k * den ≤ num) :
    combine num a1 den a0 = combine (num - k * den) a1 den (combine k a1 1 a0) := by
  obtain ⟨rest, rfl⟩ := Nat.exists_eq_add_of_le few
  rw [Nat.add_sub_cancel_left, combine_one]
  unfold combine
  congr 1 <;> ring

theorem combine_combine (k : ℕ) (a1 a0 : Fraction) :
    combine 1 (combine k a1 1 a0) 1 a1 = combine (k + 1) a1 1 a0 := by
  unfold combine
  congr 1 <;> ring

theorem nearest_exact {num : ℕ} (fits : Fits max a1) (positive : 0 < (combine num a1 0 a0).den) :
    Nearest max (combine num a1 0 a0).value a1 := by
  have split : 0 < num * a1.den := by
    unfold combine at positive
    simpa using positive
  have times := Nat.pos_of_mul_pos_right split
  have den := Nat.pos_of_mul_pos_left split
  have same : (combine num a1 0 a0).value = a1.value := by
    unfold combine value
    have : (num : ℚ) ≠ 0 := by exact_mod_cast times.ne'
    push_cast
    rw [zero_mul, zero_mul, add_zero, add_zero, mul_div_mul_left _ _ this]
  refine ⟨den, fits, fun p pFits pPositive => ?_⟩
  rw [same, sub_self, abs_zero]
  exact abs_nonneg _

theorem combine_division (num den : ℕ) :
    combine num a1 den a0 =
      combine den (combine (num / den) a1 1 a0) (num - den * (num / den)) a1 := by
  have few : den * (num / den) ≤ num := Nat.mul_div_le num den
  obtain ⟨rest, split⟩ := Nat.exists_eq_add_of_le few
  have left : num - den * (num / den) = rest := by omega
  rw [left, combine_one]
  unfold combine
  dsimp only
  nth_rewrite 1 [split]
  nth_rewrite 2 [split]
  congr 1 <;> ring

theorem fits_combine_one_iff :
    Fits max (combine x a1 1 a0) ↔
      ¬ (max < x * a1.num + a0.num ∨ max < x * a1.den + a0.den) := by
  rw [combine_one, Fits, not_or, not_lt, not_lt]

section LastStep

variable {num den : ℕ} (neighbours : Neighbours a1 a0) (fits0 : Fits max a0)
  (positive : 0 < (combine num a1 den a0).den)
  (tooGreat : ¬ Fits max (combine (num / den) a1 1 a0))

include neighbours fits0 positive tooGreat

theorem nearest_lastStep (nearer : num * a1.den <
    den * (2 * lastStep max a0 a1 (num / den) * a1.den + a0.den)) :
    Nearest max (combine num a1 den a0).value
      (combine (lastStep max a0 a1 (num / den)) a1 1 a0) := by
  have less := lastStep_lt fits0 tooGreat
  have last := lastStep_last tooGreat
  have fits : Fits max (combine (lastStep max a0 a1 (num / den)) a1 1 a0) := lastStep_fits fits0
  generalize lastStep max a0 a1 (num / den) = k at less last nearer fits ⊢
  have few : k * den ≤ num := (Nat.mul_le_mul_right den less.le).trans (Nat.div_mul_le_self num den)
  rw [combine_lastStep few] at positive ⊢
  refine (neighbours.symm.combine_left k).symm.nearest positive fits ?_ ?_
  · rwa [Neighbours.combine_comm, combine_combine]
  · obtain ⟨rest, rfl⟩ := Nat.exists_eq_add_of_le few
    rw [Nat.add_sub_cancel_left, combine_one]
    dsimp only
    have expand : (k * den + rest) * a1.den = den * (k * a1.den) + rest * a1.den := by ring
    have twice : den * (2 * k * a1.den + a0.den) =
      den * (k * a1.den) + den * (k * a1.den + a0.den) := by ring
    omega

theorem nearest_before (fits1 : Fits max a1) (nearer : ¬ num * a1.den <
    den * (2 * lastStep max a0 a1 (num / den) * a1.den + a0.den)) :
    Nearest max (combine num a1 den a0).value a1 := by
  have less := lastStep_lt fits0 tooGreat
  have last := lastStep_last tooGreat
  generalize lastStep max a0 a1 (num / den) = k at less last nearer
  have few : k * den ≤ num := (Nat.mul_le_mul_right den less.le).trans (Nat.div_mul_le_self num den)
  rw [combine_lastStep few, Neighbours.combine_comm] at positive ⊢
  refine (neighbours.symm.combine_left k).nearest positive fits1 ?_ ?_
  · rwa [combine_combine]
  · obtain ⟨rest, rfl⟩ := Nat.exists_eq_add_of_le few
    rw [Nat.add_sub_cancel_left, combine_one]
    dsimp only
    have expand : (k * den + rest) * a1.den = den * (k * a1.den) + rest * a1.den := by ring
    have twice : den * (2 * k * a1.den + a0.den) =
      den * (k * a1.den) + den * (k * a1.den + a0.den) := by ring
    omega

end LastStep

/-- What the loop finds is in lowest terms, and none within the bound is nearer. -/
theorem avReduceLoop_nearest {num den : ℕ} (neighbours : Neighbours a1 a0) (fits0 : Fits max a0)
    (fits1 : Fits max a1) (positive : 0 < (combine num a1 den a0).den) :
    Nearest max (combine num a1 den a0).value (avReduceLoop max a0 a1 num den) ∧
      Nat.Coprime (avReduceLoop max a0 a1 num den).num (avReduceLoop max a0 a1 num den).den := by
  induction a0, a1, num, den using avReduceLoop.induct max with
  | case1 a0 a1 num =>
      rw [avReduceLoop, dif_pos rfl]
      exact ⟨nearest_exact fits1 positive, neighbours.coprime⟩
  | case2 a0 a1 num den nonzero x a2 tooGreat k nearer =>
      have exceeds : ¬ Fits max (combine (num / den) a1 1 a0) :=
        fun fits => fits_combine_one_iff.mp fits tooGreat
      rw [avReduceLoop, dif_neg nonzero, if_pos tooGreat, if_pos nearer, ← combine_one]
      exact ⟨nearest_lastStep neighbours fits0 positive exceeds nearer,
        (neighbours.symm.combine_left _).coprime⟩
  | case3 a0 a1 num den nonzero x a2 tooGreat k nearer =>
      have exceeds : ¬ Fits max (combine (num / den) a1 1 a0) :=
        fun fits => fits_combine_one_iff.mp fits tooGreat
      rw [avReduceLoop, dif_neg nonzero, if_pos tooGreat, if_neg nearer]
      exact ⟨nearest_before neighbours fits0 positive exceeds fits1 nearer, neighbours.coprime⟩
  | case4 a0 a1 num den nonzero x nextDen a2 small ih =>
      have next : a2 = combine (num / den) a1 1 a0 := (combine_one _ _ _).symm
      rw [avReduceLoop, dif_neg nonzero, if_neg small]
      rw [combine_division, ← next] at positive ⊢
      refine ih ?_ fits1 (next ▸ fits_combine_one_iff.mpr small) positive
      rw [next]
      exact neighbours.symm.combine_left _

end Loop

theorem nearest_self {max num den : ℕ} (positive : 0 < den) (fits : num ≤ max ∧ den ≤ max) :
    Nearest max (num / den) ⟨num, den⟩ := by
  refine ⟨positive, fits, fun p pFits pPositive => ?_⟩
  rw [value, sub_self, abs_zero]
  exact abs_nonneg _

section Reduce

variable {num den : Int} {max : ℕ}

theorem avReduceAbs_nearest (nonzero : den ≠ 0) (positive : 0 < max) :
    Nearest max (num.natAbs / den.natAbs) (avReduceAbs num den max) ∧
      Nat.Coprime (avReduceAbs num den max).num (avReduceAbs num den max).den := by
  have gcdPositive : 0 < Int.gcd num den := Int.gcd_pos_of_ne_zero_right num nonzero
  have reducedPositive : 0 < den.natAbs / Int.gcd num den :=
    Nat.div_pos (Nat.le_of_dvd (Int.natAbs_pos.mpr nonzero) (Int.gcd_dvd_natAbs_right num den))
      gcdPositive
  have lowest : Nat.Coprime (num.natAbs / Int.gcd num den) (den.natAbs / Int.gcd num den) :=
    Nat.coprime_div_gcd_div_gcd gcdPositive
  have same : (num.natAbs : ℚ) / den.natAbs =
      ((num.natAbs / Int.gcd num den : ℕ) : ℚ) / (den.natAbs / Int.gcd num den : ℕ) := by
    have scale : ((Int.gcd num den : ℕ) : ℚ) ≠ 0 := by exact_mod_cast gcdPositive.ne'
    rw [Nat.cast_div (Int.gcd_dvd_natAbs_left num den) scale,
      Nat.cast_div (Int.gcd_dvd_natAbs_right num den) scale, div_div_div_cancel_right₀ scale]
  rw [same, avReduceAbs]
  split_ifs with fits
  · exact ⟨nearest_self reducedPositive fits, lowest⟩
  · have start : combine (num.natAbs / Int.gcd num den) ⟨1, 0⟩ (den.natAbs / Int.gcd num den) ⟨0, 1⟩ =
        ⟨num.natAbs / Int.gcd num den, den.natAbs / Int.gcd num den⟩ := by
      unfold combine
      congr 1 <;> ring
    have found := @avReduceLoop_nearest max ⟨0, 1⟩ ⟨1, 0⟩ (num.natAbs / Int.gcd num den)
      (den.natAbs / Int.gcd num den) (.inl rfl) ⟨Nat.zero_le _, positive⟩
      ⟨positive, Nat.zero_le _⟩ (by rw [start]; exact reducedPositive)
    rwa [start] at found

theorem div_eq_sign_mul (num den : Int) : (num : ℚ) / den =
    (if decide (num < 0) != decide (den < 0) then -1 else 1) * (num.natAbs / den.natAbs) := by
  rw [Nat.cast_natAbs, Nat.cast_natAbs, Int.cast_abs, Int.cast_abs]
  rcases lt_or_ge num 0 with first | first
  · have negative : (num : ℚ) < 0 := by exact_mod_cast first
    rcases lt_or_ge den 0 with second | second
    · have otherNegative : (den : ℚ) < 0 := by exact_mod_cast second
      rw [abs_of_neg negative, abs_of_neg otherNegative, decide_eq_true first,
        decide_eq_true second]
      simp
    · have otherNonneg : (0 : ℚ) ≤ den := by exact_mod_cast second
      rw [abs_of_neg negative, abs_of_nonneg otherNonneg, decide_eq_true first,
        decide_eq_false (not_lt.mpr second)]
      simp [neg_div]
  · have nonneg : (0 : ℚ) ≤ num := by exact_mod_cast first
    rcases lt_or_ge den 0 with second | second
    · have otherNegative : (den : ℚ) < 0 := by exact_mod_cast second
      rw [abs_of_nonneg nonneg, abs_of_neg otherNegative, decide_eq_false (not_lt.mpr first),
        decide_eq_true second]
      simp [div_neg]
    · have otherNonneg : (0 : ℚ) ≤ den := by exact_mod_cast second
      rw [abs_of_nonneg nonneg, abs_of_nonneg otherNonneg, decide_eq_false (not_lt.mpr first),
        decide_eq_false (not_lt.mpr second)]
      simp

/-- The fraction in lowest terms that is nearest to a quotient, within a bound on both parts. -/
structure AVRational.Reduces (quotient : ℚ) (max : ℕ) (r : AVRational) : Prop where
  positive : 0 < r.den
  num : |r.num| ≤ max
  den : r.den ≤ max
  lowest : Int.gcd r.num r.den = 1
  least : ∀ p q : Int, |p| ≤ max → 0 < q → q ≤ max →
    |quotient - r.num / r.den| ≤ |quotient - p / q|

theorem avReduce_reduces (nonzero : den ≠ 0) (positive : 0 < max) :
    (avReduce num den max).Reduces (num / den) max := by
  obtain ⟨nearest, lowest⟩ := @avReduceAbs_nearest num den max nonzero positive
  have numAbs : (avReduce num den max).num.natAbs = (avReduceAbs num den max).num := by
    unfold avReduce
    dsimp only
    split_ifs <;> simp
  have numSigned : ((avReduce num den max).num : ℚ) / (avReduce num den max).den =
      (if decide (num < 0) != decide (den < 0) then -1 else 1) *
        (avReduceAbs num den max).value := by
    unfold avReduce value
    dsimp only
    split_ifs <;> simp [neg_div]
  refine
    { positive := Int.natCast_pos.mpr nearest.positive
      num := ?_
      den := Int.ofNat_le.mpr nearest.fits.2
      lowest := ?_
      least := ?_ }
  · rw [Int.abs_eq_natAbs, numAbs]
    exact Int.ofNat_le.mpr nearest.fits.1
  · rw [Int.gcd, numAbs]
    exact lowest
  · intro p q small positiveDen smallDen
    have fits : Fits max ⟨p.natAbs, q.natAbs⟩ := by
      constructor
      · show p.natAbs ≤ max
        rw [Int.abs_eq_natAbs] at small
        omega
      · show q.natAbs ≤ max
        omega
    have sign : |(if decide (num < 0) != decide (den < 0) then -1 else 1 : ℚ)| = 1 := by
      split_ifs <;> simp
    have size (a b : Int) : |(a : ℚ) / b| = a.natAbs / b.natAbs := by
      rw [abs_div, Nat.cast_natAbs, Nat.cast_natAbs, Int.cast_abs, Int.cast_abs]
    calc |(num : ℚ) / den - (avReduce num den max).num / (avReduce num den max).den|
        = |(num.natAbs : ℚ) / den.natAbs - (avReduceAbs num den max).value| := by
          rw [numSigned, div_eq_sign_mul, ← mul_sub, abs_mul, sign, one_mul]
      _ ≤ |(num.natAbs : ℚ) / den.natAbs - p.natAbs / q.natAbs| :=
          nearest.least ⟨p.natAbs, q.natAbs⟩ fits (Int.natAbs_pos.mpr positiveDen.ne')
      _ = |(|(num : ℚ) / den| - |(p : ℚ) / q|)| := by rw [size, size]
      _ ≤ |(num : ℚ) / den - p / q| := abs_abs_sub_abs_le _ _

end Reduce

end Imflib.Encoder
