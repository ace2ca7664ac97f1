import Mathlib.Algebra.Order.Round
import Mathlib.Data.Int.Log
import Mathlib.Data.Rat.Floor
import Mathlib.Tactic.FieldSimp
import Mathlib.Tactic.Linarith
import Mathlib.Tactic.NormNum
import Mathlib.Tactic.Positivity
import Mathlib.Tactic.Ring

/-! Binary floating-point numbers as the rationals they stand for. The range of exponents is
unbounded, so this is exact arithmetic rounded to a precision wherever nothing overflows and
nothing underflows. -/

namespace Imflib.BinaryFloat

def roundEven (x : ℚ) : ℤ :=
  if Int.fract x < 1 / 2 then ⌊x⌋
  else if 1 / 2 < Int.fract x then ⌊x⌋ + 1
  else if Even ⌊x⌋ then ⌊x⌋ else ⌊x⌋ + 1

def roundAway (x : ℚ) : ℤ := if 0 ≤ x then ⌊x + 1 / 2⌋ else ⌈x - 1 / 2⌉

/-- The distance between two numbers of a precision next to `x`. -/
def spacing (precision : ℕ) (x : ℚ) : ℚ := 2 ^ (Int.log 2 |x| + 1 - precision)

def toNearest (precision : ℕ) (x : ℚ) : ℚ :=
  roundEven (x / spacing precision x) * spacing precision x

theorem abs_roundEven_sub_le (x : ℚ) : |roundEven x - x| ≤ 1 / 2 := by
  have split := Int.floor_add_fract x
  have nonneg := Int.fract_nonneg x
  have below := Int.fract_lt_one x
  have down (close : Int.fract x ≤ 1 / 2) : |(⌊x⌋ : ℚ) - x| ≤ 1 / 2 := by
    rw [abs_le]
    constructor <;> linarith
  have up (close : 1 / 2 ≤ Int.fract x) : |((⌊x⌋ + 1 : ℤ) : ℚ) - x| ≤ 1 / 2 := by
    push_cast
    rw [abs_le]
    constructor <;> linarith
  unfold roundEven
  split_ifs with low high
  · exact down low.le
  · exact up high.le
  · exact down (not_lt.mp high)
  · exact up (not_lt.mp low)

theorem spacing_pos (precision : ℕ) (x : ℚ) : 0 < spacing precision x :=
  zpow_pos two_pos _

theorem spacing_le {x : ℚ} (nonzero : x ≠ 0) (precision : ℕ) :
    spacing precision x ≤ 2 ^ (1 - precision : ℤ) * |x| := by
  have power := Int.zpow_log_le_self (b := 2) (r := |x|) one_lt_two (abs_pos.mpr nonzero)
  calc spacing precision x
      = 2 ^ (1 - precision : ℤ) * 2 ^ Int.log 2 |x| := by
        rw [spacing, ← zpow_add₀ two_ne_zero]
        congr 1
        ring
    _ ≤ 2 ^ (1 - precision : ℤ) * |x| :=
        mul_le_mul_of_nonneg_left (by exact_mod_cast power) (zpow_pos two_pos _).le

theorem roundEven_intCast (n : ℤ) : roundEven n = n := by
  rw [roundEven, Int.fract_intCast, if_pos (by norm_num), Int.floor_intCast]

theorem toNearest_of_grid {precision : ℕ} {exponent n : ℤ}
    (small : |(n : ℚ) * 2 ^ exponent| < 2 ^ (precision + exponent)) :
    toNearest precision (n * 2 ^ exponent) = n * 2 ^ exponent := by
  by_cases zero : n = 0
  · subst zero
    simp [toNearest, roundEven]
  · have positive : 0 < |(n : ℚ) * 2 ^ exponent| :=
      abs_pos.mpr (mul_ne_zero (by exact_mod_cast zero) (zpow_pos two_pos _).ne')
    have below : Int.log 2 |(n : ℚ) * 2 ^ exponent| < precision + exponent :=
      (Int.lt_zpow_iff_log_lt one_lt_two positive).mp small
    obtain ⟨more, whole⟩ : ∃ more : ℕ, exponent =
        Int.log 2 |(n : ℚ) * 2 ^ exponent| + 1 - precision + more :=
      ⟨(exponent - (Int.log 2 |(n : ℚ) * 2 ^ exponent| + 1 - precision)).toNat, by omega⟩
    have grid : (n : ℚ) * 2 ^ exponent =
        ((n * 2 ^ more : ℤ) : ℚ) * spacing precision (n * 2 ^ exponent) := by
      rw [spacing]
      push_cast
      rw [mul_assoc, ← zpow_natCast, ← zpow_add₀ two_ne_zero, add_comm (more : ℤ), ← whole]
    have spaced := (spacing_pos precision ((n : ℚ) * 2 ^ exponent)).ne'
    have quotient : (n : ℚ) * 2 ^ exponent / spacing precision (n * 2 ^ exponent) =
        ((n * 2 ^ more : ℤ) : ℚ) := by
      rw [div_eq_iff spaced]
      exact grid
    rw [toNearest, quotient, roundEven_intCast]
    exact grid.symm
/-- Rounding to a precision is off by half of the last digit at most. -/
theorem abs_toNearest_sub_le (precision : ℕ) (x : ℚ) :
    |toNearest precision x - x| ≤ 2 ^ (-precision : ℤ) * |x| := by
  by_cases zero : x = 0
  · subst zero
    simp [toNearest, roundEven]
  · have positive := spacing_pos precision x
    have whole : x / spacing precision x * spacing precision x = x :=
      div_mul_cancel₀ x positive.ne'
    calc |toNearest precision x - x|
        = |roundEven (x / spacing precision x) - x / spacing precision x| *
            spacing precision x := by
          rw [← abs_of_pos positive, ← abs_mul, abs_of_pos positive, sub_mul, whole]
          rfl
      _ ≤ 1 / 2 * spacing precision x :=
          mul_le_mul_of_nonneg_right (abs_roundEven_sub_le _) positive.le
      _ ≤ 1 / 2 * (2 ^ (1 - precision : ℤ) * |x|) :=
          mul_le_mul_of_nonneg_left (spacing_le zero precision) (by norm_num)
      _ = 2 ^ (-precision : ℤ) * |x| := by
          rw [sub_eq_add_neg, zpow_add₀ two_ne_zero]
          ring

section Relative

/-- A computed number is the exact one up to a factor close to one. -/
def Relative (error exact computed : ℚ) : Prop :=
  ∃ factor, |factor - 1| ≤ error ∧ computed = exact * factor

variable {error other exact computed : ℚ}

theorem relative_toNearest (precision : ℕ) (x : ℚ) :
    Relative (2 ^ (-precision : ℤ)) x (toNearest precision x) := by
  by_cases zero : x = 0
  · refine ⟨1, ?_, ?_⟩
    · rw [sub_self, abs_zero]
      exact (zpow_pos two_pos _).le
    · rw [zero]
      simp [toNearest, roundEven]
  · refine ⟨toNearest precision x / x, ?_, (mul_div_cancel₀ _ zero).symm⟩
    have same : toNearest precision x / x - 1 = (toNearest precision x - x) / x := by
      rw [sub_div, div_self zero]
    rw [same, abs_div, div_le_iff₀ (abs_pos.mpr zero)]
    exact abs_toNearest_sub_le precision x

namespace Relative

theorem refl (x : ℚ) : Relative 0 x x :=
  ⟨1, by rw [sub_self, abs_zero], (mul_one x).symm⟩

theorem mono (close : Relative error exact computed) (larger : error ≤ other) :
    Relative other exact computed := by
  obtain ⟨factor, small, same⟩ := close
  exact ⟨factor, small.trans larger, same⟩

theorem abs_sub_le (close : Relative error exact computed) :
    |computed - exact| ≤ error * |exact| := by
  obtain ⟨factor, small, rfl⟩ := close
  calc |exact * factor - exact|
      = |factor - 1| * |exact| := by
        rw [← abs_mul]
        congr 1
        ring
    _ ≤ error * |exact| := mul_le_mul_of_nonneg_right small (abs_nonneg _)

theorem ne_zero (close : Relative error exact computed) (small : error < 1)
    (nonzero : exact ≠ 0) : computed ≠ 0 := by
  obtain ⟨factor, near, rfl⟩ := close
  refine mul_ne_zero nonzero fun zero => ?_
  rw [zero, zero_sub, abs_neg, abs_one] at near
  exact absurd near (not_le.mpr small)

private theorem abs_mul_sub_one_le {first second : ℚ} (near : |first - 1| ≤ error)
    (close : |second - 1| ≤ other) : |first * second - 1| ≤ error + other + error * other := by
  have parts : first * second - 1 = (first - 1) + (second - 1) + (first - 1) * (second - 1) := by
    ring
  have product : |(first - 1) * (second - 1)| ≤ error * other := by
    rw [abs_mul]
    exact mul_le_mul near close (abs_nonneg _) ((abs_nonneg _).trans near)
  calc |first * second - 1|
      = |(first - 1) + (second - 1) + (first - 1) * (second - 1)| := by rw [parts]
    _ ≤ |(first - 1) + (second - 1)| + |(first - 1) * (second - 1)| := abs_add_le _ _
    _ ≤ |first - 1| + |second - 1| + |(first - 1) * (second - 1)| :=
        add_le_add (abs_add_le _ _) le_rfl
    _ ≤ error + other + error * other := add_le_add (add_le_add near close) product

theorem mul {exact' computed' : ℚ} (close : Relative error exact computed)
    (close' : Relative other exact' computed') :
    Relative (error + other + error * other) (exact * exact') (computed * computed') := by
  obtain ⟨first, near, rfl⟩ := close
  obtain ⟨second, near', rfl⟩ := close'
  exact ⟨first * second, abs_mul_sub_one_le near near', by ring⟩

/-- A computed number is rounded in turn. -/
theorem trans {rounded : ℚ} (close : Relative error exact computed)
    (close' : Relative other computed rounded) :
    Relative (error + other + error * other) exact rounded := by
  obtain ⟨first, near, rfl⟩ := close
  obtain ⟨second, near', rfl⟩ := close'
  exact ⟨first * second, abs_mul_sub_one_le near near', by ring⟩

theorem inv (close : Relative error exact computed) (small : error ≤ 1 / 2) :
    Relative (2 * error) exact⁻¹ computed⁻¹ := by
  obtain ⟨factor, near, rfl⟩ := close
  have half : 1 / 2 ≤ factor := by
    have bounds := abs_le.mp (near.trans small)
    linarith [bounds.1]
  have positive : 0 < factor := by linarith
  refine ⟨factor⁻¹, ?_, mul_inv _ _⟩
  have same : factor⁻¹ - 1 = -((factor - 1) / factor) := by
    field_simp
    ring
  rw [same, abs_neg, abs_div, abs_of_pos positive, div_le_iff₀ positive]
  have grows : error * 1 ≤ error * (2 * factor) :=
    mul_le_mul_of_nonneg_left (by linarith) ((abs_nonneg _).trans near)
  calc |factor - 1| ≤ error * 1 := by rwa [mul_one]
    _ ≤ error * (2 * factor) := grows
    _ = 2 * error * factor := by ring

end Relative

end Relative

section Nearest

theorem lt_roundAway_iff (n : ℕ) (x : ℚ) : (n : ℤ) < roundAway x ↔ n + 1 / 2 ≤ x := by
  have nonneg : (0 : ℚ) ≤ n := Nat.cast_nonneg n
  unfold roundAway
  split_ifs with sign
  · rw [← Int.add_one_le_iff, Int.le_floor]
    push_cast
    constructor <;> intro bound <;> linarith
  · rw [Int.lt_ceil]
    push_cast
    constructor <;> intro bound <;> linarith

theorem roundAway_lt_neg_iff (n : ℕ) (x : ℚ) :
    roundAway x < -(n : ℤ) ↔ x ≤ -(n + 1 / 2) := by
  have nonneg : (0 : ℚ) ≤ n := Nat.cast_nonneg n
  unfold roundAway
  split_ifs with sign
  · rw [Int.floor_lt]
    push_cast
    constructor <;> intro bound <;> linarith
  · rw [← Int.le_sub_one_iff, Int.ceil_le]
    push_cast
    constructor <;> intro bound <;> linarith

/-- No half-integer lies between two numbers, or at the one it rounds away from zero. -/
def SameSide (x y : ℚ) : Prop :=
  ∀ n : ℕ, ((n + 1 / 2 : ℚ) ≤ x ↔ (n + 1 / 2 : ℚ) ≤ y) ∧
    (x ≤ -(n + 1 / 2 : ℚ) ↔ y ≤ -(n + 1 / 2 : ℚ))

theorem roundAway_eq_iff {x y : ℚ} : roundAway x = roundAway y ↔ SameSide x y := by
  constructor
  · intro same n
    rw [← lt_roundAway_iff, ← lt_roundAway_iff, ← roundAway_lt_neg_iff, ← roundAway_lt_neg_iff,
      same]
    exact ⟨Iff.rfl, Iff.rfl⟩
  · intro sides
    have compare (n : ℕ) : ((n : ℤ) < roundAway x ↔ (n : ℤ) < roundAway y) ∧
        (roundAway x < -(n : ℤ) ↔ roundAway y < -(n : ℤ)) := by
      rw [lt_roundAway_iff, lt_roundAway_iff, roundAway_lt_neg_iff, roundAway_lt_neg_iff]
      exact sides n
    have sign := compare 0
    have first := compare (roundAway x).natAbs
    have second := compare (roundAway y).natAbs
    omega

/-- An error smaller than the distance to every half-integer leads across none of them. -/
theorem sameSide_of_apart {x y : ℚ} (apart : ∀ n : ℤ, |y - x| < |x - (n + 1 / 2)|) :
    SameSide x y := by
  have sides (n : ℤ) : ((n + 1 / 2 : ℚ) ≤ x ↔ (n + 1 / 2 : ℚ) ≤ y) ∧
      (x ≤ (n + 1 / 2 : ℚ) ↔ y ≤ (n + 1 / 2 : ℚ)) := by
    have near := abs_lt.mp (apart n)
    rcases le_or_gt (n + 1 / 2 : ℚ) x with above | below
    · rw [abs_of_nonneg (by linarith)] at near
      exact ⟨⟨fun _ => by linarith, fun _ => above⟩,
        ⟨fun same => by linarith, fun _ => by linarith⟩⟩
    · rw [abs_of_neg (by linarith)] at near
      exact ⟨⟨fun _ => by linarith, fun _ => by linarith⟩,
        ⟨fun _ => by linarith, fun _ => below.le⟩⟩
  intro n
  have mirrored : ((-(n + 1) : ℤ) + 1 / 2 : ℚ) = -(n + 1 / 2 : ℚ) := by push_cast; ring
  exact ⟨(sides n).1, mirrored ▸ (sides (-(n + 1))).2⟩

theorem roundAway_mono {x y : ℚ} (ordered : x ≤ y) : roundAway x ≤ roundAway y := by
  by_contra reversed
  by_cases positive : 0 < roundAway x
  · have past : ((roundAway y).toNat : ℤ) < roundAway x := by omega
    have reached := ((lt_roundAway_iff _ x).mp past).trans ordered
    have beyond := (lt_roundAway_iff _ y).mpr reached
    omega
  · have past : roundAway y < -((-roundAway x).toNat : ℤ) := by omega
    have reached := ordered.trans ((roundAway_lt_neg_iff _ y).mp past)
    have beyond := (roundAway_lt_neg_iff _ x).mpr reached
    omega

theorem roundAway_add {n : ℤ} {x : ℚ} (whole : 0 ≤ n) (nonneg : 0 ≤ x) :
    roundAway (n + x) = n + roundAway x := by
  have sum : (0 : ℚ) ≤ n + x := add_nonneg (by exact_mod_cast whole) nonneg
  rw [roundAway, roundAway, if_pos sum, if_pos nonneg, add_assoc, Int.floor_intCast_add]

theorem roundAway_of_close {x : ℚ} {n : ℤ} (close : |x - n| < 1 / 2) : roundAway x = n := by
  obtain ⟨low, high⟩ := abs_lt.mp close
  unfold roundAway
  split_ifs with sign
  · rw [Int.floor_eq_iff]
    constructor <;> linarith
  · rw [Int.ceil_eq_iff]
    constructor <;> linarith

end Nearest

end Imflib.BinaryFloat
