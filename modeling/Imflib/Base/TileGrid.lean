import Mathlib.Algebra.Order.Floor.Div
import Mathlib.Data.Finset.Prod
import Mathlib.Tactic.Common

/-! Tiles of one size that cover an image, laid from the origin on. -/

namespace Imflib

def tileGrid (dx dy width height : Nat) : Finset (Nat × Nat) :=
  (Finset.range width ×ˢ Finset.range height).filter fun tile =>
    tile.1 * dx < width ∧ tile.2 * dy < height

variable {dx dy : Nat}

theorem lt_ceilDiv_iff (positive : 0 < dx) (length column : Nat) :
    column < length ⌈/⌉ dx ↔ column * dx < length := by
  rw [← not_le, ceilDiv_le_iff_le_mul positive, not_le, Nat.mul_comm]

theorem tileGrid_eq (wide : 0 < dx) (high : 0 < dy) (width height : Nat) :
    tileGrid dx dy width height =
      Finset.range (width ⌈/⌉ dx) ×ˢ Finset.range (height ⌈/⌉ dy) := by
  ext ⟨column, row⟩
  simp only [tileGrid, Finset.mem_filter, Finset.mem_product, Finset.mem_range,
    lt_ceilDiv_iff wide, lt_ceilDiv_iff high]
  constructor
  · exact fun inside => inside.2
  · intro inside
    exact ⟨⟨(Nat.le_mul_of_pos_right column wide).trans_lt inside.1,
      (Nat.le_mul_of_pos_right row high).trans_lt inside.2⟩, inside⟩

theorem exists_tile (wide : 0 < dx) (high : 0 < dy) {width height x y : Nat} (column : x < width)
    (row : y < height) : (x / dx, y / dy) ∈ tileGrid dx dy width height := by
  rw [tileGrid_eq wide high, Finset.mem_product, Finset.mem_range, Finset.mem_range,
    lt_ceilDiv_iff wide, lt_ceilDiv_iff high]
  exact ⟨(Nat.div_mul_le_self x dx).trans_lt column, (Nat.div_mul_le_self y dy).trans_lt row⟩

theorem card_tileGrid (wide : 0 < dx) (high : 0 < dy) (width height : Nat) :
    (tileGrid dx dy width height).card = (width ⌈/⌉ dx) * (height ⌈/⌉ dy) := by
  rw [tileGrid_eq wide high, Finset.card_product, Finset.card_range, Finset.card_range]

/-- Half of the width, rounded down, covers the width twice if it is even. Else a third column is
left over. -/
theorem ceilDiv_half {length : Nat} (positive : 0 < length / 2) :
    length ⌈/⌉ (length / 2) = if Even length then 2 else 3 := by
  have least : 2 ≤ length ⌈/⌉ (length / 2) := by
    rw [Nat.succ_le_iff, lt_ceilDiv_iff positive]
    omega
  have even_iff : Even length ↔ length ⌈/⌉ (length / 2) ≤ 2 := by
    rw [ceilDiv_le_iff_le_mul positive, Nat.even_iff]
    omega
  have most : length ⌈/⌉ (length / 2) ≤ 3 := by
    rw [ceilDiv_le_iff_le_mul positive]
    omega
  split
  · rename_i even
    exact le_antisymm (even_iff.mp even) least
  · rename_i odd
    exact le_antisymm most (Nat.lt_of_not_le fun small => odd (even_iff.mpr small))

theorem card_halves {width height : Nat} (wide : 0 < width / 2) (high : 0 < height / 2) :
    (tileGrid (width / 2) (height / 2) width height).card = 4 ↔ Even width ∧ Even height := by
  rw [card_tileGrid wide high, ceilDiv_half wide, ceilDiv_half high]
  split <;> split <;> simp_all

end Imflib
