import Mathlib.Algebra.BigOperators.Group.List.Basic
import Mathlib.Algebra.Order.BigOperators.Group.List
import Mathlib.Algebra.Order.Ring.Int

/-! Items put side by side, and where each of them comes to lie. -/

namespace Imflib.Placement

universe u

variable {α : Type u} (size : α → Int)

/-- Each item with its start. The next one starts where it ends. -/
def place : Int → List α → List (Int × α)
  | _, [] => []
  | start, item :: rest => (start, item) :: place (start + size item) rest

def total (items : List α) : Int := (items.map size).sum

variable {size} {items : List α} {start : Int}

theorem map_place (start : Int) (items : List α) : (place size start items).map Prod.snd = items := by
  induction items generalizing start with
  | nil => rfl
  | cons item rest ih => exact congrArg (item :: ·) (ih _)

theorem total_nonneg (nonneg : ∀ item ∈ items, 0 ≤ size item) : 0 ≤ total size items := by
  apply List.sum_nonneg
  intro n member
  rcases List.mem_map.mp member with ⟨item, inside, rfl⟩
  exact nonneg item inside

theorem inside_of_mem (nonneg : ∀ item ∈ items, 0 ≤ size item) {placed : Int × α}
    (member : placed ∈ place size start items) :
    start ≤ placed.1 ∧ placed.1 + size placed.2 ≤ start + total size items := by
  induction items generalizing start with
  | nil => cases member
  | cons item rest ih =>
      have own := nonneg item List.mem_cons_self
      have others : ∀ item ∈ rest, 0 ≤ size item :=
        fun other inRest => nonneg other (List.mem_cons_of_mem item inRest)
      have room := total_nonneg others
      have split : total size (item :: rest) = size item + total size rest := List.sum_cons
      rw [split]
      rcases List.mem_cons.mp member with rfl | inRest
      · constructor
        · exact Int.le_refl start
        · show start + size item ≤ start + (size item + total size rest)
          omega
      · have bounds := ih others inRest
        omega

theorem separate (nonneg : ∀ item ∈ items, 0 ≤ size item) :
    (place size start items).Pairwise fun first second => first.1 + size first.2 ≤ second.1 := by
  induction items generalizing start with
  | nil => exact List.Pairwise.nil
  | cons item rest ih =>
      have others : ∀ item ∈ rest, 0 ≤ size item :=
        fun other inRest => nonneg other (List.mem_cons_of_mem item inRest)
      apply List.Pairwise.cons
      · intro later member
        exact (inside_of_mem others member).1
      · exact ih others

theorem separate_getElem {first second : Int × α} {i j : Nat}
    (nonneg : ∀ item ∈ items, 0 ≤ size item) (before : i < j)
    (found : (place size start items)[i]? = some first)
    (foundLater : (place size start items)[j]? = some second) :
    first.1 + size first.2 ≤ second.1 := by
  rcases List.getElem?_eq_some_iff.mp found with ⟨inside, rfl⟩
  rcases List.getElem?_eq_some_iff.mp foundLater with ⟨insideLater, rfl⟩
  exact List.pairwise_iff_getElem.mp (separate nonneg) i j inside insideLater before

theorem eq_of_inside {first second : Int × α} {i j : Nat} {point : Int}
    (nonneg : ∀ item ∈ items, 0 ≤ size item)
    (found : (place size start items)[i]? = some first)
    (foundOther : (place size start items)[j]? = some second)
    (inFirst : first.1 ≤ point ∧ point < first.1 + size first.2)
    (inSecond : second.1 ≤ point ∧ point < second.1 + size second.2) : i = j := by
  rcases Nat.lt_trichotomy i j with before | same | after
  · have apart := separate_getElem nonneg before found foundOther
    omega
  · exact same
  · have apart := separate_getElem nonneg after foundOther found
    omega

end Imflib.Placement
