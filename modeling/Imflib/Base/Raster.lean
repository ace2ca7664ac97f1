import Mathlib.Data.List.Range
import Mathlib.Tactic.Common

/-! Loops over a raster, and buffers that are filled in the order of one running index. -/

namespace Imflib

universe u v

variable {σ : Type u} {α : Type v}

/-- `for (k = 0; k < count; ++k)`, with a body that may fail. -/
def forRange (count : Nat) (body : Nat → σ → Option σ) (state : σ) : Option σ :=
  (List.range count).foldlM (fun state k => body k state) state

theorem forRange_succ (count : Nat) (body : Nat → σ → Option σ) (state : σ) :
    forRange (count + 1) body state = (forRange count body state).bind (body count) := by
  simp [forRange, List.range_succ, List.foldlM_append]

theorem forRange_eq {count : Nat} {body : Nat → σ → Option σ} (states : Nat → σ)
    (step : ∀ k < count, body k (states k) = some (states (k + 1))) :
    forRange count body (states 0) = some (states count) := by
  induction count with
  | zero => rfl
  | succ count ih =>
      have before : forRange count body (states 0) = some (states count) :=
        ih fun k bound => step k (Nat.lt_succ_of_lt bound)
      rw [forRange_succ, before, Option.bind_some]
      exact step count (Nat.lt_succ_self count)

/-- Two nested loops and an index that runs on from row to row. -/
theorem forRows_eq {height width : Nat} {body : Nat → Nat → σ → Option σ} (states : Nat → σ)
    (step : ∀ y < height, ∀ x < width,
      body y x (states (y * width + x)) = some (states (y * width + x + 1))) :
    forRange height (fun y => forRange width (body y)) (states 0) =
      some (states (height * width)) := by
  have rows := @forRange_eq σ height (fun y => forRange width (body y))
    (fun y => states (y * width))
  rw [Nat.zero_mul] at rows
  apply rows
  intro y bound
  have row := @forRange_eq σ width (body y) (fun x => states (y * width + x))
    fun x inside => step y bound x inside
  rw [Nat.add_zero] at row
  rw [row, Nat.succ_mul]

theorem index_lt {height width y x : Nat} (row : y < height) (column : x < width) :
    y * width + x < height * width := by
  calc y * width + x < y * width + width := Nat.add_lt_add_left column _
    _ = (y + 1) * width := (Nat.succ_mul y width).symm
    _ ≤ height * width := Nat.mul_le_mul_right width row

/-- `buffer[index] = value`. Nothing can be stored behind the end. -/
def storeAt (buffer : List α) (index : Nat) (value : α) : Option (List α) :=
  if index < buffer.length then some (buffer.set index value) else none

def filled (source : Nat → α) (blank : α) (size index : Nat) : List α :=
  (List.range size).map fun k => if k < index then source k else blank

variable (source : Nat → α) (blank : α) {size : Nat}

@[simp] theorem length_filled (index : Nat) : (filled source blank size index).length = size := by
  simp [filled]

theorem filled_zero : filled source blank size 0 = List.replicate size blank := by
  simp [filled, List.map_const']

theorem getElem?_filled {index k : Nat} (bound : k < size) :
    (filled source blank size index)[k]? = some (if k < index then source k else blank) := by
  simp [filled, bound]

theorem storeAt_filled {index : Nat} (bound : index < size) :
    storeAt (filled source blank size index) index (source index) =
      some (filled source blank size (index + 1)) := by
  rw [storeAt, if_pos (by simpa using bound)]
  congr 1
  apply List.ext_getElem?
  intro k
  by_cases inside : k < size
  · rw [getElem?_filled source blank inside, List.getElem?_set]
    by_cases here : index = k
    · simp [here, inside]
    · have same : k < index + 1 ↔ k < index := by omega
      rw [if_neg here, getElem?_filled source blank inside, if_congr same rfl rfl]
  · simp [filled, inside]

theorem forRange_copy (list : List α) {count : Nat} (bound : count ≤ list.length) :
    forRange count (fun k copy => list[k]?.map fun item => copy ++ [item]) [] =
      some (list.take count) := by
  have copied := @forRange_eq (List α) count
    (fun k copy => list[k]?.map fun item => copy ++ [item]) fun k => list.take k
  rw [List.take_zero] at copied
  apply copied
  intro k inside
  have present : k < list.length := by omega
  rw [List.getElem?_eq_getElem present, Option.map_some, List.take_append_getElem]

end Imflib
