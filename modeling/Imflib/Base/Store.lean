import Mathlib.Logic.Function.Basic
import Mathlib.Tactic.Common

/-! A store of mutable objects. An address stands for the shared pointer to an object,
so two places that hold the same address see each other's updates. -/

namespace Imflib

universe u

/-- Objects allocated so far. Addresses from `size` on are not in use yet. -/
structure Store (α : Type u) where
  size : Nat
  cell : Nat → α

namespace Store

variable {α : Type u}

def empty [Inhabited α] : Store α := ⟨0, fun _ => default⟩

instance [Inhabited α] : Inhabited (Store α) := ⟨empty⟩

def alloc (store : Store α) (object : α) : Store α :=
  ⟨store.size + 1, Function.update store.cell store.size object⟩

def modify (store : Store α) (address : Nat) (change : α → α) : Store α :=
  ⟨store.size, Function.update store.cell address (change (store.cell address))⟩

@[simp] theorem size_empty [Inhabited α] : (empty : Store α).size = 0 := rfl

@[simp] theorem size_alloc (store : Store α) (object : α) :
    (store.alloc object).size = store.size + 1 := rfl

@[simp] theorem size_modify (store : Store α) (address : Nat) (change : α → α) :
    (store.modify address change).size = store.size := rfl

@[simp] theorem cell_alloc_size (store : Store α) (object : α) :
    (store.alloc object).cell store.size = object := by
  simp [alloc]

theorem cell_alloc_of_ne (store : Store α) (object : α) {address : Nat}
    (other : address ≠ store.size) : (store.alloc object).cell address = store.cell address := by
  simp [alloc, other]

theorem cell_alloc_of_lt (store : Store α) (object : α) {address : Nat}
    (used : address < store.size) : (store.alloc object).cell address = store.cell address :=
  store.cell_alloc_of_ne object (Nat.ne_of_lt used)

@[simp] theorem cell_modify_self (store : Store α) (address : Nat) (change : α → α) :
    (store.modify address change).cell address = change (store.cell address) := by
  simp [modify]

theorem cell_modify_of_ne (store : Store α) (change : α → α) {address other : Nat}
    (different : other ≠ address) : (store.modify address change).cell other = store.cell other := by
  simp [modify, different]

@[simp] theorem modify_alloc_size (store : Store α) (object : α) (change : α → α) :
    (store.alloc object).modify store.size change = store.alloc (change object) := by
  simp [modify, alloc]

theorem modify_eq_self (store : Store α) (address : Nat) (change : α → α)
    (same : change (store.cell address) = store.cell address) : store.modify address change = store := by
  simp [modify, same]

theorem modify_modify (store : Store α) (address : Nat) (first second : α → α) :
    (store.modify address first).modify address second =
      store.modify address fun object => second (first object) := by
  simp [modify]

theorem cell_modify_congr {β : Type*} (view : α → β) (store : Store α) (address other : Nat)
    (change : α → α) (kept : view (change (store.cell address)) = view (store.cell address)) :
    view ((store.modify address change).cell other) = view (store.cell other) := by
  by_cases same : other = address
  · subst same
    simpa using kept
  · rw [store.cell_modify_of_ne change same]

end Store

end Imflib
