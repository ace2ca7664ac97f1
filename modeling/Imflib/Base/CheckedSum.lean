import Mathlib.Algebra.Order.BigOperators.Group.List
import Mathlib.Tactic.Common

/-! Sums whose running totals have to fit into a machine integer, and maxima. -/

namespace Imflib

universe u v

section Sum

variable {α : Type u} {M : Type v} (fits : M → Prop) [DecidablePred fits]

def checked (n : M) : Option M := if fits n then some n else none

theorem checked_eq_some_iff {n result : M} : checked fits n = some result ↔ fits n ∧ n = result := by
  unfold checked
  split_ifs with fit
  · rw [Option.some.injEq, and_iff_right fit]
  · exact iff_of_false nofun fun both => fit both.1

theorem checked_eq_none_iff {n : M} : checked fits n = none ↔ ¬fits n := by
  rw [checked, ite_eq_right_iff]
  exact ⟨fun never fit => Option.some_ne_none n (never fit), fun large fit => absurd fit large⟩

variable [AddMonoid M]

def addUp (amount : α → Option M) : M → List α → Option M
  | total, [] => some total
  | total, item :: rest => do
      let n ← amount item
      let next ← checked fits (total + n)
      addUp amount next rest

def TotalsFit : M → List M → Prop
  | _, [] => True
  | total, n :: rest => fits (total + n) ∧ TotalsFit (total + n) rest

instance decidableTotalsFit : (total : M) → (amounts : List M) → Decidable (TotalsFit fits total amounts)
  | _, [] => isTrue trivial
  | total, n :: rest =>
      have := decidableTotalsFit (total + n) rest
      inferInstanceAs (Decidable (fits (total + n) ∧ TotalsFit fits (total + n) rest))

variable {fits} {amount : α → Option M} {items : List α} {total result : M}

theorem addUp_cons {item : α} : addUp fits amount total (item :: items) = some result ↔
    ∃ n, amount item = some n ∧ fits (total + n) ∧
      addUp fits amount (total + n) items = some result := by
  simp only [addUp, Option.bind_eq_bind, Option.bind_eq_some_iff, checked_eq_some_iff]
  constructor
  · intro added
    obtain ⟨n, first, next, ⟨fit, rfl⟩, others⟩ := added
    exact ⟨n, first, fit, others⟩
  · intro added
    obtain ⟨n, first, fit, others⟩ := added
    exact ⟨n, first, total + n, ⟨fit, rfl⟩, others⟩

theorem some_of_addUp (added : addUp fits amount total items = some result) :
    ∀ item ∈ items, ∃ n, amount item = some n := by
  induction items generalizing total with
  | nil => exact fun item member => absurd member List.not_mem_nil
  | cons head rest ih =>
      obtain ⟨n, first, -, others⟩ := addUp_cons.mp added
      intro item member
      rcases List.mem_cons.mp member with rfl | inRest
      · exact ⟨n, first⟩
      · exact ih others item inRest

theorem addUp_eq_some_iff {value : α → M} (known : ∀ item ∈ items, amount item = some (value item)) :
    addUp fits amount total items = some result ↔
      TotalsFit fits total (items.map value) ∧ result = total + (items.map value).sum := by
  induction items generalizing total with
  | nil =>
      rw [addUp, Option.some.injEq, List.map_nil, List.sum_nil, add_zero]
      exact ⟨fun same => ⟨trivial, same.symm⟩, fun both => both.2.symm⟩
  | cons item rest ih =>
      have others : ∀ other ∈ rest, amount other = some (value other) :=
        fun other member => known other (List.mem_cons_of_mem _ member)
      rw [addUp_cons, known item List.mem_cons_self, List.map_cons, List.sum_cons, ← add_assoc]
      simp only [Option.some.injEq, exists_eq_left', ih others, TotalsFit, and_assoc]

theorem sum_of_addUp (added : addUp fits amount total items = some result) (default : M) :
    result = total + (items.map fun item => (amount item).getD default).sum := by
  have known : ∀ item ∈ items, amount item = some ((amount item).getD default) := by
    intro item member
    rcases some_of_addUp added item member with ⟨n, same⟩
    rw [same, Option.getD_some]
  exact ((addUp_eq_some_iff known).mp added).2

end Sum

section Longest

variable {α : Type u} {M : Type v} [LinearOrder M]

def longest (amount : α → Option M) : M → List α → Option M
  | greatest, [] => some greatest
  | greatest, item :: rest => do
      let n ← amount item
      longest amount (if greatest < n then n else greatest) rest

variable {amount : α → Option M} {items : List α} {greatest result : M}

theorem longest_cons {item : α} : longest amount greatest (item :: items) = some result ↔
    ∃ n, amount item = some n ∧ longest amount (max greatest n) items = some result := by
  simp only [longest, Option.bind_eq_bind, Option.bind_eq_some_iff, max_def_lt]

theorem longest_eq {value : α → M} (known : ∀ item ∈ items, amount item = some (value item)) :
    longest amount greatest items = some ((items.map value).foldl max greatest) := by
  induction items generalizing greatest with
  | nil => rfl
  | cons item rest ih =>
      have others : ∀ other ∈ rest, amount other = some (value other) :=
        fun other member => known other (List.mem_cons_of_mem _ member)
      exact longest_cons.mpr ⟨value item, known item List.mem_cons_self, ih others⟩

theorem le_longest (found : longest amount greatest items = some result) :
    greatest ≤ result ∧ ∀ item ∈ items, ∃ n, amount item = some n ∧ n ≤ result := by
  induction items generalizing greatest with
  | nil =>
      exact ⟨le_of_eq (Option.some.inj found), fun item member => absurd member List.not_mem_nil⟩
  | cons head rest ih =>
      rcases longest_cons.mp found with ⟨n, first, others⟩
      obtain ⟨bound, below⟩ := ih others
      refine ⟨(le_max_left greatest n).trans bound, ?_⟩
      intro item member
      rcases List.mem_cons.mp member with rfl | inRest
      · exact ⟨n, first, (le_max_right greatest n).trans bound⟩
      · exact below item inRest

theorem le_getD_max {amounts : List M} {n : M} (member : n ∈ amounts) (default : M) :
    n ≤ amounts.max?.getD default := by
  cases found : amounts.max? with
  | none =>
      rw [List.max?_eq_none_iff] at found
      exact absurd member (found ▸ List.not_mem_nil)
  | some greatest => exact (List.max?_eq_some_iff.mp found).2 n member

theorem foldl_max_eq_iff {amounts : List M} {start : M} :
    amounts.foldl max start = amounts.max?.getD start ↔
      (amounts ≠ [] → ∃ n ∈ amounts, start ≤ n) := by
  rw [List.foldl_max]
  cases found : amounts.max? with
  | none =>
      rw [List.max?_eq_none_iff] at found
      simp [found]
  | some greatest =>
      obtain ⟨member, bound⟩ := List.max?_eq_some_iff.mp found
      rw [Option.getD_some, max_eq_right_iff]
      constructor
      · exact fun least _ => ⟨greatest, member, least⟩
      · intro reached
        obtain ⟨n, inside, least⟩ := reached (List.ne_nil_of_mem member)
        exact least.trans (bound n inside)

end Longest

theorem eq_of_sum_eq {α : Type u} {M : Type v} [AddCommMonoid M] [PartialOrder M]
    [IsOrderedCancelAddMonoid M] {items : List α} {small large : α → M}
    (ordered : ∀ item ∈ items, small item ≤ large item)
    (same : (items.map small).sum = (items.map large).sum) :
    ∀ item ∈ items, small item = large item := by
  induction items with
  | nil => exact fun item member => absurd member List.not_mem_nil
  | cons head rest ih =>
      have below : ∀ item ∈ rest, small item ≤ large item :=
        fun item member => ordered item (List.mem_cons_of_mem _ member)
      rw [List.map_cons, List.map_cons, List.sum_cons, List.sum_cons] at same
      obtain ⟨atHead, others⟩ := (add_eq_add_iff_eq_and_eq (ordered head List.mem_cons_self)
        (List.sum_le_sum below)).mp same
      intro item member
      rcases List.mem_cons.mp member with rfl | inRest
      · exact atHead
      · exact ih below others item inRest

end Imflib
