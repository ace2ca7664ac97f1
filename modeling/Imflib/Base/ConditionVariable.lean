import Mathlib.Algebra.BigOperators.Group.Finset.Piecewise
import Mathlib.Data.Fintype.Card

/-! Threads that wait on a condition variable until something is available, and are notified
one at a time. -/

namespace Imflib.ConditionVariable

universe u v

variable {ι : Type u} [Fintype ι] [DecidableEq ι]

theorem sum_update_add {β : Type v} (weight : β → Nat) (place : ι → β) (i : ι) (moved : β) :
    ∑ j, weight (Function.update place i moved j) + weight (place i) =
      ∑ j, weight (place j) + weight moved := by
  have others : ∑ j ∈ Finset.univ.erase i, weight (Function.update place i moved j) =
      ∑ j ∈ Finset.univ.erase i, weight (place j) := by
    refine Finset.sum_congr rfl fun j member => ?_
    rw [Function.update_of_ne (Finset.ne_of_mem_erase member)]
  have before := Finset.sum_erase_add Finset.univ (fun j => weight (place j)) (Finset.mem_univ i)
  have after := Finset.sum_erase_add Finset.univ
    (fun j => weight (Function.update place i moved j)) (Finset.mem_univ i)
  simp only [Function.update_self] at after
  omega

/-- Where a thread stands: elsewhere, parked on the condition variable, or notified there and not
yet back at the lock. -/
inductive Waiting where
  | away
  | parked
  | notified
  deriving DecidableEq

structure Monitor (ι : Type u) where
  waiting : ι → Waiting
  available : Nat

namespace Monitor

def notified (monitor : Monitor ι) : Nat :=
  (Finset.univ.filter fun i => monitor.waiting i = .notified).card

/-- Nobody stays parked unless everything that is available is on its way to a notified thread. -/
def Served (monitor : Monitor ι) : Prop :=
  (∃ i, monitor.waiting i = .parked) → monitor.available ≤ monitor.notified

/-- What threads do at a condition variable whose waits are repeated until something is
available. -/
inductive Step : Monitor ι → Monitor ι → Prop where
  | parks (waiting : ι → Waiting) (i : ι) :
      Step ⟨waiting, 0⟩ ⟨Function.update waiting i .parked, 0⟩
  /-- Also by a thread that was never notified. -/
  | takes (waiting : ι → Waiting) (available : Nat) (i : ι) :
      Step ⟨waiting, available + 1⟩ ⟨Function.update waiting i .away, available⟩
  /-- A wake-up without notification. -/
  | wakes (waiting : ι → Waiting) (available : Nat) (i : ι) (parked : waiting i = .parked) :
      Step ⟨waiting, available⟩ ⟨Function.update waiting i .away, available⟩
  | notifies (waiting : ι → Waiting) (available : Nat) (i : ι) (parked : waiting i = .parked) :
      Step ⟨waiting, available⟩ ⟨Function.update waiting i .notified, available + 1⟩
  /-- A notification that nobody waits for. -/
  | adds (waiting : ι → Waiting) (available : Nat) (nobody : ∀ i, waiting i ≠ .parked) :
      Step ⟨waiting, available⟩ ⟨waiting, available + 1⟩

theorem notified_update (waiting : ι → Waiting) (available later : Nat) (i : ι) (moved : Waiting) :
    (Monitor.mk (Function.update waiting i moved) later).notified +
        (if waiting i = .notified then 1 else 0) =
      (Monitor.mk waiting available).notified + if moved = .notified then 1 else 0 := by
  simp only [notified, Finset.card_filter]
  exact sum_update_add (fun place => if place = .notified then 1 else 0) waiting i moved

omit [Fintype ι] in
theorem parked_of_away {waiting : ι → Waiting} {i : ι}
    (parked : ∃ j, Function.update waiting i .away j = .parked) : ∃ j, waiting j = .parked := by
  obtain ⟨j, parked⟩ := parked
  by_cases same : j = i
  · subst same
    rw [Function.update_self] at parked
    cases parked
  · rw [Function.update_of_ne same] at parked
    exact ⟨j, parked⟩

theorem Served.step {before after : Monitor ι} (served : before.Served) (step : Step before after) :
    after.Served := by
  intro parked
  cases step with
  | parks waiting i => exact Nat.zero_le _
  | takes waiting available i =>
      -- Whoever takes it, at most one notification is used up for it.
      have held : available + 1 ≤ _ := served (parked_of_away parked)
      have counted := notified_update waiting (available + 1) available i .away
      change available ≤ _
      simp only [reduceCtorEq, if_false] at counted
      split at counted <;> omega
  | wakes waiting available i asleep =>
      have held : available ≤ _ := served (parked_of_away parked)
      have counted := notified_update waiting available available i .away
      simp only [asleep, reduceCtorEq, if_false, Nat.add_zero] at counted
      exact counted ▸ held
  | notifies waiting available i asleep =>
      have held : available ≤ _ := served ⟨i, asleep⟩
      have counted := notified_update waiting available (available + 1) i .notified
      simp only [asleep, reduceCtorEq, if_false, if_true, Nat.add_zero] at counted
      exact counted ▸ Nat.succ_le_succ held
  | adds waiting available nobody =>
      obtain ⟨i, parked⟩ := parked
      exact absurd parked (nobody i)

end Monitor

end Imflib.ConditionVariable
