import Mathlib.Tactic.Common

/-! Loops whose body leaves them or goes on with a new state, and when they end. -/

namespace Imflib.Loop

universe u

variable {σ : Type u} (body : σ → Option σ)

/-- The state before the turn with a number, if the loop gets there. -/
def after : Nat → σ → Option σ
  | 0, state => some state
  | n + 1, state => (body state).bind (after n)

def Ends (state : σ) : Prop := ∃ n, after body n state = none

variable {body} {state : σ}

theorem after_add (m n : Nat) (state : σ) :
    after body (m + n) state = (after body m state).bind (after body n) := by
  induction m generalizing state with
  | zero => rw [Nat.zero_add, after, Option.bind_some]
  | succ m ih =>
      rw [Nat.succ_add, after, after, Option.bind_assoc]
      exact Option.bind_congr fun next _ => ih next

@[simp] theorem after_one (state : σ) : after body 1 state = body state :=
  Option.bind_fun_some (body state)

theorem after_succ (n : Nat) (state : σ) :
    after body (n + 1) state = (after body n state).bind body := by
  rw [after_add]
  apply Option.bind_congr
  intro next _
  exact after_one next

theorem not_ends_iff : ¬ Ends body state ↔ ∀ n, ∃ next, after body n state = some next := by
  unfold Ends
  push Not
  exact forall_congr' fun n => Option.ne_none_iff_exists'

theorem not_ends_of_after {n : Nat} {next : σ} (reached : after body n state = some next)
    (forever : ¬ Ends body next) : ¬ Ends body state := by
  apply not_ends_iff.mpr
  intro m
  have later := not_ends_iff.mp forever m
  by_cases before : m ≤ n
  · obtain ⟨rest, rfl⟩ := Nat.exists_eq_add_of_le before
    rw [after_add] at reached
    obtain ⟨middle, found, -⟩ := Option.bind_eq_some_iff.mp reached
    exact ⟨middle, found⟩
  · obtain ⟨rest, rfl⟩ := Nat.exists_eq_add_of_le (Nat.le_of_not_le before)
    rw [after_add, reached]
    exact not_ends_iff.mp forever rest

theorem not_ends_after (forever : ¬ Ends body state) {n : Nat} {next : σ}
    (reached : after body n state = some next) : ¬ Ends body next := by
  apply not_ends_iff.mpr
  intro m
  obtain ⟨later, found⟩ := not_ends_iff.mp forever (n + m)
  rw [after_add, reached] at found
  exact ⟨later, found⟩

section Measure

variable (measure : σ → Nat)

theorem ends_of_measure (falls : ∀ state next, body state = some next → measure next < measure state)
    (state : σ) : Ends body state := by
  induction bound : measure state using Nat.strongRecOn generalizing state with
  | ind size ih =>
      cases taken : body state with
      | none => exact ⟨1, by rw [after, taken, Option.bind_none]⟩
      | some next =>
          have lower : measure next < size := bound ▸ falls state next taken
          obtain ⟨n, ended⟩ := ih (measure next) lower next rfl
          exact ⟨n + 1, by rw [after, taken, Option.bind_some, ended]⟩

variable {measure}

theorem measure_after (kept : ∀ state next, body state = some next → measure next ≤ measure state)
    {n : Nat} {next : σ} (reached : after body n state = some next) :
    measure next ≤ measure state := by
  induction n generalizing state with
  | zero =>
      cases Option.some.inj reached
      exact Nat.le_refl _
  | succ n ih =>
      obtain ⟨first, taken, later⟩ := Option.bind_eq_some_iff.mp reached
      exact Nat.le_trans (ih later) (kept state first taken)

/-- A loop that never raises a measure goes on forever exactly if it comes to a state from which
the measure stays as it is forever. -/
theorem not_ends_iff_of_measure
    (kept : ∀ state next, body state = some next → measure next ≤ measure state) (state : σ) :
    ¬ Ends body state ↔ ∃ n stuck, after body n state = some stuck ∧
      ∀ m, ∃ later, after body m stuck = some later ∧ measure later = measure stuck := by
  constructor
  · intro forever
    induction bound : measure state using Nat.strongRecOn generalizing state with
    | ind size ih =>
        by_cases lower : ∃ n next, after body n state = some next ∧ measure next < measure state
        · obtain ⟨n, next, reached, less⟩ := lower
          obtain ⟨m, stuck, found, stays⟩ :=
            ih (measure next) (bound ▸ less) next (not_ends_after forever reached) rfl
          exact ⟨n + m, stuck, by rw [after_add, reached, Option.bind_some, found], stays⟩
        · refine ⟨0, state, rfl, fun m => ?_⟩
          obtain ⟨later, reached⟩ := not_ends_iff.mp forever m
          have atMost := measure_after kept reached
          have atLeast := Nat.le_of_not_lt fun less => lower ⟨m, later, reached, less⟩
          exact ⟨later, reached, Nat.le_antisymm atMost atLeast⟩
  · rintro ⟨n, stuck, reached, stays⟩
    apply not_ends_of_after reached
    apply not_ends_iff.mpr
    intro m
    obtain ⟨later, found, -⟩ := stays m
    exact ⟨later, found⟩

end Measure

end Imflib.Loop
