import Mathlib.Algebra.GroupWithZero.Nat
import Mathlib.Tactic.Common

/-! Runs of a nondeterministic transition system and the rules to reason about them. -/

namespace Imflib

-- Named, so that the literals of a small index type are the same terms in every module.
instance neZero_two : @NeZero Nat Zero.ofOfNat0 2 := ⟨Nat.succ_ne_zero _⟩

instance neZero_three : @NeZero Nat Zero.ofOfNat0 3 := ⟨Nat.succ_ne_zero _⟩

instance neZero_four : @NeZero Nat Zero.ofOfNat0 4 := ⟨Nat.succ_ne_zero _⟩

end Imflib

namespace Imflib.Transition

universe u v

variable {State : Type u} {Action : Type v}

/-- A finite run from `start`, with every step it takes: the state before the
step and the action taken there. -/
inductive Run (step : State → Action → State → Prop) (start : State) :
    List (State × Action) → State → Prop where
  | start : Run step start [] start
  | step {trace : List (State × Action)} {state next : State} {action : Action}
      (before : Run step start trace state) (taken : step state action next) :
      Run step start (trace ++ [(state, action)]) next

/-- Every step of the trace was taken in a state that meets the guard. -/
def Guarded (guard : State → Action → Prop) (trace : List (State × Action)) : Prop :=
  ∀ visited ∈ trace, guard visited.1 visited.2

def Reachable (step : State → Action → State → Prop) (start state : State) : Prop :=
  ∃ trace, Run step start trace state

variable {step : State → Action → State → Prop} {guard : State → Action → Prop}
  {start state next : State} {action : Action} {trace : List (State × Action)}

theorem guarded_nil : Guarded guard ([] : List (State × Action)) := by
  intro visited member
  cases member

theorem guarded_append_singleton :
    Guarded guard (trace ++ [(state, action)]) ↔ Guarded guard trace ∧ guard state action := by
  constructor
  · intro guarded
    exact ⟨fun visited member => guarded visited (List.mem_append_left _ member),
      guarded (state, action) (List.mem_append_right _ (List.mem_singleton_self _))⟩
  · rintro ⟨before, last⟩ visited member
    rcases List.mem_append.mp member with inside | atEnd
    · exact before visited inside
    · rw [List.mem_singleton.mp atEnd]
      exact last

/-- The invariant rule: what holds at the start and survives every step that
meets the guard holds at the end of every such run. -/
theorem Run.invariant (invariant : State → Prop) (initially : invariant start)
    (preserved : ∀ state action next, invariant state → guard state action →
      step state action next → invariant next)
    (run : Run step start trace state) (guarded : Guarded guard trace) : invariant state := by
  induction run with
  | start => exact initially
  | step before taken ih =>
      obtain ⟨earlier, last⟩ := guarded_append_singleton.mp guarded
      exact preserved _ _ _ (ih earlier) last taken

theorem Reachable.invariant (invariant : State → Prop) (initially : invariant start)
    (preserved : ∀ state action next, invariant state → step state action next → invariant next)
    (reached : Reachable step start state) : invariant state := by
  obtain ⟨trace, run⟩ := reached
  have unguarded : Guarded (fun _ _ => True) trace := fun _ _ => trivial
  exact run.invariant invariant initially
    (fun state action next holds _ taken => preserved state action next holds taken) unguarded

/-- A step that lowers the rank is paid by it, and any other is paid by its cost. -/
theorem Run.length_le (invariant : State → Prop) (rank : State → Nat) (cost : Action → Nat)
    (initially : invariant start)
    (preserved : ∀ state action next, invariant state → step state action next → invariant next)
    (pays : ∀ state action next, invariant state → step state action next →
      rank next + 1 ≤ rank state + cost action)
    (run : Run step start trace state) : invariant state ∧
      trace.length + rank state ≤ rank start + (trace.map fun visited => cost visited.2).sum := by
  induction run with
  | start => exact ⟨initially, by simp⟩
  | @step trace state next action before taken ih =>
      obtain ⟨holds, bound⟩ := ih
      have paid := pays state action next holds taken
      refine ⟨preserved state action next holds taken, ?_⟩
      rw [List.length_append, List.length_singleton, List.map_append, List.sum_append,
        List.map_singleton, List.sum_singleton]
      dsimp only
      omega

/-- If from a state with the property exactly the steps that meet the guard lead to one, then a
run keeps the property throughout exactly if all of its steps meet the guard. -/
theorem Run.always_iff (property : State → Prop) (initially : property start)
    (steps : ∀ state action next, Reachable step start state → step state action next →
      property state → (property next ↔ guard state action))
    (run : Run step start trace state) :
    ((∀ visited ∈ trace, property visited.1) ∧ property state) ↔ Guarded guard trace := by
  induction run with
  | start =>
      refine iff_of_true ⟨?_, initially⟩ guarded_nil
      intro visited member
      cases member
  | @step trace state next action before taken ih =>
      calc ((∀ visited ∈ trace ++ [(state, action)], property visited.1) ∧ property next)
          ↔ ((∀ visited ∈ trace, property visited.1) ∧ property state) ∧ property next := by
            rw [List.forall_mem_append, List.forall_mem_singleton]
        _ ↔ ((∀ visited ∈ trace, property visited.1) ∧ property state) ∧ guard state action :=
            and_congr_right fun earlier => steps state action next ⟨trace, before⟩ taken earlier.2
        _ ↔ Guarded guard trace ∧ guard state action := and_congr_left' ih
        _ ↔ Guarded guard (trace ++ [(state, action)]) := guarded_append_singleton.symm

theorem Reachable.refl : Reachable step start start :=
  ⟨[], .start⟩

theorem Reachable.tail (reached : Reachable step start state)
    (taken : step state action next) : Reachable step start next := by
  obtain ⟨trace, run⟩ := reached
  exact ⟨trace ++ [(state, action)], run.step taken⟩

theorem Run.append {earlier later : List (State × Action)} {middle : State}
    (first : Run step start earlier middle) (second : Run step middle later state) :
    Run step start (earlier ++ later) state := by
  induction second with
  | start => simpa using first
  | step _ taken ih =>
      rw [← List.append_assoc]
      exact ih.step taken

theorem Reachable.trans {middle : State} (first : Reachable step start middle)
    (second : Reachable step middle state) : Reachable step start state := by
  obtain ⟨earlier, before⟩ := first
  obtain ⟨later, after⟩ := second
  exact ⟨earlier ++ later, before.append after⟩

/-- The rule of forward simulation: a system whose every step is one of another system on what is
seen of the states, or cannot be seen, reaches nothing that the other one does not reach. -/
theorem Reachable.simulates {Seen : Type*} {Move : Type*} {move : Seen → Move → Seen → Prop}
    (see : State → Seen) (invariant : State → Prop) (initially : invariant start)
    (preserved : ∀ state action next, invariant state → step state action next → invariant next)
    (moves : ∀ state action next, invariant state → step state action next →
      see next = see state ∨ ∃ seen, move (see state) seen (see next))
    (reached : Reachable step start state) :
    invariant state ∧ Reachable move (see start) (see state) := by
  refine reached.invariant (fun state => invariant state ∧ Reachable move (see start) (see state))
    ⟨initially, .refl⟩ ?_
  intro state action next holds taken
  refine ⟨preserved state action next holds.1 taken, ?_⟩
  rcases moves state action next holds.1 taken with same | ⟨seen, moved⟩
  · rw [same]
    exact holds.2
  · exact holds.2.tail moved

def replay (perform : State → Action → Option State) : State → List Action → Option State
  | state, [] => some state
  | state, action :: actions =>
      match perform state action with
      | none => none
      | some next => replay perform next actions

def visits (perform : State → Action → Option State) : State → List Action → List (State × Action)
  | _, [] => []
  | state, action :: actions =>
      (state, action) :: match perform state action with
        | none => []
        | some next => visits perform next actions

theorem run_of_replay (perform : State → Action → Option State) (actions : List Action)
    (start state : State) (replayed : replay perform start actions = some state) :
    Run (fun state action next => perform state action = some next) start
      (visits perform start actions) state := by
  induction actions generalizing start with
  | nil =>
      cases Option.some.inj replayed
      exact .start
  | cons action actions ih =>
      simp only [replay] at replayed
      cases performed : perform start action with
      | none => simp [performed] at replayed
      | some next =>
          simp only [performed] at replayed
          have run := (Run.start.step performed).append (ih next replayed)
          simpa [visits, performed] using run

theorem reachable_of_replay (perform : State → Action → Option State) (actions : List Action)
    (start state : State) (replayed : replay perform start actions = some state) :
    Reachable (fun state action next => perform state action = some next) start state :=
  ⟨visits perform start actions, run_of_replay perform actions start state replayed⟩

instance [∀ state action, Decidable (guard state action)] :
    Decidable (Guarded guard trace) :=
  inferInstanceAs (Decidable (∀ visited ∈ trace, guard visited.1 visited.2))

end Imflib.Transition
