import Imflib.Base.Transition
import Imflib.Encoder.BoundQueue

/-! Any number of threads on one queue. Every critical section is one step. -/

namespace Imflib.Encoder

universe u

open Transition

inductive QueueCall (α : Type u) where
  | push (data : α)
  | pop
  | abort
  | size

inductive QueueResult (α : Type u) where
  | pushed (data : α)
  | popped (result : α)
  | aborted
  | size (items : Nat)

/-- Where a thread stands: outside the queue, before a critical section, or waiting on a condition
variable. -/
inductive QueueThread (α : Type u) where
  | outside
  | entering (call : QueueCall α)
  | waiting (call : QueueCall α)

/-- Waits on `cv_pop_`, which is notified by pops. -/
def QueueThread.waitsForRoom {α : Type u} : QueueThread α → Bool
  | .waiting (.push _) => true
  | _ => false

/-- Waits on `cv_push_`, which is notified by pushes. -/
def QueueThread.waitsForItem {α : Type u} : QueueThread α → Bool
  | .waiting .pop => true
  | _ => false

def QueueThread.woken {α : Type u} : QueueThread α → QueueThread α
  | .waiting call => .entering call
  | thread => thread

structure QueueState (n N : Nat) (α : Type u) where
  queue : BoundQueue α N
  thread : Fin n → QueueThread α

/-- `notified` is the thread that `notify_one` wakes. `wake` is a wake-up without notification. -/
inductive QueueAction (n : Nat) (α : Type u) where
  | call (i : Fin n) (call : QueueCall α)
  | enter (i : Fin n) (notified : Option (Fin n))
  | wake (i : Fin n)

variable {n N : Nat} {α : Type u}

def QueueResult.pushes : QueueResult α → List α
  | .pushed data => [data]
  | _ => []

def QueueResult.pops : QueueResult α → List α
  | .popped result => [result]
  | _ => []

def BoundQueue.run (queue : BoundQueue α N) :
    QueueCall α → Outcome (QueueResult α × BoundQueue α N)
  | .push data =>
      match queue.push data with
      | .waits => .waits
      | .throws => .throws
      | .completes queue => .completes (.pushed data, queue)
  | .pop =>
      match queue.pop with
      | .waits => .waits
      | .throws => .throws
      | .completes (result, queue) => .completes (.popped result, queue)
  | .abort => .completes (.aborted, queue.abort)
  | .size => .completes (.size queue.size, queue)

namespace BoundQueue

inductive Ending (queue : BoundQueue α N) :
    QueueCall α → Outcome (QueueResult α × BoundQueue α N) → Prop where
  | pushWaits (data : α) (waits : queue.push data = .waits) : Ending queue (.push data) .waits
  | pushThrows (data : α) (throws : queue.push data = .throws) : Ending queue (.push data) .throws
  | pushes (data : α) (next : BoundQueue α N) (pushed : queue.push data = .completes next) :
      Ending queue (.push data) (.completes (.pushed data, next))
  | popWaits (waits : queue.pop = .waits) : Ending queue .pop .waits
  | popThrows (throws : queue.pop = .throws) : Ending queue .pop .throws
  | pops (result : α) (next : BoundQueue α N) (popped : queue.pop = .completes (result, next)) :
      Ending queue .pop (.completes (.popped result, next))
  | aborts : Ending queue .abort (.completes (.aborted, queue.abort))
  | sizes : Ending queue .size (.completes (.size queue.size, queue))

theorem ending_of_run {queue : BoundQueue α N} {call : QueueCall α}
    {outcome : Outcome (QueueResult α × BoundQueue α N)} (ran : queue.run call = outcome) :
    queue.Ending call outcome := by
  subst ran
  cases call with
  | push data =>
      simp only [run]
      cases pushed : queue.push data with
      | waits => exact .pushWaits data pushed
      | throws => exact .pushThrows data pushed
      | completes next => exact .pushes data next pushed
  | pop =>
      simp only [run]
      cases popped : queue.pop with
      | waits => exact .popWaits popped
      | throws => exact .popThrows popped
      | completes taken => exact .pops taken.1 taken.2 popped
  | abort => exact .aborts
  | size => exact .sizes

theorem run_completes {queue next : BoundQueue α N} {call : QueueCall α} {result : QueueResult α}
    (completed : queue.run call = .completes (result, next)) :
    queue.items ++ result.pushes = result.pops ++ next.items ∧
      (queue.aborted = true → next.aborted = true) := by
  cases ending_of_run completed with
  | pushes data next pushed =>
      obtain ⟨items, aborted⟩ := push_completes pushed
      exact ⟨items.symm, fun already => aborted.trans already⟩
  | pops result next popped =>
      obtain ⟨items, aborted⟩ := pop_completes popped
      exact ⟨(List.append_nil _).trans items, fun already => aborted.trans already⟩
  | aborts => exact ⟨List.append_nil _, fun _ => rfl⟩
  | sizes => exact ⟨List.append_nil _, id⟩

theorem room_of_push {queue : BoundQueue α N} {data : α} {result : QueueResult α × BoundQueue α N}
    (completed : queue.run (.push data) = .completes result) : queue.buffer.full = false := by
  unfold run push at completed
  cases running : queue.aborted with
  | true => simp [running] at completed
  | false =>
      cases full : queue.buffer.full with
      | true => simp [running, full] at completed
      | false => rfl

theorem run_of_aborted {queue : BoundQueue α N} (aborted : queue.aborted = true) {call : QueueCall α}
    (changes : call ≠ .abort ∧ call ≠ .size) : queue.run call = .throws := by
  cases call with
  | push data => simp [run, push, aborted]
  | pop =>
      unfold run pop
      cases queue.buffer.items <;> simp [aborted]
  | abort => exact absurd rfl changes.1
  | size => exact absurd rfl changes.2

end BoundQueue

namespace QueueState

def start (n N : Nat) (α : Type u) : QueueState n N α := ⟨.empty, fun _ => .outside⟩

def setThread (state : QueueState n N α) (i : Fin n) (thread : QueueThread α) :
    QueueState n N α := { state with thread := Function.update state.thread i thread }

def notifyOne (waits : QueueThread α → Bool) (state : QueueState n N α) :
    Option (Fin n) → Option (QueueState n N α)
  | some i => if waits (state.thread i) then some (state.setThread i (state.thread i).woken) else none
  | none => if ∀ i, waits (state.thread i) = false then some state else none

def notify (state : QueueState n N α) (notified : Option (Fin n)) :
    QueueResult α → Option (QueueState n N α)
  | .pushed _ => state.notifyOne QueueThread.waitsForItem notified
  | .popped _ => state.notifyOne QueueThread.waitsForRoom notified
  | .aborted => some { state with thread := fun i => (state.thread i).woken }
  | .size _ => some state

def perform (state : QueueState n N α) : QueueAction n α → Option (QueueState n N α)
  | .call i call =>
      match state.thread i with
      | .outside => some (state.setThread i (.entering call))
      | _ => none
  | .enter i notified =>
      match state.thread i with
      | .entering call =>
          match state.queue.run call with
          | .waits => some (state.setThread i (.waiting call))
          | .throws => some (state.setThread i .outside)
          | .completes (result, queue) =>
              ({ state with queue := queue }.setThread i .outside).notify notified result
      | _ => none
  | .wake i =>
      match state.thread i with
      | .waiting call => some (state.setThread i (.entering call))
      | _ => none

def Steps (state : QueueState n N α) (action : QueueAction n α) (next : QueueState n N α) : Prop :=
  state.perform action = some next

def criticalSection (visited : QueueState n N α × QueueAction n α) :
    Option (QueueCall α × Outcome (QueueResult α × BoundQueue α N)) :=
  match visited.2 with
  | .enter i _ =>
      match visited.1.thread i with
      | .entering call => some (call, visited.1.queue.run call)
      | _ => none
  | _ => none

def result (visited : QueueState n N α × QueueAction n α) : Option (QueueResult α × BoundQueue α N) :=
  match criticalSection visited with
  | some (_, .completes result) => some result
  | _ => none

/-- The values of the pushes that are through, in the order of their critical sections. -/
def pushes (trace : List (QueueState n N α × QueueAction n α)) : List α :=
  trace.flatMap fun visited => (result visited).elim [] fun result => result.1.pushes

/-- The values that pops have returned, in the order of their critical sections. -/
def pops (trace : List (QueueState n N α × QueueAction n α)) : List α :=
  trace.flatMap fun visited => (result visited).elim [] fun result => result.1.pops

variable {state next : QueueState n N α} {action : QueueAction n α}
  {trace : List (QueueState n N α × QueueAction n α)}

theorem notifyOne_queue {waits : QueueThread α → Bool} {notified : Option (Fin n)}
    (notifies : state.notifyOne waits notified = some next) : next.queue = state.queue := by
  unfold notifyOne at notifies
  split at notifies <;> split at notifies <;> cases notifies <;> rfl

theorem notify_queue {notified : Option (Fin n)} {result : QueueResult α}
    (notifies : state.notify notified result = some next) : next.queue = state.queue := by
  cases result with
  | pushed data => exact notifyOne_queue notifies
  | popped result => exact notifyOne_queue notifies
  | aborted =>
      cases notifies
      rfl
  | size items =>
      cases notifies
      rfl

inductive Move (state : QueueState n N α) : QueueAction n α → QueueState n N α → Prop where
  | calls (i : Fin n) (call : QueueCall α) (outside : state.thread i = .outside) :
      Move state (.call i call) (state.setThread i (.entering call))
  | waits (i : Fin n) (notified : Option (Fin n)) (call : QueueCall α)
      (entered : state.thread i = .entering call) (ran : state.queue.run call = .waits) :
      Move state (.enter i notified) (state.setThread i (.waiting call))
  | throws (i : Fin n) (notified : Option (Fin n)) (call : QueueCall α)
      (entered : state.thread i = .entering call) (ran : state.queue.run call = .throws) :
      Move state (.enter i notified) (state.setThread i .outside)
  | completes (i : Fin n) (notified : Option (Fin n)) (call : QueueCall α)
      (through : QueueResult α) (queue : BoundQueue α N) (next : QueueState n N α)
      (entered : state.thread i = .entering call)
      (ran : state.queue.run call = .completes (through, queue))
      (notifies : ({ state with queue := queue }.setThread i .outside).notify notified through =
        some next) :
      Move state (.enter i notified) next
  | wakes (i : Fin n) (call : QueueCall α) (waiting : state.thread i = .waiting call) :
      Move state (.wake i) (state.setThread i (.entering call))

theorem move_of_step (taken : Steps state action next) : Move state action next := by
  cases action with
  | call i call =>
      simp only [Steps, perform] at taken
      split at taken
      · rename_i outside
        cases taken
        exact .calls i call outside
      · cases taken
  | enter i notified =>
      simp only [Steps, perform] at taken
      split at taken
      · rename_i call entered
        cases ran : state.queue.run call with
        | waits =>
            simp only [ran] at taken
            cases taken
            exact .waits i notified call entered ran
        | throws =>
            simp only [ran] at taken
            cases taken
            exact .throws i notified call entered ran
        | completes after =>
            simp only [ran] at taken
            exact .completes i notified call after.1 after.2 next entered ran taken
      · cases taken
  | wake i =>
      simp only [Steps, perform] at taken
      split at taken
      · rename_i call waiting
        cases taken
        exact .wakes i call waiting
      · cases taken

theorem queue_of_step (taken : Steps state action next) :
    next.queue = (result (state, action)).elim state.queue Prod.snd := by
  cases move_of_step taken with
  | calls i call outside => rfl
  | waits i notified call entered ran =>
      simp [result, criticalSection, entered, ran, setThread]
  | throws i notified call entered ran =>
      simp [result, criticalSection, entered, ran, setThread]
  | completes i notified call through queue next entered ran notifies =>
      rw [notify_queue notifies]
      simp [result, criticalSection, entered, ran, setThread]
  | wakes i call waiting => rfl

/-- The queue of a run is first in, first out, and it is at rest once it is aborted. -/
structure CorrectFifo (trace : List (QueueState n N α × QueueAction n α))
    (state : QueueState n N α) : Prop where
  bounded : state.queue.size ≤ N
  /-- `push_back` runs with room for its item only. -/
  room : ∀ visited ∈ trace, ∀ data result,
    criticalSection visited = some (.push data, .completes result) →
      visited.1.queue.buffer.full = false
  fifo : pops trace ++ state.queue.items = pushes trace
  /-- After an abort every push and every pop throws, and the contents stay as they are. -/
  afterAbort : ∀ earlier visited later, trace = earlier ++ visited :: later →
    (∃ outcome, criticalSection visited = some (.abort, outcome)) →
      state.queue.items = visited.1.queue.items ∧
      ∀ other ∈ later, other.1.queue.items = visited.1.queue.items ∧
        ∀ call outcome, criticalSection other = some (call, outcome) →
          call ≠ .abort ∧ call ≠ .size → outcome = .throws

theorem run_of_criticalSection {visited : QueueState n N α × QueueAction n α} {call : QueueCall α}
    {outcome : Outcome (QueueResult α × BoundQueue α N)}
    (runs : criticalSection visited = some (call, outcome)) : visited.1.queue.run call = outcome := by
  unfold criticalSection at runs
  split at runs
  · split at runs
    · cases runs
      rfl
    · cases runs
  · cases runs

/-- A step either is a call that is through, or leaves the queue alone. -/
theorem step_cases (taken : Steps state action next) :
    (∃ call outcome, state.queue.run call = .completes outcome ∧
        result (state, action) = some outcome ∧ next.queue = outcome.2) ∨
      result (state, action) = none ∧ next.queue = state.queue := by
  have queue := queue_of_step taken
  cases through : result (state, action) with
  | none =>
      rw [through] at queue
      exact Or.inr ⟨rfl, queue⟩
  | some outcome =>
      rw [through] at queue
      unfold result at through
      split at through
      · rename_i call outcome runs
        cases through
        exact Or.inl ⟨call, _, run_of_criticalSection runs, rfl, queue⟩
      · cases through

theorem items_of_step (taken : Steps state action next) :
    state.queue.items ++ pushes [(state, action)] = pops [(state, action)] ++ next.queue.items ∧
      (state.queue.aborted = true → next.queue.aborted = true) := by
  rw [pushes, pops, List.flatMap_singleton, List.flatMap_singleton]
  rcases step_cases taken with ⟨call, outcome, ran, through, same⟩ | ⟨through, same⟩
  · rw [through, same]
    exact BoundQueue.run_completes ran
  · rw [through, same]
    exact ⟨List.append_nil _, id⟩

theorem items_of_step_aborted (taken : Steps state action next)
    (aborted : state.queue.aborted = true) : next.queue.items = state.queue.items := by
  rcases step_cases taken with ⟨call, outcome, ran, through, same⟩ | ⟨through, same⟩
  · rw [same]
    by_cases changes : call ≠ .abort ∧ call ≠ .size
    · rw [BoundQueue.run_of_aborted aborted changes] at ran
      cases ran
    · rw [not_and_or, not_not, not_not] at changes
      rcases changes with rfl | rfl <;> cases ran <;> rfl
  · rw [same]

theorem aborted_of_step (taken : Steps state action next)
    {outcome : Outcome (QueueResult α × BoundQueue α N)}
    (aborts : criticalSection (state, action) = some (.abort, outcome)) :
    next.queue.aborted = true ∧ next.queue.items = state.queue.items := by
  have queue := queue_of_step taken
  have ran := run_of_criticalSection aborts
  cases ran
  simp only [result, aborts, BoundQueue.run] at queue
  rw [queue]
  exact ⟨rfl, rfl⟩

structure AtRest (contents : List α) (later : List (QueueState n N α × QueueAction n α))
    (state : QueueState n N α) : Prop where
  aborted : state.queue.aborted = true
  items : state.queue.items = contents
  later : ∀ other ∈ later, other.1.queue.aborted = true ∧ other.1.queue.items = contents

theorem AtRest.step {contents : List α} {later : List (QueueState n N α × QueueAction n α)}
    (rest : AtRest contents later state) (taken : Steps state action next) :
    AtRest contents (later ++ [(state, action)]) next := by
  refine
    { aborted := (items_of_step taken).2 rest.aborted
      items := (items_of_step_aborted taken rest.aborted).trans rest.items
      later := ?_ }
  intro other member
  rcases List.mem_append.mp member with old | last
  · exact rest.later other old
  · cases List.mem_singleton.mp last
    exact ⟨rest.aborted, rest.items⟩

theorem atRest_of_abort (run : Run Steps (start n N α) trace state) :
    ∀ earlier visited later, trace = earlier ++ visited :: later →
      (∃ outcome, criticalSection visited = some (.abort, outcome)) →
      AtRest visited.1.queue.items later state := by
  induction run with
  | start =>
      intro earlier visited later empty
      exact absurd (congrArg List.length empty) (by simp)
  | @step trace state next action before taken ih =>
      intro earlier visited later split aborts
      rcases later.eq_nil_or_concat with rfl | ⟨between, last, rfl⟩
      · -- The abort is the last step.
        obtain ⟨-, same⟩ := List.append_inj' split rfl
        cases same
        obtain ⟨outcome, aborts⟩ := aborts
        obtain ⟨aborted, items⟩ := aborted_of_step taken aborts
        exact ⟨aborted, items, fun other member => absurd member List.not_mem_nil⟩
      · have splits : trace ++ [(state, action)] = (earlier ++ visited :: between) ++ [last] := by
          rw [split, List.concat_eq_append, List.append_assoc, List.cons_append]
        obtain ⟨old, same⟩ := List.append_inj' splits rfl
        cases same
        rw [List.concat_eq_append]
        exact (ih earlier visited between old aborts).step taken

theorem fifo_of_run (run : Run Steps (start n N α) trace state) :
    pops trace ++ state.queue.items = pushes trace := by
  induction run with
  | start => rfl
  | @step trace state next action before taken ih =>
      have joins (results : QueueResult α → List α) :
          (trace ++ [(state, action)]).flatMap (fun visited =>
            (result visited).elim [] fun result => results result.1) =
          trace.flatMap (fun visited => (result visited).elim [] fun result => results result.1) ++
            [(state, action)].flatMap fun visited =>
              (result visited).elim [] fun result => results result.1 := List.flatMap_append
      calc pops (trace ++ [(state, action)]) ++ next.queue.items
          = pops trace ++ (pops [(state, action)] ++ next.queue.items) := by
            rw [pops, joins QueueResult.pops, List.append_assoc]
            rfl
        _ = pops trace ++ (state.queue.items ++ pushes [(state, action)]) := by
            rw [(items_of_step taken).1]
        _ = pushes trace ++ pushes [(state, action)] := by rw [← List.append_assoc, ih]
        _ = pushes (trace ++ [(state, action)]) := (joins QueueResult.pushes).symm

/-- In every run of any number of threads the queue is a bounded queue, first in, first out. -/
theorem bound_queue_correct (run : Run Steps (start n N α) trace state) :
    CorrectFifo trace state := by
  refine
    { bounded := state.queue.buffer.bounded
      room := ?_
      fifo := fifo_of_run run
      afterAbort := ?_ }
  · intro visited member data result runs
    exact BoundQueue.room_of_push (run_of_criticalSection runs)
  · intro earlier visited later split aborts
    have rest := atRest_of_abort run earlier visited later split aborts
    refine ⟨rest.items, fun other member => ?_⟩
    obtain ⟨aborted, items⟩ := rest.later other member
    refine ⟨items, fun call outcome runs changes => ?_⟩
    rw [← run_of_criticalSection runs]
    exact BoundQueue.run_of_aborted aborted changes

def sampleActions : List (QueueAction 2 Nat) :=
  [.call 0 (.push 5), .enter 0 none, .call 0 (.push 7), .enter 0 none, .call 1 .pop,
    .enter 1 (some 0), .enter 0 none, .call 1 .abort, .enter 1 none]

/-- The second push waits, and goes on when it is notified. -/
theorem bound_queue_correct_sample : ∃ state,
    CorrectFifo (visits perform (start 2 1 Nat) sampleActions) state ∧
      pushes (visits perform (start 2 1 Nat) sampleActions) = [5, 7] ∧
      pops (visits perform (start 2 1 Nat) sampleActions) = [5] ∧ state.queue.items = [7] := by
  have runs : (replay perform (start 2 1 Nat) sampleActions).map (·.queue.items) = some [7] := rfl
  obtain ⟨state, replayed, items⟩ := Option.map_eq_some_iff.mp runs
  exact ⟨state, bound_queue_correct (run_of_replay perform _ _ state replayed), rfl, rfl, items⟩

end QueueState

end Imflib.Encoder
