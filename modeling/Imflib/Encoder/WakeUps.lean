import Mathlib.Data.Finset.Option
import Imflib.Base.ConditionVariable
import Imflib.Encoder.QueueThreads

/-! `notify_one` for each item and each free place is enough: no thread is left waiting for what
nobody else will take. -/

namespace Imflib.Encoder

universe u

open Transition ConditionVariable

variable {n N : Nat} {α : Type u}

/-- What the two condition variables are for: `cv_push_` and `cv_pop_`. -/
inductive Awaited where
  | item
  | room
  deriving DecidableEq

def Awaited.other : Awaited → Awaited
  | .item => .room
  | .room => .item

def QueueCall.awaits : QueueCall α → Option Awaited
  | .push _ => some .room
  | .pop => some .item
  | .abort => none
  | .size => none

def BoundQueue.available (queue : BoundQueue α N) : Awaited → Nat
  | .item => queue.size
  | .room => N - queue.size

def Awaited.waits : Awaited → QueueThread α → Bool
  | .item => QueueThread.waitsForItem
  | .room => QueueThread.waitsForRoom

def Awaited.enters (awaited : Awaited) : QueueThread α → Bool
  | .entering call => call.awaits = some awaited
  | _ => false

@[simp] theorem Awaited.waits_outside (awaited : Awaited) :
    awaited.waits (.outside : QueueThread α) = false := by
  cases awaited <;> rfl

@[simp] theorem Awaited.waits_entering (awaited : Awaited) (call : QueueCall α) :
    awaited.waits (.entering call) = false := by
  cases awaited <;> rfl

@[simp] theorem Awaited.waits_waiting (awaited : Awaited) (call : QueueCall α) :
    awaited.waits (.waiting call) = decide (call.awaits = some awaited) := by
  cases awaited <;> cases call <;> rfl

theorem Awaited.exists_of_waits {awaited : Awaited} {thread : QueueThread α}
    (waits : awaited.waits thread = true) :
    ∃ call, thread = .waiting call ∧ call.awaits = some awaited := by
  cases thread with
  | outside => simp at waits
  | entering call => simp at waits
  | waiting call => exact ⟨call, rfl, by simpa using waits⟩

def QueueResult.serves : QueueResult α → Option Awaited
  | .pushed _ => some .item
  | .popped _ => some .room
  | .aborted => none
  | .size _ => none

namespace BoundQueue

theorem available_of_waits {queue : BoundQueue α N} {call : QueueCall α}
    (waits : queue.run call = .waits) :
    ∃ awaited, call.awaits = some awaited ∧ queue.available awaited = 0 := by
  cases ending_of_run waits with
  | pushWaits data pushed =>
      refine ⟨.room, rfl, ?_⟩
      rw [available, push_waits pushed, Nat.sub_self]
  | popWaits popped =>
      refine ⟨.item, rfl, ?_⟩
      rw [available, size_eq_length, pop_waits popped, List.length_nil]

/-- A call that is through takes one of what it awaits, and gives one to the other side. -/
theorem available_of_completes {queue next : BoundQueue α N} {call : QueueCall α}
    {result : QueueResult α} {awaited : Awaited} (awaits : call.awaits = some awaited)
    (completed : queue.run call = .completes (result, next)) :
    result.serves = some awaited.other ∧ queue.available awaited = next.available awaited + 1 ∧
      next.available awaited.other = queue.available awaited.other + 1 := by
  have bounded : next.size ≤ N := next.buffer.bounded
  have before : queue.size ≤ N := queue.buffer.bounded
  cases ending_of_run completed with
  | pushes data next pushed =>
      cases awaits
      have moved : next.size = queue.size + 1 := by
        rw [size_eq_length, (push_completes pushed).1, List.length_append]
        rfl
      refine ⟨rfl, ?_, ?_⟩ <;> simp only [available, Awaited.other] <;> omega
  | pops item next popped =>
      cases awaits
      have moved : queue.size = next.size + 1 := by
        rw [size_eq_length, (pop_completes popped).1]
        rfl
      refine ⟨rfl, ?_, ?_⟩ <;> simp only [available, Awaited.other] <;> omega
  | aborts => cases awaits
  | sizes => cases awaits

theorem abort_of_run {queue next : BoundQueue α N} {call : QueueCall α} {result : QueueResult α}
    (completed : queue.run call = .completes (result, next)) (running : queue.aborted = false)
    (aborted : next.aborted = true) : result = .aborted := by
  cases ending_of_run completed with
  | pushes data next pushed =>
      rw [(push_completes pushed).2, running] at aborted
      cases aborted
  | pops item next popped =>
      rw [(pop_completes popped).2, running] at aborted
      cases aborted
  | aborts => rfl
  | sizes =>
      rw [running] at aborted
      cases aborted

theorem running_of_waits {queue : BoundQueue α N} {call : QueueCall α}
    (waits : queue.run call = .waits) : queue.aborted = false := by
  obtain ⟨awaited, awaits, -⟩ := available_of_waits waits
  have changes : call ≠ .abort ∧ call ≠ .size := by
    constructor <;> rintro rfl <;> cases awaits
  cases aborted : queue.aborted with
  | false => rfl
  | true =>
      rw [run_of_aborted aborted changes] at waits
      cases waits

theorem run_throws {queue : BoundQueue α N} {call : QueueCall α}
    (throws : queue.run call = .throws) : queue.aborted = true := by
  cases ending_of_run throws with
  | pushThrows data pushed => exact push_throws pushed
  | popThrows popped => exact pop_throws popped

end BoundQueue

def QueueThread.isWaiting : QueueThread α → Bool
  | .waiting _ => true
  | _ => false

def QueueAction.thread : QueueAction n α → Fin n
  | .call i _ => i
  | .enter i _ => i
  | .wake i => i

namespace QueueState

def notifies (visited : QueueState n N α × QueueAction n α) : Finset (Fin n) :=
  match visited.2, result visited with
  | .enter _ notified, some (.pushed _, _) => notified.toFinset
  | .enter _ notified, some (.popped _, _) => notified.toFinset
  | .enter _ _, some (.aborted, _) => Finset.univ.filter fun i => (visited.1.thread i).isWaiting
  | _, _ => ∅

/-- A notification lasts until its thread acts, which is when it enters the lock again. -/
def renew (held : Finset (Fin n)) (visited : QueueState n N α × QueueAction n α) : Finset (Fin n) :=
  notifies visited ∪ held.erase visited.2.thread

/-- The threads that have been notified and have not entered the lock since. -/
def notified (trace : List (QueueState n N α × QueueAction n α)) : Finset (Fin n) :=
  trace.foldl renew ∅

def resumes (awaited : Awaited) (trace : List (QueueState n N α × QueueAction n α))
    (state : QueueState n N α) : Finset (Fin n) :=
  (notified trace).filter fun i => awaited.enters (state.thread i)

structure NoLostWakeUp (trace : List (QueueState n N α × QueueAction n α))
    (state : QueueState n N α) : Prop where
  consumers : state.queue.aborted = false → (∃ i, state.thread i = .waiting .pop) →
    state.queue.size ≤ (resumes .item trace state).card
  producers : state.queue.aborted = false → (∃ i data, state.thread i = .waiting (.push data)) →
    N - state.queue.size ≤ (resumes .room trace state).card
  afterAbort : state.queue.aborted = true → ∀ i call, state.thread i ≠ .waiting call

variable {state next : QueueState n N α} {action : QueueAction n α}
  {trace : List (QueueState n N α × QueueAction n α)}

def places (awaited : Awaited) (held : Finset (Fin n)) (state : QueueState n N α) (i : Fin n) :
    Waiting :=
  if awaited.waits (state.thread i) then .parked
  else if awaited.enters (state.thread i) ∧ i ∈ held then .notified
  else .away

def monitor (awaited : Awaited) (held : Finset (Fin n)) (state : QueueState n N α) :
    Monitor (Fin n) :=
  ⟨places awaited held state, state.queue.available awaited⟩

theorem places_of_outside {awaited : Awaited} {held : Finset (Fin n)} {i : Fin n}
    (outside : state.thread i = .outside) : places awaited held state i = .away := by
  simp [places, outside, Awaited.enters]

theorem places_of_ne {awaited : Awaited} {held : Finset (Fin n)} {i : Fin n} {call : QueueCall α}
    (thread : state.thread i = .entering call ∨ state.thread i = .waiting call)
    (other : call.awaits ≠ some awaited) : places awaited held state i = .away := by
  rcases thread with thread | thread <;> simp [places, thread, other, Awaited.enters]

theorem places_setThread (awaited : Awaited) (held : Finset (Fin n)) (i : Fin n)
    (thread : QueueThread α) :
    places awaited (held.erase i) (state.setThread i thread) =
      Function.update (places awaited held state) i
        (if awaited.waits thread then .parked else .away) := by
  funext j
  by_cases same : j = i
  · subst same
    simp [places, setThread]
  · simp [places, setThread, same]

theorem places_woken {served : Awaited} (awaited : Awaited) (held : Finset (Fin n)) {i : Fin n}
    (waits : served.waits (state.thread i) = true) :
    places awaited ({i} ∪ held) (state.setThread i (state.thread i).woken) =
      Function.update (places awaited held state) i
        (if awaited = served then .notified else .away) := by
  obtain ⟨call, thread, awaits⟩ := Awaited.exists_of_waits waits
  funext j
  by_cases same : j = i
  · subst same
    simp [places, setThread, thread, QueueThread.woken, Awaited.enters, awaits, eq_comm]
  · simp [places, setThread, same]

theorem places_of_waits {awaited : Awaited} {held : Finset (Fin n)} {i : Fin n}
    (waits : awaited.waits (state.thread i) = true) : places awaited held state i = .parked := by
  simp [places, waits]

theorem waits_of_parked {awaited : Awaited} {held : Finset (Fin n)} {i : Fin n}
    (parked : places awaited held state i = .parked) : awaited.waits (state.thread i) = true := by
  unfold places at parked
  split at parked
  · assumption
  · split at parked <;> cases parked

theorem places_notifyOne_of_ne {awaited served : Awaited} {notified : Option (Fin n)}
    (notifies : state.notifyOne served.waits notified = some next) (held : Finset (Fin n))
    (other : awaited ≠ served) :
    places awaited (notified.toFinset ∪ held) next = places awaited held state := by
  cases notified with
  | none =>
      simp only [notifyOne] at notifies
      split at notifies <;> cases notifies
      simp
  | some i =>
      simp only [notifyOne] at notifies
      split at notifies <;> cases notifies
      rename_i waits
      obtain ⟨call, thread, awaits⟩ := Awaited.exists_of_waits waits
      have away : places awaited held state i = .away := by
        apply places_of_ne (Or.inr thread)
        rw [awaits]
        exact fun same => other (Option.some.inj same).symm
      rw [Option.toFinset_some, places_woken awaited held waits, if_neg other, ← away,
        Function.update_eq_self]

theorem places_notifyOne {served : Awaited} {notified : Option (Fin n)}
    (notifies : state.notifyOne served.waits notified = some next) (held : Finset (Fin n)) :
    (∃ i, places served held state i = .parked ∧
        places served (notified.toFinset ∪ held) next =
          Function.update (places served held state) i .notified) ∨
      (∀ i, places served held state i ≠ .parked) ∧
        places served (notified.toFinset ∪ held) next = places served held state := by
  cases notified with
  | none =>
      simp only [notifyOne] at notifies
      split at notifies <;> cases notifies
      rename_i nobody
      refine Or.inr ⟨fun i parked => ?_, by simp⟩
      have waits := waits_of_parked parked
      rw [nobody i] at waits
      cases waits
  | some i =>
      simp only [notifyOne] at notifies
      split at notifies <;> cases notifies
      rename_i waits
      refine Or.inl ⟨i, places_of_waits waits, ?_⟩
      rw [Option.toFinset_some, places_woken served held waits, if_pos rfl]

theorem result_of_completes {i : Fin n} {call : QueueCall α}
    {through : QueueResult α × BoundQueue α N} (notified : Option (Fin n))
    (entered : state.thread i = .entering call) (ran : state.queue.run call = .completes through) :
    result (state, .enter i notified) = some through := by
  simp [result, criticalSection, entered, ran]

theorem result_of_waits {i : Fin n} {call : QueueCall α} (notified : Option (Fin n))
    (entered : state.thread i = .entering call) (ran : state.queue.run call = .waits) :
    result (state, .enter i notified) = none := by
  simp [result, criticalSection, entered, ran]

theorem renew_of_none (held : Finset (Fin n)) (through : result (state, action) = none) :
    renew held (state, action) = held.erase action.thread := by
  cases action <;> simp [renew, notifies, through]

theorem renew_of_serves {i : Fin n} {notified : Option (Fin n)} {served : Awaited}
    {through : QueueResult α} {queue : BoundQueue α N} (held : Finset (Fin n))
    (completed : result (state, .enter i notified) = some (through, queue))
    (serves : through.serves = some served) :
    renew held (state, .enter i notified) = notified.toFinset ∪ held.erase i := by
  cases through with
  | pushed data => simp [renew, notifies, completed, QueueAction.thread]
  | popped item => simp [renew, notifies, completed, QueueAction.thread]
  | aborted => cases serves
  | size items => cases serves

theorem notify_of_serves {notified : Option (Fin n)} {served : Awaited} {through : QueueResult α}
    (serves : through.serves = some served) :
    state.notify notified through = state.notifyOne served.waits notified := by
  cases through <;> cases serves <;> rfl

theorem monitor_setThread (awaited : Awaited) (held : Finset (Fin n)) (i : Fin n)
    (thread : QueueThread α) :
    monitor awaited (held.erase i) (state.setThread i thread) =
      ⟨Function.update (places awaited held state) i
        (if awaited.waits thread then .parked else .away), state.queue.available awaited⟩ := by
  rw [monitor, places_setThread]
  rfl

theorem monitor_of_away {awaited : Awaited} {held : Finset (Fin n)} {i : Fin n}
    {thread : QueueThread α} (away : places awaited held state i = .away)
    (stays : awaited.waits thread = false) :
    monitor awaited (held.erase i) (state.setThread i thread) = monitor awaited held state := by
  rw [monitor_setThread, stays, if_neg Bool.false_ne_true, ← away, Function.update_eq_self]
  rfl

theorem monitor_of_waits {i : Fin n} {call : QueueCall α} (entered : state.thread i = .entering call)
    (waits : state.queue.run call = .waits) (awaited : Awaited) (held : Finset (Fin n)) :
    monitor awaited (held.erase i) (state.setThread i (.waiting call)) = monitor awaited held state ∨
      Monitor.Step (monitor awaited held state)
        (monitor awaited (held.erase i) (state.setThread i (.waiting call))) := by
  obtain ⟨side, awaits, nothing⟩ := BoundQueue.available_of_waits waits
  by_cases same : call.awaits = some awaited
  · right
    rw [awaits] at same
    cases same
    rw [monitor_setThread, Awaited.waits_waiting, awaits, monitor, nothing]
    simp only [decide_true, if_true]
    exact .parks _ i
  · left
    apply monitor_of_away
    · exact places_of_ne (Or.inl entered) same
    · simp [same]

/-- A call that is through takes what it awaits, and notifies one thread of the other side. -/
theorem monitor_of_completes {i : Fin n} {notified : Option (Fin n)} {call : QueueCall α}
    {side : Awaited} {through : QueueResult α} {queue : BoundQueue α N}
    (entered : state.thread i = .entering call) (awaits : call.awaits = some side)
    (completed : state.queue.run call = .completes (through, queue))
    (notifies : ({ state with queue := queue }.setThread i .outside).notifyOne side.other.waits
      notified = some next) (awaited : Awaited) (held : Finset (Fin n)) :
    Monitor.Step (monitor awaited held state)
      (monitor awaited (notified.toFinset ∪ held.erase i) next) := by
  obtain ⟨-, takes, gives⟩ := BoundQueue.available_of_completes awaits completed
  have leaves (awaited : Awaited) :
      places awaited (held.erase i) ({ state with queue := queue }.setThread i .outside) =
        Function.update (places awaited held state) i .away := by
    rw [places_setThread, Awaited.waits_outside, if_neg Bool.false_ne_true]
    rfl
  have stays : next.queue = queue := notifyOne_queue notifies
  unfold monitor
  rw [stays]
  by_cases same : awaited = side
  · subst same
    have others : awaited ≠ awaited.other := by cases awaited <;> nofun
    rw [places_notifyOne_of_ne notifies _ others, leaves, takes]
    exact .takes _ _ i
  · have other : awaited = side.other := by
      cases awaited <;> cases side <;> first | rfl | exact absurd rfl same
    subst other
    have apart : call.awaits ≠ some side.other := by
      rw [awaits]
      exact fun equal => same (Option.some.inj equal).symm
    have away : Function.update (places side.other held state) i .away =
        places side.other held state := by
      rw [← places_of_ne (Or.inl entered) apart, Function.update_eq_self]
    have woken := places_notifyOne notifies (held.erase i)
    rw [leaves, away] at woken
    rw [gives]
    rcases woken with ⟨j, parked, places⟩ | ⟨nobody, places⟩
    · rw [places]
      exact .notifies _ _ j parked
    · rw [places]
      exact .adds _ _ nobody

/-- Until an abort, every step of the threads is one of the monitor's, at both condition
variables. -/
theorem monitor_step (taken : Steps state action next) (running : next.queue.aborted = false)
    (awaited : Awaited) (held : Finset (Fin n)) :
    monitor awaited (renew held (state, action)) next = monitor awaited held state ∨
      Monitor.Step (monitor awaited held state)
        (monitor awaited (renew held (state, action)) next) := by
  cases move_of_step taken with
  | calls i call outside =>
      left
      rw [renew_of_none held rfl]
      exact monitor_of_away (places_of_outside outside) (awaited.waits_entering call)
  | waits i notified call entered ran =>
      rw [renew_of_none held (result_of_waits notified entered ran)]
      exact monitor_of_waits entered ran awaited held
  | throws i notified call entered ran =>
      have aborted : state.queue.aborted = true := BoundQueue.run_throws ran
      rw [show state.queue.aborted = false from running] at aborted
      cases aborted
  | completes i notified call through queue next entered ran notifies =>
      have completed := result_of_completes notified entered ran
      cases awaits : call.awaits with
      | some side =>
          right
          have serves := (BoundQueue.available_of_completes awaits ran).1
          rw [notify_of_serves serves] at notifies
          rw [renew_of_serves held completed serves]
          exact monitor_of_completes entered awaits ran notifies awaited held
      | none =>
          have apart : call.awaits ≠ some awaited := by
            rw [awaits]
            exact (Option.some_ne_none awaited).symm
          cases BoundQueue.ending_of_run ran with
          | pushes data next pushed => cases awaits
          | pops item next popped => cases awaits
          | aborts =>
              cases notifies
              cases running
          | sizes =>
              left
              cases notifies
              have renewed : renew held (state, .enter i notified) = held.erase i := by
                simp [renew, QueueState.notifies, completed, QueueAction.thread]
              rw [renewed]
              exact monitor_of_away (places_of_ne (Or.inl entered) apart) awaited.waits_outside
  | wakes i call waiting =>
      rw [renew_of_none held rfl, QueueAction.thread]
      by_cases awaits : call.awaits = some awaited
      · right
        rw [monitor_setThread, Awaited.waits_entering, if_neg Bool.false_ne_true]
        exact .wakes _ _ i (places_of_waits (by simp [waiting, awaits]))
      · left
        exact monitor_of_away (places_of_ne (Or.inr waiting) awaits) (awaited.waits_entering call)

theorem thread_setThread (i : Fin n) (thread : QueueThread α) :
    (state.setThread i thread).thread = Function.update state.thread i thread := rfl

def Quiet (state : QueueState n N α) : Prop := ∀ i call, state.thread i ≠ .waiting call

theorem Quiet.setThread (quiet : state.Quiet) {i : Fin n} {thread : QueueThread α}
    (leaves : thread.isWaiting = false) : (state.setThread i thread).Quiet := by
  intro j call waiting
  by_cases same : j = i
  · subst same
    rw [thread_setThread, Function.update_self] at waiting
    rw [waiting] at leaves
    cases leaves
  · rw [thread_setThread, Function.update_of_ne same] at waiting
    exact quiet j call waiting

theorem isWaiting_woken (thread : QueueThread α) : thread.woken.isWaiting = false := by
  cases thread <;> rfl

theorem quiet_woken (queue : BoundQueue α N) (thread : Fin n → QueueThread α) :
    QueueState.Quiet ⟨queue, fun i => (thread i).woken⟩ := by
  intro i call waiting
  have woken := isWaiting_woken (thread i)
  rw [show (thread i).woken = .waiting call from waiting] at woken
  cases woken

theorem Quiet.notifyOne {waits : QueueThread α → Bool} {notified : Option (Fin n)}
    (quiet : state.Quiet) (notifies : state.notifyOne waits notified = some next) :
    next.Quiet := by
  unfold QueueState.notifyOne at notifies
  split at notifies <;> split at notifies <;> cases notifies
  · exact quiet.setThread (isWaiting_woken _)
  · exact quiet

theorem Quiet.notify {notified : Option (Fin n)} {through : QueueResult α} (quiet : state.Quiet)
    (notifies : state.notify notified through = some next) : next.Quiet := by
  cases through with
  | pushed data => exact quiet.notifyOne notifies
  | popped item => exact quiet.notifyOne notifies
  | size items =>
      cases notifies
      exact quiet
  | aborted =>
      cases notifies
      exact quiet_woken _ _

/-- The abort wakes everybody, and nobody waits after it. -/
theorem quiet_step (taken : Steps state action next) (aborted : next.queue.aborted = true)
    (quiet : state.queue.aborted = true → state.Quiet) : next.Quiet := by
  cases move_of_step taken with
  | calls i call outside => exact (quiet aborted).setThread rfl
  | waits i notified call entered ran =>
      have running := BoundQueue.running_of_waits ran
      rw [show state.queue.aborted = true from aborted] at running
      cases running
  | throws i notified call entered ran => exact (quiet aborted).setThread rfl
  | completes i notified call through queue next entered ran notifies =>
      cases running : state.queue.aborted with
      | true =>
          have left : ({ state with queue := queue } : QueueState n N α).Quiet := quiet running
          exact (left.setThread rfl).notify notifies
      | false =>
          rw [notify_queue notifies] at aborted
          rw [BoundQueue.abort_of_run ran running aborted] at notifies
          cases notifies
          exact quiet_woken _ _
  | wakes i call waiting => exact (quiet aborted).setThread rfl

theorem notified_append (trace : List (QueueState n N α × QueueAction n α)) (state : QueueState n N α)
    (action : QueueAction n α) :
    notified (trace ++ [(state, action)]) = renew (notified trace) (state, action) := by
  rw [notified, List.foldl_append]
  rfl

theorem served_of_run (run : Run Steps (start n N α) trace state) :
    (state.queue.aborted = false →
        ∀ awaited, (monitor awaited (notified trace) state).Served) ∧
      (state.queue.aborted = true → state.Quiet) := by
  induction run with
  | start =>
      refine ⟨fun _ awaited => ?_, nofun⟩
      rintro ⟨i, parked⟩
      have waits := waits_of_parked parked
      rw [start, Awaited.waits_outside] at waits
      cases waits
  | @step trace state next action before taken ih =>
      refine ⟨fun running awaited => ?_, fun aborted => quiet_step taken aborted ih.2⟩
      have earlier : state.queue.aborted = false := by
        cases aborted : state.queue.aborted with
        | false => rfl
        | true =>
            rw [(items_of_step taken).2 aborted] at running
            cases running
      rw [notified_append]
      rcases monitor_step taken running awaited (notified trace) with same | step
      · rw [same]
        exact ih.1 earlier awaited
      · exact (ih.1 earlier awaited).step step

theorem notified_monitor (awaited : Awaited) :
    (monitor awaited (notified trace) state).notified = (resumes awaited trace state).card := by
  unfold Monitor.notified resumes monitor places
  congr 1
  ext i
  simp only [Finset.mem_filter, Finset.mem_univ, true_and]
  cases state.thread i with
  | outside => simp [Awaited.enters]
  | entering call => simp [Awaited.enters, and_comm]
  | waiting call =>
      simp only [Awaited.waits_waiting, decide_eq_true_eq, Awaited.enters]
      split <;> simp

/-- Whatever the order of the critical sections, a thread that is left parked is not needed: the
notified threads are as many as the items, or the free places. -/
theorem no_lost_wakeUp (run : Run Steps (start n N α) trace state) : NoLostWakeUp trace state := by
  obtain ⟨served, quiet⟩ := served_of_run run
  refine
    { consumers := ?_
      producers := ?_
      afterAbort := quiet }
  · rintro running ⟨i, parked⟩
    have enough := served running .item ⟨i, places_of_waits (by simp [parked, QueueCall.awaits])⟩
    rw [notified_monitor] at enough
    exact enough
  · rintro running ⟨i, data, parked⟩
    have enough := served running .room ⟨i, places_of_waits (by simp [parked, QueueCall.awaits])⟩
    rw [notified_monitor] at enough
    exact enough

/-- Two consumers wait, and a third one is faster than the first that is notified, which waits
again. The second push notifies the other. -/
def stealingActions : List (QueueAction 4 Nat) :=
  [.call 0 .pop, .enter 0 none, .call 1 .pop, .enter 1 none, .call 2 (.push 5), .enter 2 (some 0),
    .call 3 .pop, .enter 3 none, .enter 0 none, .call 2 (.push 7), .enter 2 (some 1)]

theorem no_lost_wakeUp_stealing : ∃ state,
    NoLostWakeUp (visits perform (start 4 2 Nat) stealingActions) state ∧
      state.queue.items = [7] ∧ (state.thread 0).waitsForItem = true ∧
      notified (visits perform (start 4 2 Nat) stealingActions) = {1} := by
  have runs : (replay perform (start 4 2 Nat) stealingActions).map
      (fun state => (state.queue.items, (state.thread 0).waitsForItem)) = some ([7], true) := rfl
  obtain ⟨state, replayed, final⟩ := Option.map_eq_some_iff.mp runs
  obtain ⟨items, waits⟩ := Prod.mk.inj final
  exact ⟨state, no_lost_wakeUp (run_of_replay perform _ _ state replayed), items, waits, by decide⟩

end QueueState

end Imflib.Encoder
