import Mathlib.Tactic.Common

/-! The blocking queue between the decoder and the encoder threads. Every operation
holds the queue's mutex for one critical section, which is what is modelled here. -/

namespace Imflib.Encoder

universe u

variable {α : Type u} {N : Nat}

/-- A `boost::circular_buffer` never holds more items than its capacity. -/
structure CircularBuffer (α : Type u) (N : Nat) where
  items : List α
  bounded : items.length ≤ N

namespace CircularBuffer

def empty : CircularBuffer α N := ⟨[], Nat.zero_le N⟩

def full (buffer : CircularBuffer α N) : Bool := buffer.items.length = N

def pushBack (buffer : CircularBuffer α N) (item : α) : CircularBuffer α N :=
  ⟨(buffer.items ++ [item]).drop (buffer.items.length + 1 - N), by simp; omega⟩

def popFront (buffer : CircularBuffer α N) : CircularBuffer α N :=
  ⟨buffer.items.tail, by have := buffer.bounded; simp; omega⟩

@[simp] theorem items_empty : (empty : CircularBuffer α N).items = [] := rfl

@[simp] theorem items_popFront (buffer : CircularBuffer α N) :
    buffer.popFront.items = buffer.items.tail := rfl

theorem items_pushBack (buffer : CircularBuffer α N) (item : α) (room : buffer.full = false) :
    (buffer.pushBack item).items = buffer.items ++ [item] := by
  have below : buffer.items.length < N :=
    Nat.lt_of_le_of_ne buffer.bounded (of_decide_eq_false room)
  have nothing : buffer.items.length + 1 - N = 0 := by omega
  simp [pushBack, nothing]

end CircularBuffer

/-- How one critical section of a queue operation ends: the thread waits on its
condition variable, gets `operation_aborted`, or is through. -/
inductive Outcome (α : Type u) where
  | waits
  | throws
  | completes (result : α)

structure BoundQueue (α : Type u) (N : Nat) where
  buffer : CircularBuffer α N
  aborted : Bool

namespace BoundQueue

def empty : BoundQueue α N := ⟨.empty, false⟩

def push (queue : BoundQueue α N) (data : α) : Outcome (BoundQueue α N) :=
  if !(!queue.buffer.full || queue.aborted) then .waits
  else if queue.aborted then .throws
  else .completes { queue with buffer := queue.buffer.pushBack data }

def pop (queue : BoundQueue α N) : Outcome (α × BoundQueue α N) :=
  match queue.buffer.items with
  | [] => if queue.aborted then .throws else .waits
  | result :: _ =>
      if queue.aborted then .throws
      else .completes (result, { queue with buffer := queue.buffer.popFront })

def abort (queue : BoundQueue α N) : BoundQueue α N := { queue with aborted := true }

def size (queue : BoundQueue α N) : Nat := queue.buffer.items.length

def items (queue : BoundQueue α N) : List α := queue.buffer.items

@[simp] theorem items_empty : (empty : BoundQueue α N).items = [] := rfl

@[simp] theorem aborted_empty : (empty : BoundQueue α N).aborted = false := rfl

theorem size_eq_length (queue : BoundQueue α N) : queue.size = queue.items.length := rfl

theorem push_completes {queue next : BoundQueue α N} {data : α}
    (pushed : queue.push data = .completes next) :
    next.items = queue.items ++ [data] ∧ next.aborted = queue.aborted := by
  unfold push at pushed
  split at pushed
  · cases pushed
  · split at pushed
    · cases pushed
    · rename_i passed running
      have room : queue.buffer.full = false := by simpa [running] using passed
      cases pushed
      exact ⟨queue.buffer.items_pushBack data room, rfl⟩

theorem push_throws {queue : BoundQueue α N} {data : α} (thrown : queue.push data = .throws) :
    queue.aborted = true := by
  unfold push at thrown
  split at thrown
  · cases thrown
  · split at thrown
    · assumption
    · cases thrown

theorem push_waits {queue : BoundQueue α N} {data : α} (waiting : queue.push data = .waits) :
    queue.size = N := by
  unfold push at waiting
  split at waiting
  · rename_i blocked
    cases full : queue.buffer.full with
    | true => exact of_decide_eq_true full
    | false => simp [full] at blocked
  · split at waiting <;> cases waiting

theorem pop_completes {queue next : BoundQueue α N} {result : α}
    (popped : queue.pop = .completes (result, next)) :
    queue.items = result :: next.items ∧ next.aborted = queue.aborted := by
  unfold pop at popped
  split at popped
  · split at popped <;> cases popped
  · rename_i head rest shape
    split at popped
    · cases popped
    · cases popped
      simp [items, shape]

theorem pop_throws {queue : BoundQueue α N} (thrown : queue.pop = .throws) :
    queue.aborted = true := by
  unfold pop at thrown
  split at thrown
  · split at thrown
    · assumption
    · cases thrown
  · split at thrown
    · assumption
    · cases thrown

theorem pop_waits {queue : BoundQueue α N} (waiting : queue.pop = .waits) : queue.items = [] := by
  unfold pop at waiting
  split at waiting
  · assumption
  · split at waiting <;> cases waiting

theorem pop_of_items {queue : BoundQueue α N} {result : α} {rest : List α}
    (running : queue.aborted = false) (present : queue.items = result :: rest) :
    ∃ next, queue.pop = .completes (result, next) ∧ next.items = rest := by
  have shape : queue.buffer.items = result :: rest := present
  refine ⟨{ queue with buffer := queue.buffer.popFront }, ?_, ?_⟩
  · simp [pop, shape, running]
  · simp [items, shape]

end BoundQueue

end Imflib.Encoder
