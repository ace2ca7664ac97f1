import Mathlib.Algebra.BigOperators.Fin
import Imflib.Base.ConditionVariable
import Imflib.Base.Text
import Imflib.Base.Transition
import Imflib.Encoder.BoundQueue

/-! The encoder threads of `imfenc`: one decoder feeds `n` workers through
`encodingQueue`. Every critical section, and each of the two reads of the workers'
loop test, is one step. -/

namespace Imflib.Encoder

structure RawVideoFrame where
  frameNumber : Nat
  deriving DecidableEq, Repr

/-- What the decoder hands to a worker. The encoder and the output list are the
same for all frames. -/
structure ThreadContext where
  videoFrame : RawVideoFrame
  targetFile : String
  deriving DecidableEq, Repr

/-- `<outFilePath>/<frame number, seven digits at least>.j2k` -/
def targetFile (outFilePath : String) (rawFrame : RawVideoFrame) : String :=
  outFilePath ++ "/" ++
    String.ofList (Text.padLeft 7 '0' (Text.digits rawFrame.frameNumber)) ++ ".j2k"

/-- `HandleVideoFrame_MT` up to its push. -/
def threadContext (outFilePath : String) (rawFrame : RawVideoFrame) : ThreadContext :=
  ⟨rawFrame, targetFile outFilePath rawFrame⟩

/-- Where a worker stands in `EncodeVideoFromQueue`. -/
inductive WorkerPc where
  | readSize
  | readDone
  | callPop
  | parked
  | woken
  | encoding (context : ThreadContext)
  | listing (context : ThreadContext)
  | left
  | thrown
  deriving DecidableEq, Repr

/-- Where the main thread stands: inside `Decode`, inside the push of a frame, or
behind the done callback. -/
inductive DecoderPc where
  | decoding
  | pushing (context : ThreadContext)
  | parked (context : ThreadContext)
  | woken (context : ThreadContext)
  | joining
  | joined
  | thrown
  deriving DecidableEq, Repr

/-- `cv_pop_.notify_one()`: only the decoder ever waits for room in the queue. -/
def DecoderPc.notified : DecoderPc → DecoderPc
  | .parked context => .woken context
  | pc => pc

def DecoderPc.inHand : DecoderPc → List ThreadContext
  | .pushing context => [context]
  | .parked context => [context]
  | .woken context => [context]
  | _ => []

structure EncodeState (n : Nat) where
  encodingQueue : BoundQueue ThreadContext 8
  gDone : Bool
  currentFrame : Nat
  decoder : DecoderPc
  worker : Fin n → WorkerPc
  j2kFiles : List String
  /-- The history of completed pushes and of encoded frames. -/
  pushed : List ThreadContext
  encoded : List ThreadContext

inductive Action (n : Nat) where
  | decodeFrame
  | push (notified : Option (Fin n))
  | finish
  | join
  | work (i : Fin n)
  | wakeDecoder
  | wakeWorker (i : Fin n)
  deriving DecidableEq, Repr

variable {n : Nat}

namespace EncodeState

def start (n : Nat) : EncodeState n :=
  { encodingQueue := .empty, gDone := false, currentFrame := 0, decoder := .decoding,
    worker := fun _ => .readSize, j2kFiles := [], pushed := [], encoded := [] }

def setWorker (state : EncodeState n) (i : Fin n) (pc : WorkerPc) : EncodeState n :=
  { state with worker := Function.update state.worker i pc }

/-- `cv_push_.notify_one()`: some waiting worker is woken, if there is one. -/
def notifyWorker (state : EncodeState n) : Option (Fin n) → Option (EncodeState n)
  | some i => if state.worker i = .parked then some (state.setWorker i .woken) else none
  | none => if ∀ i, state.worker i ≠ .parked then some state else none

/-- The critical section of `encodingQueue.push`. -/
def push (state : EncodeState n) (context : ThreadContext) (notified : Option (Fin n)) :
    Option (EncodeState n) :=
  match state.encodingQueue.push context with
  | .waits => some { state with decoder := .parked context }
  | .throws => some { state with decoder := .thrown }
  | .completes queue =>
      { state with
        encodingQueue := queue
        decoder := .decoding
        pushed := state.pushed ++ [context] }.notifyWorker notified

/-- The critical section of `encodingQueue.pop`. -/
def pop (state : EncodeState n) (i : Fin n) : EncodeState n :=
  match state.encodingQueue.pop with
  | .waits => state.setWorker i .parked
  | .throws => state.setWorker i .thrown
  | .completes (context, queue) =>
      { state with
        encodingQueue := queue
        decoder := state.decoder.notified }.setWorker i (.encoding context)

/-- The next step of a worker in `EncodeVideoFromQueue`. -/
def work (state : EncodeState n) (i : Fin n) : Option (EncodeState n) :=
  match state.worker i with
  | .readSize =>
      if state.encodingQueue.size > 0 then some (state.setWorker i .callPop)
      else some (state.setWorker i .readDone)
  | .readDone =>
      if state.gDone = false then some (state.setWorker i .callPop)
      else some (state.setWorker i .left)
  | .callPop => some (state.pop i)
  | .woken => some (state.pop i)
  | .encoding context =>
      some ({ state with encoded := state.encoded ++ [context] }.setWorker i (.listing context))
  | .listing context =>
      some ({ state with
        j2kFiles := state.j2kFiles ++ [context.targetFile] }.setWorker i .readSize)
  | .parked => none
  | .left => none
  | .thrown => none

/-- One step of some thread. `wakeDecoder` and `wakeWorker` are the wake-ups without
a notification that condition variables may have. -/
def step (outFilePath : String) (state : EncodeState n) : Action n → Option (EncodeState n)
  | .decodeFrame =>
      match state.decoder with
      | .decoding =>
          some { state with
            currentFrame := state.currentFrame + 1
            decoder := .pushing (threadContext outFilePath ⟨state.currentFrame + 1⟩) }
      | _ => none
  | .push notified =>
      match state.decoder with
      | .pushing context => state.push context notified
      | .woken context => state.push context notified
      | _ => none
  | .finish =>
      match state.decoder with
      | .decoding => some { state with gDone := true, decoder := .joining }
      | _ => none
  | .join =>
      if state.decoder = .joining ∧ ∀ i, state.worker i = .left then
        some { state with
          decoder := .joined
          j2kFiles := state.j2kFiles.mergeSort fun first second => decide (first ≤ second) }
      else none
  | .work i => state.work i
  | .wakeDecoder =>
      match state.decoder with
      | .parked context => some { state with decoder := .woken context }
      | _ => none
  | .wakeWorker i =>
      if state.worker i = .parked then some (state.setWorker i .woken) else none

/-- The relation behind `step`. -/
def Steps (outFilePath : String) (state : EncodeState n) (action : Action n)
    (next : EncodeState n) : Prop :=
  state.step outFilePath action = some next

/-- Everything a step can do while the queue is in use, one case for each branch. -/
inductive Move (outFilePath : String) (state : EncodeState n) :
    Action n → EncodeState n → Prop where
  | decodes (idle : state.decoder = .decoding) :
      Move outFilePath state .decodeFrame { state with
        currentFrame := state.currentFrame + 1
        decoder := .pushing (threadContext outFilePath ⟨state.currentFrame + 1⟩) }
  | pushWaits (notified : Option (Fin n)) (context : ThreadContext)
      (inHand : state.decoder.inHand = [context]) :
      Move outFilePath state (.push notified) { state with decoder := .parked context }
  | pushes (notified : Option (Fin n)) (context : ThreadContext)
      (queue : BoundQueue ThreadContext 8) (worker : Fin n → WorkerPc)
      (inHand : state.decoder.inHand = [context])
      (appended : queue.items = state.encodingQueue.items ++ [context])
      (running : queue.aborted = false)
      (wakes : worker = state.worker ∨
        ∃ i, state.worker i = .parked ∧ worker = Function.update state.worker i .woken) :
      Move outFilePath state (.push notified) { state with
        encodingQueue := queue
        decoder := .decoding
        pushed := state.pushed ++ [context]
        worker := worker }
  | finishes (idle : state.decoder = .decoding) :
      Move outFilePath state .finish { state with gDone := true, decoder := .joining }
  | joins (joining : state.decoder = .joining) (left : ∀ i, state.worker i = .left) :
      Move outFilePath state .join { state with
        decoder := .joined
        j2kFiles := state.j2kFiles.mergeSort fun first second => decide (first ≤ second) }
  | commitsOnSize (i : Fin n) (pc : state.worker i = .readSize)
      (present : state.encodingQueue.items ≠ []) :
      Move outFilePath state (.work i) (state.setWorker i .callPop)
  | seesEmpty (i : Fin n) (pc : state.worker i = .readSize)
      (empty : state.encodingQueue.items = []) :
      Move outFilePath state (.work i) (state.setWorker i .readDone)
  | commitsNotDone (i : Fin n) (pc : state.worker i = .readDone) (undone : state.gDone = false) :
      Move outFilePath state (.work i) (state.setWorker i .callPop)
  | leaves (i : Fin n) (pc : state.worker i = .readDone) (done : state.gDone = true) :
      Move outFilePath state (.work i) (state.setWorker i .left)
  | popWaits (i : Fin n) (pc : state.worker i = .callPop ∨ state.worker i = .woken)
      (empty : state.encodingQueue.items = []) :
      Move outFilePath state (.work i) (state.setWorker i .parked)
  | pops (i : Fin n) (context : ThreadContext) (queue : BoundQueue ThreadContext 8)
      (pc : state.worker i = .callPop ∨ state.worker i = .woken)
      (taken : state.encodingQueue.items = context :: queue.items)
      (running : queue.aborted = false) :
      Move outFilePath state (.work i) ({ state with
        encodingQueue := queue
        decoder := state.decoder.notified }.setWorker i (.encoding context))
  | encodes (i : Fin n) (context : ThreadContext) (pc : state.worker i = .encoding context) :
      Move outFilePath state (.work i)
        ({ state with encoded := state.encoded ++ [context] }.setWorker i (.listing context))
  | lists (i : Fin n) (context : ThreadContext) (pc : state.worker i = .listing context) :
      Move outFilePath state (.work i) ({ state with
        j2kFiles := state.j2kFiles ++ [context.targetFile] }.setWorker i .readSize)
  | decoderWakes (context : ThreadContext) (parked : state.decoder = .parked context) :
      Move outFilePath state .wakeDecoder { state with decoder := .woken context }
  | workerWakes (i : Fin n) (parked : state.worker i = .parked) :
      Move outFilePath state (.wakeWorker i) (state.setWorker i .woken)

theorem push_cases {outFilePath : String} {state next : EncodeState n} {context : ThreadContext}
    {notified : Option (Fin n)} (running : state.encodingQueue.aborted = false)
    (inHand : state.decoder.inHand = [context])
    (pushed : state.push context notified = some next) :
    Move outFilePath state (.push notified) next := by
  unfold push at pushed
  split at pushed
  · cases pushed
    exact .pushWaits notified context inHand
  · rename_i thrown
    exact absurd (BoundQueue.push_throws thrown) (by simp [running])
  · rename_i queue completed
    obtain ⟨appended, kept⟩ := BoundQueue.push_completes completed
    have stillRunning : queue.aborted = false := kept.trans running
    cases notified with
    | none =>
        simp only [notifyWorker] at pushed
        split at pushed
        · cases pushed
          exact .pushes none context queue state.worker inHand appended stillRunning (.inl rfl)
        · cases pushed
    | some i =>
        simp only [notifyWorker] at pushed
        split at pushed
        · rename_i parked
          cases pushed
          exact .pushes (some i) context queue _ inHand appended stillRunning
            (.inr ⟨i, parked, rfl⟩)
        · cases pushed

theorem pop_cases {outFilePath : String} {state : EncodeState n} {i : Fin n}
    (running : state.encodingQueue.aborted = false)
    (pc : state.worker i = .callPop ∨ state.worker i = .woken) :
    Move outFilePath state (.work i) (state.pop i) := by
  unfold pop
  split
  · rename_i waiting
    exact .popWaits i pc (BoundQueue.pop_waits waiting)
  · rename_i thrown
    exact absurd (BoundQueue.pop_throws thrown) (by simp [running])
  · rename_i context queue completed
    obtain ⟨taken, kept⟩ := BoundQueue.pop_completes completed
    exact .pops i context queue pc taken (kept.trans running)

theorem work_cases {outFilePath : String} {state next : EncodeState n} {i : Fin n}
    (running : state.encodingQueue.aborted = false) (worked : state.work i = some next) :
    Move outFilePath state (.work i) next := by
  unfold work at worked
  cases pc : state.worker i with
  | readSize =>
      simp only [pc] at worked
      split at worked
      · rename_i positive
        rw [BoundQueue.size_eq_length] at positive
        cases worked
        exact .commitsOnSize i pc (List.ne_nil_of_length_pos positive)
      · rename_i zero
        rw [BoundQueue.size_eq_length] at zero
        cases worked
        exact .seesEmpty i pc (List.length_eq_zero_iff.mp (by omega))
  | readDone =>
      simp only [pc] at worked
      split at worked
      · cases worked
        exact .commitsNotDone i pc ‹_›
      · cases worked
        exact .leaves i pc (by simpa using ‹¬state.gDone = false›)
  | callPop =>
      simp only [pc] at worked
      cases worked
      exact pop_cases running (.inl pc)
  | woken =>
      simp only [pc] at worked
      cases worked
      exact pop_cases running (.inr pc)
  | encoding context =>
      simp only [pc] at worked
      cases worked
      exact .encodes i context pc
  | listing context =>
      simp only [pc] at worked
      cases worked
      exact .lists i context pc
  | parked => simp [pc] at worked
  | left => simp [pc] at worked
  | thrown => simp [pc] at worked

theorem step_cases {outFilePath : String} {state next : EncodeState n} {action : Action n}
    (running : state.encodingQueue.aborted = false)
    (taken : state.Steps outFilePath action next) : Move outFilePath state action next := by
  unfold Steps step at taken
  cases action with
  | decodeFrame =>
      cases pc : state.decoder with
      | decoding =>
          simp only [pc] at taken
          cases taken
          exact .decodes pc
      | _ => simp [pc] at taken
  | push notified =>
      cases pc : state.decoder with
      | pushing context =>
          simp only [pc] at taken
          exact push_cases running (by simp [pc, DecoderPc.inHand]) taken
      | woken context =>
          simp only [pc] at taken
          exact push_cases running (by simp [pc, DecoderPc.inHand]) taken
      | _ => simp [pc] at taken
  | finish =>
      cases pc : state.decoder with
      | decoding =>
          simp only [pc] at taken
          cases taken
          exact .finishes pc
      | _ => simp [pc] at taken
  | join =>
      simp only at taken
      split at taken
      · rename_i ready
        cases taken
        exact .joins ready.1 ready.2
      · cases taken
  | work i => exact work_cases running taken
  | wakeDecoder =>
      cases pc : state.decoder with
      | parked context =>
          simp only [pc] at taken
          cases taken
          exact .decoderWakes context pc
      | _ => simp [pc] at taken
  | wakeWorker i =>
      simp only at taken
      split at taken
      · cases taken
        exact .workerWakes i ‹_›
      · cases taken

theorem running_of_step {outFilePath : String} {state next : EncodeState n} {action : Action n}
    (running : state.encodingQueue.aborted = false)
    (taken : state.Steps outFilePath action next) : next.encodingQueue.aborted = false := by
  cases step_cases running taken with
  | pushes _ _ _ _ _ _ stillRunning _ => exact stillRunning
  | pops _ _ _ _ _ stillRunning => exact stillRunning
  | _ => exact running

def total (weight : WorkerPc → Nat) (worker : Fin n → WorkerPc) : Nat :=
  ∑ i, weight (worker i)

theorem total_update (weight : WorkerPc → Nat) (worker : Fin n → WorkerPc) (i : Fin n)
    (pc : WorkerPc) :
    total weight (Function.update worker i pc) + weight (worker i) =
      total weight worker + weight pc :=
  ConditionVariable.sum_update_add weight worker i pc

theorem total_update_of_eq (weight : WorkerPc → Nat) (worker : Fin n → WorkerPc) (i : Fin n)
    (pc : WorkerPc) (same : weight (worker i) = weight pc) :
    total weight (Function.update worker i pc) = total weight worker := by
  have moved := total_update weight worker i pc
  omega

theorem total_wakes (weight : WorkerPc → Nat) {worker next : Fin n → WorkerPc}
    (same : weight .parked = weight .woken)
    (wakes : next = worker ∨
      ∃ i, worker i = .parked ∧ next = Function.update worker i .woken) :
    total weight next = total weight worker := by
  rcases wakes with rfl | ⟨i, parked, rfl⟩
  · rfl
  · exact total_update_of_eq weight worker i .woken (by rw [parked, same])

end EncodeState

end Imflib.Encoder
