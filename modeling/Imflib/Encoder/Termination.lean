import Imflib.Encoder.FileOrder
import Imflib.Encoder.Shutdown

/-! The encoder threads come to an end: how many steps they take, and where they stop. -/

namespace Imflib.Encoder

open Transition ConditionVariable

variable {n : Nat}

def WorkerPc.rank : WorkerPc → Nat
  | .encoding _ => 5
  | .listing _ => 4
  | .readSize => 3
  | .readDone => 2
  | .callPop | .woken => 1
  | .parked | .left | .thrown => 0

def DecoderPc.rank : DecoderPc → Nat
  | .pushing _ | .woken _ => 10
  | .parked _ => 9
  | .decoding => 2
  | .joining => 1
  | .joined | .thrown => 0

def WorkerPc.waiting : WorkerPc → Waiting
  | .parked => .parked
  | .woken => .notified
  | _ => .away

/-- A condition variable wakes a thread without notification. -/
def Action.isWakeUp : Action n → Bool
  | .wakeDecoder => true
  | .wakeWorker _ => true
  | _ => false

def Action.cost : Action n → Nat
  | .decodeFrame => 9
  | .wakeDecoder | .wakeWorker _ => 2
  | _ => 0

def wakeUps (trace : List (EncodeState n × Action n)) : Nat :=
  trace.countP fun visited => visited.2.isWakeUp

namespace EncodeState

variable {outFilePath : String} {state next : EncodeState n} {action : Action n}

def rank (state : EncodeState n) : Nat :=
  total WorkerPc.rank state.worker + 6 * state.encodingQueue.items.length + state.decoder.rank

/-- The workers as `cv_push_` sees them. -/
def monitor (state : EncodeState n) : Monitor (Fin n) :=
  ⟨fun i => (state.worker i).waiting, state.encodingQueue.items.length⟩

theorem push_from {notified : Option (Fin n)}
    (taken : state.Steps outFilePath (.push notified) next) :
    ∃ context, (state.decoder = .pushing context ∨ state.decoder = .woken context) ∧
      state.push context notified = some next := by
  unfold Steps step at taken
  cases pc : state.decoder with
  | pushing context =>
      simp only [pc] at taken
      exact ⟨context, .inl rfl, taken⟩
  | woken context =>
      simp only [pc] at taken
      exact ⟨context, .inr rfl, taken⟩
  | _ => simp [pc] at taken

theorem push_blocks_or_notifies {notified : Option (Fin n)}
    (running : state.encodingQueue.aborted = false)
    (taken : state.Steps outFilePath (.push notified) next) :
    (∃ context, next = { state with decoder := .parked context } ∧
        state.encodingQueue.items.length = 8) ∨
      next.decoder = .decoding ∧
        next.encodingQueue.items.length = state.encodingQueue.items.length + 1 ∧
        ((∃ i, state.worker i = .parked ∧
            next.worker = Function.update state.worker i .woken) ∨
          (∀ i, state.worker i ≠ .parked) ∧ next.worker = state.worker) := by
  obtain ⟨context, -, pushed⟩ := push_from taken
  unfold push at pushed
  split at pushed
  · rename_i waits
    cases pushed
    exact .inl ⟨context, rfl, BoundQueue.push_waits waits⟩
  · rename_i throws
    have aborted := BoundQueue.push_throws throws
    rw [running] at aborted
    cases aborted
  · rename_i queue completes
    have longer : queue.items.length = state.encodingQueue.items.length + 1 := by
      rw [(BoundQueue.push_completes completes).1, List.length_append, List.length_singleton]
    unfold notifyWorker at pushed
    split at pushed
    · rename_i i
      split at pushed
      · rename_i parked
        cases pushed
        exact .inr ⟨rfl, longer, .inl ⟨i, parked, rfl⟩⟩
      · cases pushed
    · split at pushed
      · rename_i nobody
        cases pushed
        exact .inr ⟨rfl, longer, .inr ⟨nobody, rfl⟩⟩
      · cases pushed

theorem rank_setWorker (worker : Fin n → WorkerPc) {i : Fin n} {before after : WorkerPc}
    (at_ : worker i = before) :
    total WorkerPc.rank (Function.update worker i after) + before.rank =
      total WorkerPc.rank worker + after.rank := by
  rw [← at_]
  exact total_update WorkerPc.rank worker i after

theorem rank_notified (pc : DecoderPc) : pc.notified.rank ≤ pc.rank + 1 := by
  cases pc <;> simp [DecoderPc.notified, DecoderPc.rank]

theorem rank_of_setWorker {i : Fin n} {before after : WorkerPc} {cost : Nat}
    (at_ : state.worker i = before) (paid : after.rank + 1 ≤ before.rank + cost)
    (worker : next.worker = Function.update state.worker i after)
    (queue : next.encodingQueue = state.encodingQueue) (decoder : next.decoder = state.decoder) :
    next.rank + 1 ≤ state.rank + cost := by
  have moved := @rank_setWorker _ state.worker i _ after at_
  rw [rank, rank, worker, queue, decoder]
  omega

/-- Every step that is no wake-up uses up some of what a frame brings with it. -/
theorem rank_of_step (running : state.encodingQueue.aborted = false)
    (taken : state.Steps outFilePath action next) : next.rank + 1 ≤ state.rank + action.cost := by
  have pushing {notified : Option (Fin n)} (taken : state.Steps outFilePath (.push notified) next) :
      next.rank + 1 ≤ state.rank := by
    obtain ⟨context, pc, -⟩ := push_from taken
    have ten : state.decoder.rank = 10 := by rcases pc with pc | pc <;> rw [pc] <;> rfl
    rcases push_blocks_or_notifies running taken with
      ⟨other, rfl, -⟩ | ⟨decoder, longer, woken | same⟩
    · rw [rank, rank, ten, show DecoderPc.rank (.parked other) = 9 from rfl]
    · obtain ⟨i, parked, worker⟩ := woken
      have moved := @rank_setWorker _ state.worker i _ .woken parked
      rw [← worker, show WorkerPc.rank .parked = 0 from rfl,
        show WorkerPc.rank .woken = 1 from rfl] at moved
      rw [rank, rank, ten, decoder, longer, show DecoderPc.rank .decoding = 2 from rfl]
      omega
    · rw [rank, rank, ten, decoder, longer, same.2, show DecoderPc.rank .decoding = 2 from rfl]
      omega
  cases step_cases running taken with
  | decodes idle =>
      simp only [rank, idle, DecoderPc.rank, Action.cost]
      omega
  | pushWaits | pushes => exact pushing taken
  | finishes idle =>
      simp only [rank, idle, DecoderPc.rank, Action.cost]
      omega
  | joins joining left =>
      simp only [rank, joining, DecoderPc.rank, Action.cost]
      omega
  | popWaits i pc empty =>
      have one : (state.worker i).rank = 1 := by rcases pc with pc | pc <;> rw [pc] <;> rfl
      have paid : WorkerPc.rank .parked + 1 ≤ (state.worker i).rank := one.symm.le
      exact rank_of_setWorker rfl paid rfl rfl rfl
  | pops i context queue pc popped still =>
      have moved := @rank_setWorker _ state.worker i _ (.encoding context) rfl
      have one : (state.worker i).rank = 1 := by rcases pc with pc | pc <;> rw [pc] <;> rfl
      have decoder := rank_notified state.decoder
      have shorter := congrArg List.length popped
      rw [List.length_cons] at shorter
      rw [one, show WorkerPc.rank (.encoding context) = 5 from rfl] at moved
      simp only [rank, setWorker, Action.cost]
      omega
  | decoderWakes context parked =>
      simp only [rank, parked, DecoderPc.rank, Action.cost]
      omega
  | commitsOnSize i pc | seesEmpty i pc | commitsNotDone i pc | leaves i pc | encodes i _ pc
    | lists i _ pc | workerWakes i pc =>
      refine rank_of_setWorker pc ?_ rfl rfl rfl
      simp only [WorkerPc.rank, Action.cost]
      omega

theorem sum_cost {trace : List (EncodeState n × Action n)}
    (run : Run (Steps outFilePath) (start n) trace state) :
    (trace.map fun visited => visited.2.cost).sum = 9 * state.currentFrame + 2 * wakeUps trace := by
  induction run with
  | start => rfl
  | @step trace state next action before taken ih =>
      have running := (conserved_of_reachable ⟨trace, before⟩).running
      have each : action.cost + 9 * state.currentFrame =
          9 * next.currentFrame + 2 * wakeUps [(state, action)] := by
        cases step_cases running taken <;>
          simp [Action.cost, wakeUps, Action.isWakeUp, setWorker] <;> omega
      have counted : wakeUps (trace ++ [(state, action)]) =
          wakeUps trace + wakeUps [(state, action)] := List.countP_append
      rw [List.map_append, List.sum_append, List.map_singleton, List.sum_singleton, ih, counted]
      dsimp only
      omega

theorem rank_start (n : Nat) : (start n).rank = 3 * n + 2 := by
  simp only [rank, start, total, WorkerPc.rank, DecoderPc.rank, BoundQueue.items_empty,
    Finset.sum_const, Finset.card_univ, Fintype.card_fin, smul_eq_mul, List.length_nil]
  omega

/-- No run goes on forever without new frames: its length is bounded by the workers, the frames that
have been decoded, and the wake-ups without notification. -/
theorem encoding_bounded {trace : List (EncodeState n × Action n)}
    (run : Run (Steps outFilePath) (start n) trace state) :
    trace.length ≤ 3 * n + 2 + 9 * state.currentFrame + 2 * wakeUps trace := by
  obtain ⟨-, bound⟩ := run.length_le (fun state => Conserved outFilePath state) rank Action.cost
    (conserved_start outFilePath n) (fun _ _ _ sound taken => conserved_of_step sound taken)
    fun _ _ _ sound taken => rank_of_step sound.running taken
  rw [sum_cost run, rank_start] at bound
  omega

/-- Nothing moves any more, unless a thread is woken without notification. -/
def Halted (outFilePath : String) (state : EncodeState n) : Prop :=
  ∀ action, action.isWakeUp = false → state.step outFilePath action = none

structure Awake (state : EncodeState n) : Prop where
  decoder : state.decoder ≠ .thrown
  workers : ∀ i, state.worker i ≠ .thrown
  full : ∀ context, state.decoder = .parked context → state.encodingQueue.items.length = 8
  served : state.monitor.Served

theorem awake_start (n : Nat) : (start n).Awake := by
  refine ⟨?_, fun i => ?_, fun context parked => ?_, fun parked => ?_⟩
  · simp [start]
  · simp [start]
  · simp [start] at parked
  · exact Nat.zero_le _

theorem waiting_update (worker : Fin n → WorkerPc) (i : Fin n) (pc : WorkerPc) :
    (fun j => (Function.update worker i pc j).waiting) =
      Function.update (fun j => (worker j).waiting) i pc.waiting :=
  Function.comp_update WorkerPc.waiting worker i pc

theorem monitor_setWorker {i : Fin n} {pc : WorkerPc} (before : (state.worker i).waiting = .away)
    (after : pc.waiting = .away) : (state.setWorker i pc).monitor = state.monitor := by
  rw [monitor, setWorker]
  dsimp only
  rw [waiting_update, after, ← before, Function.update_eq_self]
  rfl

theorem served_of_wakes {waiting : Fin n → Waiting} {available : Nat} {i : Fin n}
    (parked : waiting i = .parked) (served : (Monitor.mk waiting available).Served) :
    (Monitor.mk (Function.update waiting i .notified) available).Served := by
  intro _
  have held : available ≤ _ := served ⟨i, parked⟩
  have counted := Monitor.notified_update waiting available available i .notified
  simp only [parked, reduceCtorEq, if_false, if_true, Nat.add_zero] at counted
  change available ≤ _
  omega

theorem served_of_step (running : state.encodingQueue.aborted = false)
    (served : state.monitor.Served) (taken : state.Steps outFilePath action next) :
    next.monitor.Served := by
  have pushing {notified : Option (Fin n)} (taken : state.Steps outFilePath (.push notified) next) :
      next.monitor.Served := by
    rcases push_blocks_or_notifies running taken with
      ⟨other, rfl, -⟩ | ⟨-, longer, woken | ⟨nobody, same⟩⟩
    · exact served
    · obtain ⟨i, parked, worker⟩ := woken
      apply served.step
      rw [monitor, monitor, worker, longer, waiting_update]
      exact .notifies _ _ i (by rw [parked]; rfl)
    · apply served.step
      rw [monitor, monitor, longer, same]
      refine .adds _ _ fun i parked => nobody i ?_
      cases pc : state.worker i <;> simp [pc, WorkerPc.waiting] at parked
      rfl
  cases step_cases running taken with
  | decodes | finishes | joins | decoderWakes => exact served
  | pushWaits | pushes => exact pushing taken
  | popWaits i pc empty =>
      apply served.step
      rw [monitor, monitor, setWorker]
      dsimp only
      rw [empty, waiting_update]
      exact .parks _ i
  | pops i context queue pc popped still =>
      apply served.step
      rw [monitor, monitor, setWorker]
      dsimp only
      rw [popped, waiting_update]
      exact .takes _ _ i
  | workerWakes i parked =>
      rw [monitor, setWorker]
      dsimp only
      rw [waiting_update]
      exact served_of_wakes (by rw [parked]; rfl) served
  | commitsOnSize i pc | seesEmpty i pc | commitsNotDone i pc | leaves i pc =>
      rw [monitor_setWorker (by rw [pc]; rfl) rfl]
      exact served
  | encodes i context pc =>
      have same := @monitor_setWorker _ { state with encoded := state.encoded ++ [context] } i
        (.listing context) (by rw [pc]; rfl) rfl
      rw [same]
      exact served
  | lists i context pc =>
      have same := @monitor_setWorker _ { state with
        j2kFiles := state.j2kFiles ++ [context.targetFile] } i .readSize (by rw [pc]; rfl) rfl
      rw [same]
      exact served

theorem notThrown_setWorker {i : Fin n} {pc : WorkerPc} (before : ∀ j, state.worker j ≠ .thrown)
    (stays : pc ≠ .thrown) (j : Fin n) : Function.update state.worker i pc j ≠ .thrown := by
  rw [Function.update_apply]
  split
  · exact stays
  · exact before j

theorem notified_ne_thrown {pc : DecoderPc} (before : pc ≠ .thrown) : pc.notified ≠ .thrown := by
  cases pc with
  | thrown => exact absurd rfl before
  | _ => simp [DecoderPc.notified]

theorem notified_ne_parked (pc : DecoderPc) (context : ThreadContext) :
    pc.notified ≠ .parked context := by
  cases pc <;> simp [DecoderPc.notified]

theorem awake_of_step (sound : Conserved outFilePath state) (awake : state.Awake)
    (taken : state.Steps outFilePath action next) : next.Awake := by
  have served := served_of_step sound.running awake.served taken
  have workers := awake.workers
  have moved {i : Fin n} {pc : WorkerPc} (stays : pc ≠ .thrown) :=
    @notThrown_setWorker _ state i pc workers stays
  cases step_cases sound.running taken with
  | decodes idle => exact ⟨nofun, workers, nofun, served⟩
  | pushWaits notified context inHand =>
      refine ⟨nofun, workers, fun other parked => ?_, served⟩
      rcases push_blocks_or_notifies sound.running taken with ⟨-, -, full⟩ | ⟨decoding, -⟩
      · exact full
      · cases decoding
  | pushes notified context queue worker inHand appended still wakes =>
      refine ⟨nofun, ?_, nofun, served⟩
      rcases wakes with rfl | ⟨i, -, rfl⟩
      · exact workers
      · exact moved nofun
  | finishes idle => exact ⟨nofun, workers, nofun, served⟩
  | joins joining left => exact ⟨nofun, workers, nofun, served⟩
  | pops i context queue pc popped still =>
      exact ⟨notified_ne_thrown awake.decoder, moved nofun,
        fun other parked => absurd parked (notified_ne_parked _ other), served⟩
  | decoderWakes context parked => exact ⟨nofun, workers, nofun, served⟩
  | commitsOnSize | seesEmpty | commitsNotDone | leaves | popWaits | encodes | lists
    | workerWakes => exact ⟨awake.decoder, moved nofun, awake.full, served⟩

theorem awake_of_reachable (reached : Reachable (Steps outFilePath) (start n) state) :
    state.Awake := by
  refine (reached.invariant (fun state => Conserved outFilePath state ∧ state.Awake)
    ⟨conserved_start outFilePath n, awake_start n⟩ ?_).2
  intro state action next holds taken
  exact ⟨conserved_of_step holds.1 taken, awake_of_step holds.1 holds.2 taken⟩

theorem push_enabled (running : state.encodingQueue.aborted = false) {context : ThreadContext}
    (pc : state.decoder = .pushing context ∨ state.decoder = .woken context) :
    ∃ notified next, state.step outFilePath (.push notified) = some next := by
  have pushes (notified : Option (Fin n)) :
      state.step outFilePath (.push notified) = state.push context notified := by
    rcases pc with pc | pc <;> simp only [step, pc]
  cases result : state.encodingQueue.push context with
  | waits => exact ⟨none, _, (pushes none).trans (by rw [push, result])⟩
  | throws =>
      have aborted := BoundQueue.push_throws result
      rw [running] at aborted
      cases aborted
  | completes queue =>
      by_cases sleeps : ∃ i, state.worker i = .parked
      · obtain ⟨i, parked⟩ := sleeps
        refine ⟨some i, Option.isSome_iff_exists.mp ?_⟩
        rw [pushes, push, result]
        exact Option.isSome_iff_exists.mpr ⟨_, if_pos parked⟩
      · have nobody : ∀ i, state.worker i ≠ .parked := fun i parked => sleeps ⟨i, parked⟩
        refine ⟨none, Option.isSome_iff_exists.mp ?_⟩
        rw [pushes, push, result]
        exact Option.isSome_iff_exists.mpr ⟨_, if_pos nobody⟩

theorem parked_or_left (awake : state.Awake) (halted : state.Halted outFilePath) (i : Fin n) :
    state.worker i = .parked ∨ state.worker i = .left := by
  have stays : state.work i = none := halted (.work i) rfl
  unfold work at stays
  cases pc : state.worker i with
  | parked => exact .inl rfl
  | left => exact .inr rfl
  | thrown => exact absurd pc (awake.workers i)
  | readSize =>
      simp only [pc] at stays
      split at stays <;> cases stays
  | readDone =>
      simp only [pc] at stays
      split at stays <;> cases stays
  | _ => simp [pc] at stays

theorem empty_of_parked (awake : state.Awake)
    (resting : ∀ i, state.worker i = .parked ∨ state.worker i = .left) {i : Fin n}
    (parked : state.worker i = .parked) : state.encodingQueue.items = [] := by
  have held := awake.served ⟨i, congrArg WorkerPc.waiting parked⟩
  have nobody : state.monitor.notified = 0 := by
    rw [Monitor.notified, Finset.card_eq_zero, Finset.filter_eq_empty_iff]
    intro j _
    rcases resting j with pc | pc <;> simp [monitor, pc, WorkerPc.waiting]
  rw [nobody] at held
  exact List.length_eq_zero_iff.mp (Nat.le_zero.mp held)

theorem halted_of_stopped (resting : ∀ i, state.worker i = .parked ∨ state.worker i = .left)
    (stopped : state.decoder = .joined ∨
      (state.decoder = .joining ∧ ∃ i, state.worker i = .parked) ∨
      ∃ context, state.decoder = .parked context) : state.Halted outFilePath := by
  intro action notWakeUp
  cases action with
  | work i => rcases resting i with pc | pc <;> simp [step, work, pc]
  | wakeDecoder => cases notWakeUp
  | wakeWorker i => cases notWakeUp
  | join =>
      rcases stopped with joined | ⟨-, i, parked⟩ | ⟨context, parked⟩
      · simp [step, joined]
      · refine if_neg fun both => ?_
        rw [both.2 i] at parked
        cases parked
      · simp [step, parked]
  | _ => rcases stopped with pc | ⟨pc, -⟩ | ⟨context, pc⟩ <;> simp [step, pc]

/-- Where the encoder stops: it is done, a worker waits for a frame that never comes, or there are
no workers and the queue is full. -/
inductive Stopped (state : EncodeState n) : Prop where
  | joined (joined : state.decoder = .joined)
  | stuck (joining : state.decoder = .joining) (empty : state.encodingQueue.items = [])
      (sleeps : ∃ i, state.worker i = .parked)
      (resting : ∀ i, state.worker i = .parked ∨ state.worker i = .left)
  | alone (none_ : n = 0) (waits : ∃ context, state.decoder = .parked context)

theorem stopped_of_halted (sound : Conserved outFilePath state) (awake : state.Awake)
    (halted : state.Halted outFilePath) : state.Stopped := by
  have resting := parked_or_left awake halted
  cases pc : state.decoder with
  | joined => exact .joined pc
  | thrown => exact absurd pc awake.decoder
  | decoding =>
      have stays := halted .finish rfl
      simp [step, pc] at stays
  | pushing context =>
      obtain ⟨notified, next, moves⟩ :=
        @push_enabled _ outFilePath _ sound.running context (.inl pc)
      rw [halted (.push notified) rfl] at moves
      cases moves
  | woken context =>
      obtain ⟨notified, next, moves⟩ :=
        @push_enabled _ outFilePath _ sound.running context (.inr pc)
      rw [halted (.push notified) rfl] at moves
      cases moves
  | parked context =>
      refine .alone ?_ ⟨context, pc⟩
      rcases Nat.eq_zero_or_pos n with none_ | some_
      · exact none_
      · rcases resting ⟨0, some_⟩ with parked | left
        · have full := awake.full context pc
          rw [empty_of_parked awake resting parked] at full
          cases full
        · rcases sound.done.mp (sound.left _ left) with other | other
          · rw [pc] at other
            cases other
          · rw [pc] at other
            cases other
  | joining =>
      by_cases sleeps : ∃ i, state.worker i = .parked
      · obtain ⟨i, parked⟩ := sleeps
        exact .stuck pc (empty_of_parked awake resting parked) ⟨i, parked⟩ resting
      · have left : ∀ i, state.worker i = .left := fun i =>
          (resting i).resolve_left fun parked => sleeps ⟨i, parked⟩
        have stays := halted .join rfl
        simp [step, pc, left] at stays

/-- The encoder stops there and nowhere else. -/
theorem halted_iff (reached : Reachable (Steps outFilePath) (start n) state) :
    state.Halted outFilePath ↔ state.Stopped := by
  constructor
  · exact stopped_of_halted (conserved_of_reachable reached) (awake_of_reachable reached)
  · intro stopped
    cases stopped with
    | joined joined =>
        exact halted_of_stopped
          (fun i => .inr ((sortedWhenJoined_of_reachable reached joined).1 i)) (.inl joined)
    | stuck joining empty sleeps resting =>
        exact halted_of_stopped resting (.inr (.inl ⟨joining, sleeps⟩))
    | alone none_ waits =>
        subst none_
        exact halted_of_stopped (fun i => i.elim0) (.inr (.inr waits))

def nineFrames : List (Action 0) := (List.replicate 9 [.decodeFrame, .push none]).flatten

theorem halted_without_workers : ∃ state : EncodeState 0,
    Reachable (Steps "tmp") (start 0) state ∧ state.Halted "tmp" ∧ state.currentFrame = 9 := by
  let last := (replay (step "tmp") (start 0) nineFrames).get (by decide)
  have replayed : replay (step "tmp") (start 0) nineFrames = some last := (Option.some_get _).symm
  have reached := reachable_of_replay (step "tmp") nineFrames (start 0) last replayed
  exact ⟨last, reached, (halted_iff reached).mpr (.alone rfl ⟨_, rfl⟩), rfl⟩

theorem covered_of_run {trace : List (EncodeState n × Action n)}
    (run : Run (Steps outFilePath) (start n) trace state)
    (covered : Guarded CommitsCovered trace) : state.Covered := by
  have initially : Conserved outFilePath (start n) ∧ (start n).Covered :=
    ⟨conserved_start outFilePath n, fun done => by cases done⟩
  refine (run.invariant (fun state => Conserved outFilePath state ∧ state.Covered) initially
    (fun state action next before met taken => ?_) covered).2
  exact ⟨conserved_of_step before.1 taken, covered_of_step before.1 before.2 met taken⟩

theorem files_of_sorted (sound : Conserved outFilePath state) (finished : state.Finished)
    (empty : state.encodingQueue.items = []) (sorted : state.j2kFiles.Pairwise (· ≤ ·))
    (few : state.currentFrame < 10 ^ 7) :
    state.j2kFiles = filesST outFilePath state.currentFrame := by
  have same : state.j2kFiles.Perm (filesST outFilePath state.currentFrame) := by
    rw [filesST_eq, ← pushed_of_finished sound finished]
    exact (((encoded_perm sound finished empty).map _).trans (listed_perm sound finished)).symm
  exact same.eq_of_pairwise (fun _ _ _ _ => le_antisymm) sorted
    ((filesST_sorted_iff outFilePath _).mpr few)

/-- With workers that commit themselves only to frames there are, of which the last leaves an empty
queue, the encoder stops only when it is done. Then every frame has been encoded once, and up to
seven digits the files are those of a single thread. -/
theorem encoding_ends {trace : List (EncodeState n × Action n)} (workers : 0 < n)
    (run : Run (Steps outFilePath) (start n) trace state)
    (covered : Guarded CommitsCovered trace) (emptied : Guarded LastLeavesEmptyQueue trace)
    (halted : state.Halted outFilePath) :
    state.decoder = .joined ∧ state.AllEncodedOnce ∧
      (state.currentFrame < 10 ^ 7 → state.j2kFiles = filesST outFilePath state.currentFrame) := by
  have reached : Reachable (Steps outFilePath) (start n) state := ⟨trace, run⟩
  have sound := conserved_of_reachable reached
  have joined : state.decoder = .joined := by
    cases stopped_of_halted sound (awake_of_reachable reached) halted with
    | joined joined => exact joined
    | stuck joining empty sleeps =>
        obtain ⟨i, parked⟩ := sleeps
        have notStuck := not_stuck_of_covered (covered_of_run run covered)
        exact absurd ⟨sound.done.mpr (.inl joining), empty, i, by rw [parked]; rfl⟩ notStuck
    | alone none_ => exact absurd none_ workers.ne'
  obtain ⟨left, sorted⟩ := sortedWhenJoined_of_reachable reached joined
  have finished : state.Finished := ⟨sound.done.mpr (.inr joined), left⟩
  have empty := (run_guarded_or_lost workers run).2 emptied finished
  exact ⟨joined, allEncodedOnce_of_empty sound finished empty,
    files_of_sorted sound finished empty sorted⟩

instance (state : EncodeState n) (action : Action n) :
    Decidable (LastLeavesEmptyQueue state action) :=
  inferInstanceAs (Decidable (∀ i, action = .work i → state.worker i = .readDone →
    state.gDone = true → (∀ j, j ≠ i → state.worker j = .left) → state.encodingQueue.items = []))

def oneFrame : List (Action 2) := [.decodeFrame, .push none, .work 0, .work 0, .work 0, .finish,
  .work 0, .work 0, .work 0, .work 1, .work 1, .join]

theorem one_frame_ends : ∃ trace state, Run (Steps "tmp") (start 2) trace state ∧
    state.decoder = .joined ∧ state.AllEncodedOnce ∧ state.j2kFiles = filesST "tmp" 1 := by
  let last := (replay (step "tmp") (start 2) oneFrame).get (by decide)
  have replayed : replay (step "tmp") (start 2) oneFrame = some last := (Option.some_get _).symm
  have run := run_of_replay (step "tmp") oneFrame (start 2) last replayed
  have halted : last.Halted "tmp" := halted_of_stopped (by decide) (.inl (by decide))
  obtain ⟨joined, once, files⟩ := encoding_ends (by decide) run (by decide) (by decide) halted
  exact ⟨_, last, run, joined, once, files (by decide)⟩

theorem one_frame_bounded : (visits (step "tmp") (start 2) oneFrame).length ≤ 17 := by
  let last := (replay (step "tmp") (start 2) oneFrame).get (by decide)
  have replayed : replay (step "tmp") (start 2) oneFrame = some last := (Option.some_get _).symm
  exact encoding_bounded (run_of_replay (step "tmp") oneFrame (start 2) last replayed)

/-- Without workers nothing is encoded. The decoder comes to its end with eight frames at most. -/
theorem without_workers {state : EncodeState 0}
    (reached : Reachable (Steps outFilePath) (start 0) state) :
    state.encoded = [] ∧ state.j2kFiles = [] ∧ state.pushed = state.encodingQueue.items ∧
      (state.decoder = .joined → state.currentFrame ≤ 8) := by
  have kept : state.encoded = [] ∧ state.j2kFiles = [] ∧
      state.pushed = state.encodingQueue.items := by
    refine (reached.invariant (fun state : EncodeState 0 => Conserved outFilePath state ∧
      state.encoded = [] ∧ state.j2kFiles = [] ∧ state.pushed = state.encodingQueue.items)
      ⟨conserved_start outFilePath 0, rfl, rfl, rfl⟩ ?_).2
    rintro state action next ⟨sound, encoded, files, queued⟩ taken
    refine ⟨conserved_of_step sound taken, ?_⟩
    cases step_cases sound.running taken with
    | pushes notified context queue worker inHand appended =>
        exact ⟨encoded, files, by rw [appended, queued]⟩
    | joins joining left => exact ⟨encoded, by rw [files]; exact List.mergeSort_nil, queued⟩
    | decodes | pushWaits | finishes | decoderWakes => exact ⟨encoded, files, queued⟩
    | commitsOnSize i | seesEmpty i | commitsNotDone i | leaves i | popWaits i | pops i | encodes i
      | lists i | workerWakes i => exact i.elim0
  refine ⟨kept.1, kept.2.1, kept.2.2, fun joined => ?_⟩
  have sound := conserved_of_reachable reached
  have finished : state.Finished := ⟨sound.done.mpr (.inr joined), fun i => i.elim0⟩
  have all := congrArg List.length (pushed_of_finished sound finished)
  rw [kept.2.2, framesUpTo, List.length_map, List.length_range] at all
  exact all ▸ state.encodingQueue.buffer.bounded

theorem nine_frames_without_workers : ∃ state : EncodeState 0,
    Reachable (Steps "tmp") (start 0) state ∧ state.pushed.length = 8 ∧ state.encoded = [] := by
  let last := (replay (step "tmp") (start 0) nineFrames).get (by decide)
  have replayed : replay (step "tmp") (start 0) nineFrames = some last := (Option.some_get _).symm
  have reached := reachable_of_replay (step "tmp") nineFrames (start 0) last replayed
  exact ⟨last, reached, rfl, (without_workers reached).1⟩

end EncodeState

end Imflib.Encoder
