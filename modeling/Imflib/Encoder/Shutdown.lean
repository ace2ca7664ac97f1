import Imflib.Encoder.FrameConservation

/-! Joining the encoder threads. A worker that has decided to pop needs a frame of its
own, and after the last push there are no more of them than the queue holds. -/

namespace Imflib.Encoder

open Transition

variable {n : Nat}

def WorkerPc.committed : WorkerPc → Nat
  | .callPop => 1
  | .parked => 1
  | .woken => 1
  | _ => 0

namespace EncodeState

/-- No frame will come any more, and a worker waits for one. -/
def Stuck (state : EncodeState n) : Prop :=
  state.gDone = true ∧ state.encodingQueue.items = [] ∧ ∃ i, (state.worker i).committed = 1

def committedWorkers (state : EncodeState n) : Nat := total WorkerPc.committed state.worker

instance (state : EncodeState n) : Decidable state.Stuck :=
  inferInstanceAs (Decidable (_ ∧ _))

/-- Decoding ends only while the queue holds a frame for every committed worker, and
afterwards a worker commits itself only if there is one more. -/
def CommitsCovered (state : EncodeState n) (action : Action n) : Prop :=
  (action = .finish → state.committedWorkers ≤ state.encodingQueue.items.length) ∧
    ∀ i, action = .work i → state.worker i = .readSize → state.gDone = true →
      state.encodingQueue.items ≠ [] →
        state.committedWorkers < state.encodingQueue.items.length

/-- After the last push every committed worker has a frame. -/
def Covered (state : EncodeState n) : Prop :=
  state.gDone = true → state.committedWorkers ≤ state.encodingQueue.items.length

instance (state : EncodeState n) (action : Action n) : Decidable (CommitsCovered state action) :=
  inferInstanceAs (Decidable (_ ∧ _))

variable {outFilePath : String} {state next : EncodeState n} {action : Action n}

theorem committedWorkers_setWorker (state : EncodeState n) (i : Fin n) (pc : WorkerPc) :
    (state.setWorker i pc).committedWorkers + (state.worker i).committed =
      state.committedWorkers + pc.committed :=
  total_update WorkerPc.committed state.worker i pc

theorem committed_before_pop {pc : WorkerPc} (at_ : pc = .callPop ∨ pc = .woken) :
    pc.committed = 1 := by
  rcases at_ with rfl | rfl <;> rfl

theorem covered_of_step (sound : Conserved outFilePath state) (covered : state.Covered)
    (met : CommitsCovered state action) (taken : state.Steps outFilePath action next) :
    next.Covered := by
  have moved := committedWorkers_setWorker state
  intro done
  cases step_cases sound.running taken with
  | decodes idle => exact covered done
  | pushWaits notified context inHand => exact covered done
  | pushes notified context queue worker inHand =>
      rcases sound.done.mp done with pc | pc <;> simp [pc, DecoderPc.inHand] at inHand
  | finishes idle => exact met.1 rfl
  | joins joining left => exact covered done
  | commitsOnSize i pc present =>
      have balance := moved i .callPop
      have room := met.2 i rfl pc done present
      simp only [pc, WorkerPc.committed] at balance
      simp only [setWorker] at balance ⊢
      omega
  | commitsNotDone i pc undone =>
      rw [setWorker, undone] at done
      cases done
  | pops i context queue pc popped running =>
      have balance := moved i (.encoding context)
      have before := covered done
      rw [committed_before_pop pc] at balance
      rw [popped, List.length_cons] at before
      simp only [WorkerPc.committed] at balance
      simp only [committedWorkers, setWorker] at balance before ⊢
      omega
  | popWaits i pc empty =>
      have balance := moved i .parked
      have before := covered done
      rw [committed_before_pop pc] at balance
      simp only [WorkerPc.committed] at balance
      simp only [setWorker] at balance ⊢
      omega
  | seesEmpty i pc | leaves i pc | encodes i _ pc | lists i _ pc | workerWakes i pc =>
      have same := total_update_of_eq WorkerPc.committed state.worker i
      have before := covered done
      simp only [committedWorkers, setWorker] at before ⊢
      rw [same _ (by rw [pc]; rfl)]
      exact before
  | decoderWakes context parked => exact covered done

theorem committedWorkers_pos {i : Fin n} (committed : (state.worker i).committed = 1) :
    0 < state.committedWorkers := by
  have share := Finset.single_le_sum
    (f := fun j => (state.worker j).committed) (fun _ _ => Nat.zero_le _) (Finset.mem_univ i)
  simp only [committed] at share
  exact share

theorem committed_le_one (pc : WorkerPc) : pc.committed ≤ 1 := by
  cases pc <;> simp [WorkerPc.committed]

theorem exists_committed (positive : 0 < state.committedWorkers) :
    ∃ i, (state.worker i).committed = 1 := by
  by_contra absent
  have zero : ∀ i ∈ Finset.univ, (state.worker i).committed = 0 := by
    intro i _
    have bound := committed_le_one (state.worker i)
    have other : (state.worker i).committed ≠ 1 := fun one => absent ⟨i, one⟩
    omega
  rw [committedWorkers, total, Finset.sum_eq_zero zero] at positive
  exact Nat.lt_irrefl 0 positive

theorem not_stuck_of_covered (covered : state.Covered) : ¬ state.Stuck := by
  rintro ⟨done, empty, i, committed⟩
  have bound := covered done
  have positive := committedWorkers_pos committed
  rw [empty, List.length_nil] at bound
  omega

theorem committed_pops (outFilePath : String) (running : state.encodingQueue.aborted = false) {i : Fin n}
    (committed : (state.worker i).committed = 1) {context : ThreadContext}
    {rest : List ThreadContext} (present : state.encodingQueue.items = context :: rest) :
    ∃ next, Reachable (Steps outFilePath) state next ∧ next.gDone = state.gDone ∧
      next.encodingQueue.items = rest ∧ next.encodingQueue.aborted = false ∧
      next.committedWorkers + 1 = state.committedWorkers := by
  obtain ⟨queue, popped, left⟩ := BoundQueue.pop_of_items running present
  have still := (BoundQueue.pop_completes popped).2.trans running
  -- The pop itself, from a state in which the worker holds the mutex.
  have pops (ready : EncodeState n) (sameQueue : ready.encodingQueue = state.encodingQueue)
      (pc : ready.worker i = .callPop ∨ ready.worker i = .woken) :
      ∃ next, ready.Steps outFilePath (.work i) next ∧ next.gDone = ready.gDone ∧
        next.encodingQueue.items = rest ∧ next.encodingQueue.aborted = false ∧
        next.committedWorkers + 1 = ready.committedWorkers := by
    refine ⟨{ ready with
      encodingQueue := queue
      decoder := ready.decoder.notified }.setWorker i (.encoding context), ?_, rfl, left, still, ?_⟩
    · rcases pc with pc | pc <;> simp [Steps, step, work, pop, pc, sameQueue, popped]
    · have balance := total_update WorkerPc.committed ready.worker i (.encoding context)
      rw [committed_before_pop pc] at balance
      exact balance
  cases pc : state.worker i with
  | callPop =>
      obtain ⟨next, taken, rest⟩ := pops state rfl (.inl pc)
      exact ⟨next, Reachable.refl.tail taken, rest⟩
  | woken =>
      obtain ⟨next, taken, rest⟩ := pops state rfl (.inr pc)
      exact ⟨next, Reachable.refl.tail taken, rest⟩
  | parked =>
      have wakes : state.Steps outFilePath (.wakeWorker i) (state.setWorker i .woken) := by
        simp [Steps, step, pc]
      have same : (state.setWorker i .woken).committedWorkers = state.committedWorkers :=
        total_update_of_eq WorkerPc.committed state.worker i .woken (by rw [pc]; rfl)
      obtain ⟨next, taken, done, items, running, count⟩ :=
        pops (state.setWorker i .woken) rfl (.inr (by simp [setWorker]))
      exact ⟨next, (Reachable.refl.tail wakes).tail taken, done, items, running,
        count.trans same⟩
  | _ => simp [pc, WorkerPc.committed] at committed

/-- With more committed workers than frames, the workers can run into a stuck state. -/
theorem stuck_of_excess (length : Nat) (state : EncodeState n)
    (running : state.encodingQueue.aborted = false) (done : state.gDone = true)
    (measured : state.encodingQueue.items.length = length)
    (excess : length < state.committedWorkers) :
    ∃ stuck, Reachable (Steps outFilePath) state stuck ∧ stuck.Stuck := by
  induction length generalizing state with
  | zero =>
      obtain ⟨i, committed⟩ := exists_committed excess
      exact ⟨state, .refl, done, List.length_eq_zero_iff.mp measured, i, committed⟩
  | succ length ih =>
      obtain ⟨i, committed⟩ := exists_committed (Nat.zero_lt_of_lt excess)
      obtain ⟨context, rest, present⟩ := List.exists_cons_of_length_eq_add_one measured
      obtain ⟨next, reached, sameDone, items, stillRunning, count⟩ :=
        committed_pops outFilePath running committed present
      rw [present, List.length_cons] at measured
      have shorter : next.encodingQueue.items.length = length := by
        rw [items]
        omega
      obtain ⟨stuck, further, isStuck⟩ :=
        ih next stillRunning (sameDone.trans done) shorter (by omega)
      exact ⟨stuck, reached.trans further, isStuck⟩

theorem stuck_of_uncovered (sound : Conserved outFilePath state)
    (taken : state.Steps outFilePath action next) (uncovered : ¬ CommitsCovered state action) :
    ∃ stuck, Reachable (Steps outFilePath) next stuck ∧ stuck.Stuck := by
  have running := running_of_step sound.running taken
  rw [CommitsCovered, not_and_or] at uncovered
  rcases uncovered with atFinish | atCommit
  · simp only [Classical.not_imp, Nat.not_le] at atFinish
    obtain ⟨rfl, excess⟩ := atFinish
    cases step_cases sound.running taken with
    | finishes idle => exact stuck_of_excess _ _ running rfl rfl excess
  · simp only [not_forall, Nat.not_lt] at atCommit
    obtain ⟨i, rfl, pc, done, present, excess⟩ := atCommit
    have commits : next = state.setWorker i .callPop := by
      have size : state.encodingQueue.size > 0 := List.length_pos_of_ne_nil present
      simpa [Steps, step, work, pc, size] using taken.symm
    subst commits
    have balance := committedWorkers_setWorker state i .callPop
    simp only [pc, WorkerPc.committed] at balance
    refine stuck_of_excess _ _ running done rfl ?_
    simp only [setWorker] at balance ⊢
    omega

/-- `join_all` returned only because every worker had left. -/
def JoinedLeft (state : EncodeState n) : Prop :=
  state.decoder = .joined → ∀ i, state.worker i = .left

theorem joinedLeft_of_step (sound : Conserved outFilePath state) (before : state.JoinedLeft)
    (taken : state.Steps outFilePath action next) : next.JoinedLeft := by
  intro joined
  cases step_cases sound.running taken with
  | decodes | pushWaits | pushes | finishes | decoderWakes => cases joined
  | joins _ left => exact left
  | pops i _ _ pc =>
      have left := before (by simpa [setWorker] using joined) i
      rw [left] at pc
      rcases pc with pc | pc <;> cases pc
  | popWaits i pc =>
      rw [before joined i] at pc
      rcases pc with pc | pc <;> cases pc
  | commitsOnSize i pc | seesEmpty i pc | commitsNotDone i pc | leaves i pc | encodes i _ pc
    | lists i _ pc | workerWakes i pc =>
      rw [before joined i] at pc
      cases pc

theorem committed_of_setWorker {i j : Fin n} {pc : WorkerPc}
    (committed : (state.worker j).committed = 1)
    (kept : (state.worker i).committed = 1 → pc.committed = 1) :
    ((state.setWorker i pc).worker j).committed = 1 := by
  simp only [setWorker, Function.update_apply]
  split
  · rename_i own
    exact kept (own ▸ committed)
  · exact committed

theorem stuck_of_step (sound : Conserved outFilePath state) (stuck : state.Stuck)
    (taken : state.Steps outFilePath action next) : next.Stuck := by
  obtain ⟨done, empty, j, committed⟩ := stuck
  have nothingInHand (context : ThreadContext) : state.decoder.inHand ≠ [context] := by
    rcases sound.done.mp done with pc | pc <;> simp [pc, DecoderPc.inHand]
  have notDecoding : state.decoder ≠ .decoding := by
    rcases sound.done.mp done with pc | pc <;> simp [pc]
  cases step_cases sound.running taken with
  | decodes idle | finishes idle => exact absurd idle notDecoding
  | pushWaits _ context inHand | pushes _ context _ _ inHand =>
      exact absurd inHand (nothingInHand context)
  | joins | decoderWakes => exact ⟨done, empty, j, committed⟩
  | pops _ _ _ _ popped =>
      rw [empty] at popped
      cases popped
  | commitsOnSize _ _ present => exact absurd empty present
  | commitsNotDone _ _ undone =>
      rw [done] at undone
      cases undone
  | popWaits i pc =>
      exact ⟨done, empty, j, committed_of_setWorker committed fun _ => rfl⟩
  | workerWakes i pc =>
      exact ⟨done, empty, j, committed_of_setWorker committed fun _ => rfl⟩
  | seesEmpty i pc | leaves i pc | encodes i _ pc | lists i _ pc =>
      refine ⟨done, empty, j, committed_of_setWorker committed fun own => ?_⟩
      rw [pc] at own
      cases own

/-- Nothing leads out of a stuck state: `join_all` never returns. -/
theorem stuck_forever (reached : Reachable (Steps outFilePath) (start n) state)
    (stuck : state.Stuck) (further : Reachable (Steps outFilePath) state next) :
    next.Stuck ∧ next.decoder ≠ .joined := by
  have invariant : (Conserved outFilePath state ∧ state.JoinedLeft) ∧ state.Stuck := by
    refine ⟨reached.invariant (fun state => Conserved outFilePath state ∧ state.JoinedLeft)
      ⟨conserved_start outFilePath n, fun joined => by cases joined⟩ ?_, stuck⟩
    rintro state action next ⟨sound, joinedLeft⟩ taken
    exact ⟨conserved_of_step sound taken, joinedLeft_of_step sound joinedLeft taken⟩
  have kept := further.invariant
    (fun state => (Conserved outFilePath state ∧ state.JoinedLeft) ∧ state.Stuck) invariant (by
      rintro state action next ⟨⟨sound, joinedLeft⟩, stuck⟩ taken
      exact ⟨⟨conserved_of_step sound taken, joinedLeft_of_step sound joinedLeft taken⟩,
        stuck_of_step sound stuck taken⟩)
  obtain ⟨⟨_, joinedLeft⟩, done, empty, i, committed⟩ := kept
  refine ⟨⟨done, empty, i, committed⟩, fun joined => ?_⟩
  rw [joinedLeft joined i] at committed
  cases committed

/-- The encoder threads never get stuck in a run whose steps keep every commitment
covered, and from every step that does not they can get stuck. -/
theorem shutdown_stuck_iff_uncovered (outFilePath : String) (n : Nat) :
    (∀ trace state, Run (Steps outFilePath) (start n) trace state →
      Guarded CommitsCovered trace → ¬ state.Stuck) ∧
    ∀ state action next, Reachable (Steps outFilePath) (start n) state →
      state.Steps outFilePath action next → ¬ CommitsCovered state action →
        ∃ stuck, Reachable (Steps outFilePath) next stuck ∧ stuck.Stuck := by
  constructor
  · intro trace state run guarded
    have initially : Conserved outFilePath (start n) ∧ (start n).Covered :=
      ⟨conserved_start outFilePath n, fun done => by cases done⟩
    have preserved : ∀ (state : EncodeState n) action next,
        Conserved outFilePath state ∧ state.Covered → CommitsCovered state action →
          state.Steps outFilePath action next → Conserved outFilePath next ∧ next.Covered :=
      fun _ _ _ before met taken =>
        ⟨conserved_of_step before.1 taken, covered_of_step before.1 before.2 met taken⟩
    have invariant := run.invariant
      (fun state => Conserved outFilePath state ∧ state.Covered) initially preserved guarded
    exact not_stuck_of_covered invariant.2
  · intro state action next reached taken uncovered
    exact stuck_of_uncovered (conserved_of_reachable reached) taken uncovered

/-- Both workers leave after one frame: no commitment is made without a frame. -/
theorem shutdown_one_frame :
    ∃ trace state, Run (Steps "tmp") (start 2) trace state ∧ Guarded CommitsCovered trace ∧
      state.Finished ∧ ¬ state.Stuck := by
  let actions : List (Action 2) := [.decodeFrame, .push none, .work 0, .finish, .work 0, .work 0,
    .work 0, .work 0, .work 0, .work 1, .work 1]
  let last := (replay (step "tmp") (start 2) actions).get (by decide)
  have replayed : replay (step "tmp") (start 2) actions = some last := (Option.some_get _).symm
  have run := run_of_replay (step "tmp") actions (start 2) last replayed
  have guarded : Guarded CommitsCovered (visits (step "tmp") (start 2) actions) := by decide
  exact ⟨_, last, run, guarded, by decide,
    (shutdown_stuck_iff_uncovered "tmp" 2).1 _ last run guarded⟩

/-- A video without frames: both workers read the flag before it is set, and then
wait for a frame that never comes. -/
theorem shutdown_can_get_stuck :
    ¬ ∀ (outFilePath : String) (n : Nat), 2 ≤ n → ∀ state : EncodeState n,
      Reachable (Steps outFilePath) (start n) state → ¬ state.Stuck := by
  intro claimed
  let actions : List (Action 2) := [.work 0, .work 0, .work 1, .work 1, .finish, .work 0, .work 1]
  let last := (replay (step "tmp") (start 2) actions).get (by decide)
  have replayed : replay (step "tmp") (start 2) actions = some last := (Option.some_get _).symm
  have reached := reachable_of_replay (step "tmp") actions (start 2) last replayed
  exact claimed "tmp" 2 (by decide) last reached (by decide)

end EncodeState

end Imflib.Encoder
