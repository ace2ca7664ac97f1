import Imflib.Encoder.EncodeThreads

/-! No frame is lost or encoded twice, as long as the last worker to leave its loop
finds the queue empty. -/

namespace Imflib.Encoder

open Transition

variable {n : Nat}

def framesUpTo (outFilePath : String) (currentFrame : Nat) : List ThreadContext :=
  (List.range currentFrame).map fun number => threadContext outFilePath ⟨number + 1⟩

theorem targetFile_injective (outFilePath : String) :
    Function.Injective (targetFile outFilePath) := by
  rintro ⟨first⟩ ⟨second⟩ same
  have texts := congrArg String.toList same
  simp only [targetFile, String.toList_append, String.toList_ofList, List.append_assoc,
    List.append_cancel_left_eq, List.append_cancel_right_eq] at texts
  rw [Text.padLeft_digits_injective 7 texts]

theorem framesUpTo_files_nodup (outFilePath : String) (currentFrame : Nat) :
    ((framesUpTo outFilePath currentFrame).map (·.targetFile)).Nodup := by
  rw [framesUpTo, List.map_map]
  refine List.Nodup.map ?_ List.nodup_range
  intro first second same
  have numbers := targetFile_injective outFilePath same
  simpa using numbers

@[simp] theorem DecoderPc.inHand_notified (pc : DecoderPc) : pc.notified.inHand = pc.inHand := by
  cases pc <;> rfl

@[simp] theorem DecoderPc.notified_eq_joining (pc : DecoderPc) :
    pc.notified = .joining ↔ pc = .joining := by
  cases pc <;> simp [notified]

@[simp] theorem DecoderPc.notified_eq_joined (pc : DecoderPc) :
    pc.notified = .joined ↔ pc = .joined := by
  cases pc <;> simp [notified]

def WorkerPc.holds (context : ThreadContext) : WorkerPc → Nat
  | .encoding held => if held = context then 1 else 0
  | _ => 0

/-- A worker's share of one written file that is not listed yet. -/
def WorkerPc.unlisted (file : String) : WorkerPc → Nat
  | .listing held => if held.targetFile = file then 1 else 0
  | _ => 0

namespace EncodeState

/-- Decoding is over and every worker has left its loop. -/
def Finished (state : EncodeState n) : Prop :=
  state.gDone = true ∧ ∀ i, state.worker i = .left

/-- The queue is empty, and every pushed frame has been encoded once and its file is
listed once. -/
def AllEncodedOnce (state : EncodeState n) : Prop :=
  state.encodingQueue.items = [] ∧
    ∀ context ∈ state.pushed,
      state.encoded.count context = 1 ∧ state.j2kFiles.count context.targetFile = 1

instance (state : EncodeState n) : Decidable state.Finished :=
  inferInstanceAs (Decidable (_ ∧ _))

instance (state : EncodeState n) : Decidable state.AllEncodedOnce :=
  inferInstanceAs (Decidable (_ ∧ _))

/-- The last worker in the loop leaves it only while the queue is empty. -/
def LastLeavesEmptyQueue (state : EncodeState n) (action : Action n) : Prop :=
  ∀ i, action = .work i → state.worker i = .readDone → state.gDone = true →
    (∀ j, j ≠ i → state.worker j = .left) → state.encodingQueue.items = []

/-- Every pushed frame is in the queue, in a worker's hands or encoded, and every
encoded frame is about to be listed or listed. -/
structure Conserved (outFilePath : String) (state : EncodeState n) : Prop where
  running : state.encodingQueue.aborted = false
  done : state.gDone = true ↔ state.decoder = .joining ∨ state.decoder = .joined
  left : ∀ i, state.worker i = .left → state.gDone = true
  frames : state.pushed ++ state.decoder.inHand = framesUpTo outFilePath state.currentFrame
  conserved : ∀ context, state.pushed.count context =
    state.encodingQueue.items.count context + total (WorkerPc.holds context) state.worker +
      state.encoded.count context
  listed : ∀ file, (state.encoded.map (·.targetFile)).count file =
    total (WorkerPc.unlisted file) state.worker + state.j2kFiles.count file

variable {outFilePath : String} {state next : EncodeState n} {action : Action n}

theorem total_start (weight : WorkerPc → Nat) (zero : weight .readSize = 0) :
    total weight (start n).worker = 0 := by
  simp [total, start, zero]

theorem conserved_start (outFilePath : String) (n : Nat) :
    Conserved outFilePath (start n) := by
  refine ⟨rfl, by simp [start], by simp [start], rfl, ?_, ?_⟩
  · intro context
    rw [total_start _ rfl]
    simp [start]
  · intro file
    rw [total_start _ rfl]
    simp [start]

theorem done_of_move (move : Move outFilePath state action next)
    (done : state.gDone = true ↔ state.decoder = .joining ∨ state.decoder = .joined) :
    next.gDone = true ↔ next.decoder = .joining ∨ next.decoder = .joined := by
  cases move with
  | decodes idle => simp [done, idle]
  | pushWaits notified context inHand =>
      have notDone : ¬ state.gDone = true := by
        rw [done]
        rintro (at_ | at_) <;> simp [at_, DecoderPc.inHand] at inHand
      simpa using notDone
  | pushes notified context queue worker inHand appended running wakes =>
      have notDone : ¬ state.gDone = true := by
        rw [done]
        rintro (at_ | at_) <;> simp [at_, DecoderPc.inHand] at inHand
      simpa using notDone
  | finishes idle => simp
  | joins joining left => simp [done, joining]
  | pops i context queue pc taken running => simpa [setWorker] using done
  | decoderWakes context parked => simp [done, parked]
  | _ => exact done

theorem left_of_setWorker {i j : Fin n} {pc : WorkerPc} (stays : pc ≠ .left)
    (left : (state.setWorker i pc).worker j = .left) : j ≠ i ∧ state.worker j = .left := by
  simp only [setWorker, Function.update_apply] at left
  split at left
  · exact absurd left stays
  · exact ⟨‹_›, left⟩

theorem left_of_wakes {worker next : Fin n → WorkerPc} {j : Fin n}
    (wakes : next = worker ∨
      ∃ i, worker i = .parked ∧ next = Function.update worker i .woken)
    (left : next j = .left) : worker j = .left := by
  rcases wakes with rfl | ⟨i, parked, rfl⟩
  · exact left
  · rw [Function.update_apply] at left
    split at left
    · cases left
    · exact left

theorem left_of_move (move : Move outFilePath state action next)
    (before : ∀ i, state.worker i = .left → state.gDone = true) (i : Fin n)
    (left : next.worker i = .left) : next.gDone = true := by
  cases move with
  | finishes idle => rfl
  | pushes _ _ _ worker _ _ _ wakes => exact before i (left_of_wakes wakes left)
  | leaves _ _ done => exact done
  | commitsOnSize | seesEmpty | commitsNotDone | popWaits | pops | encodes | lists
    | workerWakes => exact before i (left_of_setWorker (by simp) left).2
  | _ => exact before i left

theorem frames_of_move (move : Move outFilePath state action next)
    (frames : state.pushed ++ state.decoder.inHand =
      framesUpTo outFilePath state.currentFrame) :
    next.pushed ++ next.decoder.inHand = framesUpTo outFilePath next.currentFrame := by
  cases move with
  | decodes idle =>
      have before : state.pushed = framesUpTo outFilePath state.currentFrame := by
        simpa [idle, DecoderPc.inHand] using frames
      simp [DecoderPc.inHand, before, framesUpTo, List.range_succ]
  | pushWaits notified context inHand => rwa [inHand] at frames
  | pushes notified context queue worker inHand appended running wakes =>
      rw [inHand] at frames
      simpa only [DecoderPc.inHand, List.append_nil] using frames
  | finishes idle => simpa [DecoderPc.inHand, idle] using frames
  | joins joining left => simpa [DecoderPc.inHand, joining] using frames
  | pops i context queue pc taken running => simpa [setWorker] using frames
  | decoderWakes context parked => simpa [DecoderPc.inHand, parked] using frames
  | _ => exact frames

theorem weight_before_pop (weight : WorkerPc → Nat) (unlocked : weight .callPop = 0)
    (notified : weight .woken = 0) {pc : WorkerPc} (at_ : pc = .callPop ∨ pc = .woken) :
    weight pc = 0 := by
  rcases at_ with rfl | rfl
  · exact unlocked
  · exact notified

theorem conserved_of_move (move : Move outFilePath state action next) (context : ThreadContext)
    (conserved : state.pushed.count context = state.encodingQueue.items.count context +
      total (WorkerPc.holds context) state.worker + state.encoded.count context) :
    next.pushed.count context = next.encodingQueue.items.count context +
      total (WorkerPc.holds context) next.worker + next.encoded.count context := by
  have moved := total_update (WorkerPc.holds context) state.worker
  have kept := total_update_of_eq (WorkerPc.holds context) state.worker
  cases move with
  | pushes notified pushed queue worker inHand appended running wakes =>
      have same := total_wakes (WorkerPc.holds context) rfl wakes
      simp only [same, appended, List.count_append, conserved]
      omega
  | commitsOnSize i pc present =>
      simpa only [setWorker, kept i .callPop (by rw [pc]; rfl)] using conserved
  | seesEmpty i pc empty =>
      simpa only [setWorker, kept i .readDone (by rw [pc]; rfl)] using conserved
  | commitsNotDone i pc undone =>
      simpa only [setWorker, kept i .callPop (by rw [pc]; rfl)] using conserved
  | leaves i pc done =>
      simpa only [setWorker, kept i .left (by rw [pc]; rfl)] using conserved
  | popWaits i pc empty =>
      have weightless := weight_before_pop (WorkerPc.holds context) rfl rfl pc
      simpa only [setWorker, kept i .parked weightless] using conserved
  | pops i popped queue pc taken running =>
      have weightless := weight_before_pop (WorkerPc.holds context) rfl rfl pc
      have balance := moved i (.encoding popped)
      have share : WorkerPc.holds context (.encoding popped) = [popped].count context := by
        simp [WorkerPc.holds, List.count_singleton]
      have split : (popped :: queue.items).count context =
          queue.items.count context + [popped].count context := by
        rw [List.count_cons, List.count_singleton]
      rw [taken, split] at conserved
      rw [weightless, share] at balance
      simp only [setWorker, conserved]
      omega
  | encodes i encoded pc =>
      have balance := moved i (.listing encoded)
      have share : WorkerPc.holds context (.encoding encoded) = [encoded].count context := by
        simp [WorkerPc.holds, List.count_singleton]
      rw [pc, share] at balance
      simp only [setWorker, conserved, List.count_append]
      simp only [WorkerPc.holds] at balance
      omega
  | lists i listed pc =>
      simpa only [setWorker, kept i .readSize (by rw [pc]; rfl)] using conserved
  | workerWakes i parked =>
      simpa only [setWorker, kept i .woken (by rw [parked]; rfl)] using conserved
  | _ => exact conserved

theorem listed_of_move (move : Move outFilePath state action next) (file : String)
    (listed : (state.encoded.map (·.targetFile)).count file =
      total (WorkerPc.unlisted file) state.worker + state.j2kFiles.count file) :
    (next.encoded.map (·.targetFile)).count file =
      total (WorkerPc.unlisted file) next.worker + next.j2kFiles.count file := by
  have moved := total_update (WorkerPc.unlisted file) state.worker
  have kept := total_update_of_eq (WorkerPc.unlisted file) state.worker
  have share (context : ThreadContext) :
      WorkerPc.unlisted file (.listing context) = [context.targetFile].count file := by
    simp [WorkerPc.unlisted, List.count_singleton]
  cases move with
  | pushes notified pushed queue worker inHand appended running wakes =>
      simpa only [total_wakes (WorkerPc.unlisted file) rfl wakes] using listed
  | joins joining left =>
      have sorted := (List.mergeSort_perm state.j2kFiles
        fun first second => decide (first ≤ second)).count_eq file
      simpa only [sorted] using listed
  | commitsOnSize i pc present =>
      simpa only [setWorker, kept i .callPop (by rw [pc]; rfl)] using listed
  | seesEmpty i pc empty =>
      simpa only [setWorker, kept i .readDone (by rw [pc]; rfl)] using listed
  | commitsNotDone i pc undone =>
      simpa only [setWorker, kept i .callPop (by rw [pc]; rfl)] using listed
  | leaves i pc done =>
      simpa only [setWorker, kept i .left (by rw [pc]; rfl)] using listed
  | popWaits i pc empty =>
      have weightless := weight_before_pop (WorkerPc.unlisted file) rfl rfl pc
      simpa only [setWorker, kept i .parked weightless] using listed
  | pops i popped queue pc taken running =>
      have weightless := weight_before_pop (WorkerPc.unlisted file) rfl rfl pc
      simpa only [setWorker, kept i (.encoding popped) weightless] using listed
  | encodes i encoded pc =>
      have balance := moved i (.listing encoded)
      rw [pc, share] at balance
      simp only [setWorker, List.map_append, List.map_cons, List.map_nil, List.count_append, listed]
      simp only [WorkerPc.unlisted] at balance
      omega
  | lists i context pc =>
      have balance := moved i .readSize
      rw [pc, share] at balance
      simp only [setWorker, List.count_append, listed]
      simp only [WorkerPc.unlisted] at balance
      omega
  | workerWakes i parked =>
      simpa only [setWorker, kept i .woken (by rw [parked]; rfl)] using listed
  | _ => exact listed

theorem conserved_of_step (before : Conserved outFilePath state)
    (taken : state.Steps outFilePath action next) : Conserved outFilePath next := by
  have move := step_cases before.running taken
  exact ⟨running_of_step before.running taken, done_of_move move before.done,
    left_of_move move before.left, frames_of_move move before.frames,
    fun context => conserved_of_move move context (before.conserved context),
    fun file => listed_of_move move file (before.listed file)⟩

theorem conserved_of_reachable (reached : Reachable (Steps outFilePath) (start n) state) :
    Conserved outFilePath state :=
  reached.invariant (Conserved outFilePath) (conserved_start outFilePath n)
    fun _ _ _ before taken => conserved_of_step before taken

theorem encoded_subperm (sound : Conserved outFilePath state) :
    state.encoded.Subperm (framesUpTo outFilePath state.currentFrame) := by
  have pushed : state.pushed.Subperm (framesUpTo outFilePath state.currentFrame) := by
    rw [← sound.frames]
    exact (List.sublist_append_left _ _).subperm
  refine (List.subperm_ext_iff.mpr fun context _ => ?_).trans pushed
  have balance := sound.conserved context
  omega

theorem listed_subset (sound : Conserved outFilePath state) :
    state.j2kFiles ⊆ state.encoded.map (·.targetFile) := by
  intro file member
  have positive := List.count_pos_iff.mpr member
  have balance := sound.listed file
  exact List.count_pos_iff.mp (by omega)

theorem total_of_finished (finished : state.Finished) (weight : WorkerPc → Nat)
    (zero : weight .left = 0) : total weight state.worker = 0 := by
  simp [total, finished.2, zero]

theorem pushed_of_finished (sound : Conserved outFilePath state) (finished : state.Finished) :
    state.pushed = framesUpTo outFilePath state.currentFrame := by
  have noneInHand : state.decoder.inHand = [] := by
    rcases sound.done.mp finished.1 with pc | pc <;> simp [pc, DecoderPc.inHand]
  have frames := sound.frames
  rwa [noneInHand, List.append_nil] at frames

theorem encoded_perm (sound : Conserved outFilePath state) (finished : state.Finished)
    (empty : state.encodingQueue.items = []) : state.pushed.Perm state.encoded := by
  refine List.perm_iff_count.mpr fun context => ?_
  have balance := sound.conserved context
  rw [empty, total_of_finished finished _ rfl] at balance
  simpa using balance

theorem listed_perm (sound : Conserved outFilePath state) (finished : state.Finished) :
    (state.encoded.map (·.targetFile)).Perm state.j2kFiles := by
  refine List.perm_iff_count.mpr fun file => ?_
  have balance := sound.listed file
  rwa [total_of_finished finished _ rfl, Nat.zero_add] at balance

theorem allEncodedOnce_of_empty (sound : Conserved outFilePath state)
    (finished : state.Finished) (empty : state.encodingQueue.items = []) :
    state.AllEncodedOnce := by
  have filesNodup : (state.pushed.map (·.targetFile)).Nodup := by
    rw [pushed_of_finished sound finished]
    exact framesUpTo_files_nodup outFilePath state.currentFrame
  have sameFrames := encoded_perm sound finished empty
  have sameFiles := (sameFrames.map _).trans (listed_perm sound finished)
  refine ⟨empty, fun context member => ⟨?_, ?_⟩⟩
  · rw [← sameFrames.count_eq]
    exact List.count_eq_one_of_mem (List.Nodup.of_map _ filesNodup) member
  · rw [← sameFiles.count_eq]
    exact List.count_eq_one_of_mem filesNodup (List.mem_map_of_mem member)

/-- The queue of a state that is past its last chance to be emptied. -/
def Lost (state : EncodeState n) : Prop :=
  state.Finished ∧ state.encodingQueue.items ≠ []

theorem lost_of_step (sound : Conserved outFilePath state) (lost : state.Lost)
    (taken : state.Steps outFilePath action next) : next.Lost := by
  obtain ⟨⟨done, left⟩, present⟩ := lost
  have finishedPc := sound.done.mp done
  have nothingInHand (context : ThreadContext) : state.decoder.inHand ≠ [context] := by
    rcases finishedPc with pc | pc <;> simp [pc, DecoderPc.inHand]
  have notDecoding : state.decoder ≠ .decoding := by
    rcases finishedPc with pc | pc <;> simp [pc]
  cases step_cases sound.running taken with
  | decodes idle => exact absurd idle notDecoding
  | pushWaits notified context inHand => exact absurd inHand (nothingInHand context)
  | pushes notified context queue worker inHand => exact absurd inHand (nothingInHand context)
  | finishes idle => exact absurd idle notDecoding
  | joins joining _ => exact ⟨⟨done, left⟩, present⟩
  | decoderWakes context parked =>
      rcases finishedPc with pc | pc <;> rw [pc] at parked <;> cases parked
  | commitsOnSize i pc | seesEmpty i pc | commitsNotDone i pc | leaves i pc | encodes i _ pc
    | lists i _ pc | workerWakes i pc => rw [left i] at pc; cases pc
  | popWaits i pc | pops i _ _ pc => rw [left i] at pc; rcases pc with pc | pc <;> cases pc

theorem finishing_step (sound : Conserved outFilePath state) (positive : 0 < n)
    (taken : state.Steps outFilePath action next) (finished : next.Finished) :
    (state.Finished ∧ next.encodingQueue.items = state.encodingQueue.items) ∨
      ∃ i, action = .work i ∧ state.worker i = .readDone ∧ state.gDone = true ∧
        (∀ j, j ≠ i → state.worker j = .left) ∧
        next.encodingQueue.items = state.encodingQueue.items := by
  obtain ⟨done, left⟩ := finished
  have stillIn {i : Fin n} {pc : WorkerPc} (stays : pc ≠ .left) :
      ¬ ∀ j, (Function.update state.worker i pc) j = .left := by
    intro all
    have own := all i
    rw [Function.update_self] at own
    exact stays own
  cases step_cases sound.running taken with
  | decodes idle => exact .inl ⟨⟨done, left⟩, rfl⟩
  | pushWaits notified context inHand => exact .inl ⟨⟨done, left⟩, rfl⟩
  | pushes notified context queue worker inHand =>
      rcases sound.done.mp done with pc | pc <;> simp [pc, DecoderPc.inHand] at inHand
  | finishes idle =>
      have early := sound.done.mp (sound.left ⟨0, positive⟩ (left ⟨0, positive⟩))
      rcases early with pc | pc <;> rw [pc] at idle <;> cases idle
  | joins joining _ => exact .inl ⟨⟨done, left⟩, rfl⟩
  | leaves i pc _ =>
      refine .inr ⟨i, rfl, pc, done, fun j other => ?_, rfl⟩
      have own := left j
      simpa only [setWorker, Function.update_of_ne other] using own
  | decoderWakes context parked => exact .inl ⟨⟨done, left⟩, rfl⟩
  | commitsOnSize | seesEmpty | commitsNotDone | popWaits | pops | encodes | lists
    | workerWakes => exact absurd left (stillIn (by simp))

/-- A last leave that meets no guard loses the frames in the queue. -/
theorem lost_of_unguarded (unguarded : ¬ LastLeavesEmptyQueue state action)
    (taken : state.Steps outFilePath action next) : next.Lost := by
  simp only [LastLeavesEmptyQueue, not_forall] at unguarded
  obtain ⟨i, rfl, pc, done, others, present⟩ := unguarded
  have left : next = state.setWorker i .left := by
    simpa [Steps, step, work, pc, done] using taken.symm
  subst left
  refine ⟨⟨done, fun j => ?_⟩, present⟩
  by_cases own : j = i
  · simp [setWorker, own]
  · simpa [setWorker, own] using others j own

/-- What a trace says about the state it leads to. -/
theorem run_guarded_or_lost {trace : List (EncodeState n × Action n)} (positive : 0 < n)
    (run : Run (Steps outFilePath) (start n) trace state) :
    (¬ Guarded LastLeavesEmptyQueue trace → state.Lost) ∧
      (Guarded LastLeavesEmptyQueue trace → state.Finished →
        state.encodingQueue.items = []) := by
  induction run with
  | start => exact ⟨fun unguarded => absurd guarded_nil unguarded, fun _ _ => rfl⟩
  | @step trace state next action before taken ih =>
      have sound := conserved_of_reachable ⟨trace, before⟩
      rw [guarded_append_singleton]
      constructor
      · intro unguarded
        by_cases earlier : Guarded LastLeavesEmptyQueue trace
        · exact lost_of_unguarded (fun met => unguarded ⟨earlier, met⟩) taken
        · exact lost_of_step sound (ih.1 earlier) taken
      · rintro ⟨earlier, met⟩ finished
        rcases finishing_step sound positive taken finished with
          ⟨already, kept⟩ | ⟨i, own, pc, done, others, kept⟩
        · rw [kept]
          exact ih.2 earlier already
        · rw [kept]
          exact met i own pc done others

/-- In a run to a finished state no frame is lost or encoded twice exactly if the
last worker to leave its loop did so with the queue empty. -/
theorem frames_encoded_once_iff (outFilePath : String) (n : Nat) (many : 2 ≤ n)
    (trace : List (EncodeState n × Action n)) (state : EncodeState n)
    (run : Run (Steps outFilePath) (start n) trace state) (finished : state.Finished) :
    state.AllEncodedOnce ↔ Guarded LastLeavesEmptyQueue trace := by
  obtain ⟨unguarded, guarded⟩ := run_guarded_or_lost (by omega) run
  constructor
  · intro sound
    by_contra unmet
    exact (unguarded unmet).2 sound.1
  · intro met
    exact allEncodedOnce_of_empty (conserved_of_reachable ⟨trace, run⟩) finished
      (guarded met finished)

/-- One frame goes through the queue before the decoder is done. -/
theorem frames_encoded_once_one_frame :
    ∃ trace state, Run (Steps "tmp") (start 2) trace state ∧ state.Finished ∧
      state.pushed = [threadContext "tmp" ⟨1⟩] ∧ Guarded LastLeavesEmptyQueue trace ∧
      state.AllEncodedOnce := by
  let actions : List (Action 2) := [.decodeFrame, .push none, .work 0, .work 0, .work 0, .work 0,
    .finish, .work 0, .work 0, .work 1, .work 1]
  let last := (replay (step "tmp") (start 2) actions).get (by decide)
  have replayed : replay (step "tmp") (start 2) actions = some last := (Option.some_get _).symm
  have run := run_of_replay (step "tmp") actions (start 2) last replayed
  have finished : last.Finished := by decide
  have encoded : last.AllEncodedOnce := by decide
  exact ⟨_, last, run, finished, by decide,
    (frames_encoded_once_iff "tmp" 2 (by decide) _ last run finished).mp encoded, encoded⟩

/-- Both workers see an empty queue, the last frame arrives and decoding is done, and
then both read the flag: the frame stays in the queue. -/
theorem last_frame_is_lost :
    ¬ ∀ (outFilePath : String) (n : Nat), 2 ≤ n → ∀ state : EncodeState n,
      Reachable (Steps outFilePath) (start n) state → state.Finished → state.AllEncodedOnce := by
  intro claimed
  let actions : List (Action 2) := [.work 0, .work 1, .decodeFrame, .push none, .finish,
    .work 0, .work 1]
  let last := (replay (step "tmp") (start 2) actions).get (by decide)
  have replayed : replay (step "tmp") (start 2) actions = some last := (Option.some_get _).symm
  have reached := reachable_of_replay (step "tmp") actions (start 2) last replayed
  have wrong := claimed "tmp" 2 (by decide) last reached (by decide)
  exact absurd wrong (by decide)

end EncodeState

end Imflib.Encoder
