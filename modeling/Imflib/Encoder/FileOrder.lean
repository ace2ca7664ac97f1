import Mathlib.Data.String.Basic
import Imflib.Encoder.FrameConservation

/-! The order of the encoded files: the workers list them as they finish, and sorting the names
has to bring them back into the order of decoding. -/

namespace Imflib.Encoder

open Transition

def handleVideoFrame_ST (outFilePath : String) (outFiles : List String) (rawFrame : RawVideoFrame) :
    List String := outFiles ++ [targetFile outFilePath rawFrame]

def decodedFrames (count : Nat) : List RawVideoFrame :=
  (List.range count).map fun number => ⟨number + 1⟩

def filesST (outFilePath : String) (count : Nat) : List String :=
  (decodedFrames count).foldl (handleVideoFrame_ST outFilePath) []

theorem filesST_eq (outFilePath : String) (count : Nat) :
    filesST outFilePath count = (framesUpTo outFilePath count).map (·.targetFile) := by
  have listed (frames : List RawVideoFrame) (files : List String) :
      frames.foldl (handleVideoFrame_ST outFilePath) files =
        files ++ frames.map (targetFile outFilePath) := by
    induction frames generalizing files with
    | nil => exact (List.append_nil files).symm
    | cons frame rest ih =>
        rw [List.foldl_cons, ih, handleVideoFrame_ST, List.map_cons, List.append_assoc,
          List.singleton_append]
  rw [filesST, listed, List.nil_append, decodedFrames, framesUpTo, List.map_map, List.map_map]
  rfl

section Names

variable (outFilePath : String)

theorem targetFile_lt_iff {first second : Nat} :
    targetFile outFilePath ⟨first⟩ < targetFile outFilePath ⟨second⟩ ↔
      Text.padLeft 7 '0' (Text.digits first) ++ ".j2k".toList <
        Text.padLeft 7 '0' (Text.digits second) ++ ".j2k".toList := by
  simp only [String.lt_iff, targetFile, String.toList_append, String.toList_ofList, List.append_assoc]
  rw [Text.append_lt_append_left_iff, Text.append_lt_append_left_iff]

theorem targetFile_lt {first second : Nat} (less : first < second) (fits : second < 10 ^ 7) :
    targetFile outFilePath ⟨first⟩ < targetFile outFilePath ⟨second⟩ := by
  have padded := Text.padLeft_digits_lt (by decide) less fits
  have fitsText {k : Nat} (small : k < 10 ^ 7) : (Text.digits k).length ≤ 7 :=
    (Nat.length_toDigits_le_iff (by decide) (by decide)).mpr small
  rw [targetFile_lt_iff]
  refine Text.append_lt_append ?_ padded _ _
  rw [Text.length_padLeft 7 '0' (fitsText (less.trans fits)), Text.length_padLeft 7 '0' (fitsText fits)]

/-- The first name with eight digits stands before the last one with seven. -/
theorem targetFile_eight_digits :
    targetFile outFilePath ⟨10000000⟩ < targetFile outFilePath ⟨9999999⟩ := by
  rw [targetFile_lt_iff]
  decide +kernel

theorem filesST_sorted_iff (count : Nat) :
    (filesST outFilePath count).Pairwise (· ≤ ·) ↔ count < 10 ^ 7 := by
  rw [filesST_eq, framesUpTo, List.map_map, List.pairwise_map]
  constructor
  · intro sorted
    have ordered (first second : Nat) (less : first < second) (inside : second < count) :
        targetFile outFilePath ⟨first + 1⟩ ≤ targetFile outFilePath ⟨second + 1⟩ := by
      have pair := List.pairwise_iff_getElem.mp sorted first second
        (by rw [List.length_range]; omega) (by rw [List.length_range]; exact inside) less
      rwa [List.getElem_range, List.getElem_range] at pair
    by_contra many
    have last := ordered 9999998 9999999 (by decide) (by omega)
    exact absurd (targetFile_eight_digits outFilePath) (not_lt.mpr last)
  · intro few
    refine List.pairwise_lt_range.imp_of_mem ?_
    intro first second _ member less
    have fits := List.mem_range.mp member
    exact (targetFile_lt outFilePath (Nat.succ_lt_succ less) (by omega)).le

end Names

theorem mergeSort_sorted (files : List String) :
    (files.mergeSort fun first second => decide (first ≤ second)).Pairwise (· ≤ ·) := by
  have transitive (a b c : String) (first : decide (a ≤ b) = true) (second : decide (b ≤ c) = true) :
      decide (a ≤ c) = true :=
    decide_eq_true (le_trans (of_decide_eq_true first) (of_decide_eq_true second))
  have total (a b : String) : (decide (a ≤ b) || decide (b ≤ a)) = true := by
    simpa using le_total a b
  exact (List.pairwise_mergeSort transitive total files).imp of_decide_eq_true

namespace EncodeState

variable {n : Nat} {outFilePath : String} {state next : EncodeState n} {action : Action n}

/-- After `join_all` no thread is left, and the files are sorted. -/
def SortedWhenJoined (state : EncodeState n) : Prop :=
  state.decoder = .joined → (∀ i, state.worker i = .left) ∧ state.j2kFiles.Pairwise (· ≤ ·)

theorem sortedWhenJoined_of_move (move : Move outFilePath state action next)
    (before : SortedWhenJoined state) : SortedWhenJoined next := by
  -- A worker that still moves has not left, so nothing is joined yet.
  have working {i : Fin n} {pc : WorkerPc} (at_ : state.worker i = pc) (stays : pc ≠ .left)
      (joined : state.decoder = .joined) : SortedWhenJoined next :=
    absurd (at_.symm.trans ((before joined).1 i)) stays
  cases move with
  | joins joining left => exact fun _ => ⟨left, mergeSort_sorted state.j2kFiles⟩
  | commitsOnSize i pc => exact fun joined => working pc nofun joined joined
  | seesEmpty i pc => exact fun joined => working pc nofun joined joined
  | commitsNotDone i pc => exact fun joined => working pc nofun joined joined
  | leaves i pc => exact fun joined => working pc nofun joined joined
  | encodes i context pc => exact fun joined => working pc nofun joined joined
  | lists i context pc => exact fun joined => working pc nofun joined joined
  | workerWakes i parked => exact fun joined => working parked nofun joined joined
  | popWaits i pc =>
      intro joined
      rcases pc with pc | pc <;> exact working pc nofun joined joined
  | pops i context queue pc =>
      intro joined
      have already := (DecoderPc.notified_eq_joined state.decoder).mp joined
      rcases pc with pc | pc <;> exact working pc nofun already joined
  | _ => exact nofun

theorem sortedWhenJoined_of_reachable (reached : Reachable (Steps outFilePath) (start n) state) :
    SortedWhenJoined state := by
  refine (reached.invariant (fun state => Conserved outFilePath state ∧ SortedWhenJoined state)
    ⟨conserved_start outFilePath n, nofun⟩ ?_).2
  intro state action next holds taken
  exact ⟨conserved_of_step holds.1 taken,
    sortedWhenJoined_of_move (step_cases holds.1.running taken) holds.2⟩

/-- After all threads are joined and all frames are encoded, the files are in the order of single
threaded encoding if and only if the frame numbers have seven digits. -/
theorem files_in_order_iff (reached : Reachable (Steps outFilePath) (start n) state)
    (joined : state.decoder = .joined) (encoded : state.AllEncodedOnce) :
    state.j2kFiles = filesST outFilePath state.currentFrame ↔ state.currentFrame < 10 ^ 7 := by
  have sound := conserved_of_reachable reached
  obtain ⟨left, sorted⟩ := sortedWhenJoined_of_reachable reached joined
  have finished : state.Finished := ⟨sound.done.mpr (Or.inr joined), left⟩
  have same : state.j2kFiles.Perm (filesST outFilePath state.currentFrame) := by
    rw [filesST_eq, ← pushed_of_finished sound finished]
    exact (((encoded_perm sound finished encoded.1).map _).trans (listed_perm sound finished)).symm
  rw [← filesST_sorted_iff outFilePath]
  constructor
  · intro equal
    exact equal ▸ sorted
  · intro expected
    exact same.eq_of_pairwise (fun _ _ _ _ => le_antisymm) sorted expected

section Sample

theorem framesUpTo_succ (outFilePath : String) (count : Nat) :
    framesUpTo outFilePath (count + 1) =
      framesUpTo outFilePath count ++ [threadContext outFilePath ⟨count + 1⟩] := by
  rw [framesUpTo, List.range_succ, List.map_append]
  rfl

def idle (outFilePath : String) (count : Nat) : EncodeState 2 :=
  { start 2 with
    currentFrame := count
    j2kFiles := (framesUpTo outFilePath count).map (·.targetFile)
    pushed := framesUpTo outFilePath count
    encoded := framesUpTo outFilePath count }

def round : List (Action 2) := [.decodeFrame, .push none, .work 0, .work 0, .work 0, .work 0]

theorem replay_round (outFilePath : String) (count : Nat) :
    replay (step outFilePath) (idle outFilePath count) round =
      some (idle outFilePath (count + 1)) := by
  let context := threadContext outFilePath ⟨count + 1⟩
  have still : Function.update (Function.update (Function.update (Function.update
      (fun _ => .readSize : Fin 2 → WorkerPc) 0 .callPop) 0 (.encoding context)) 0
        (.listing context)) 0 .readSize = fun _ => .readSize := by
    rw [Function.update_idem, Function.update_idem, Function.update_idem]
    exact Function.update_eq_self 0 _
  calc replay (step outFilePath) (idle outFilePath count) round
      = some { start 2 with
          currentFrame := count + 1
          worker := Function.update (Function.update (Function.update (Function.update
            (fun _ => .readSize) 0 .callPop) 0 (.encoding context)) 0 (.listing context)) 0 .readSize
          j2kFiles := (framesUpTo outFilePath count).map (·.targetFile) ++ [context.targetFile]
          pushed := framesUpTo outFilePath count ++ [context]
          encoded := framesUpTo outFilePath count ++ [context] } := rfl
    _ = some (idle outFilePath (count + 1)) := by
        rw [still, idle, framesUpTo_succ, List.map_append]
        rfl

theorem reachable_idle (outFilePath : String) (count : Nat) :
    Reachable (Steps outFilePath) (start 2) (idle outFilePath count) := by
  induction count with
  | zero => exact .refl
  | succ count ih =>
      exact ih.trans (reachable_of_replay (step outFilePath) round _ _ (replay_round outFilePath count))

def leave : List (Action 2) := [.finish, .work 0, .work 0, .work 1, .work 1, .join]

def joinedAfter (outFilePath : String) (count : Nat) : EncodeState 2 :=
  { idle outFilePath count with
    gDone := true
    decoder := .joined
    worker := Function.update (Function.update (Function.update (Function.update
      (fun _ => .readSize) 0 .readDone) 0 .left) 1 .readDone) 1 .left
    j2kFiles := ((framesUpTo outFilePath count).map (·.targetFile)).mergeSort
      fun first second => decide (first ≤ second) }

theorem reachable_joinedAfter (outFilePath : String) (count : Nat) :
    Reachable (Steps outFilePath) (start 2) (joinedAfter outFilePath count) := by
  have replayed : replay (step outFilePath) (idle outFilePath count) leave =
      some (joinedAfter outFilePath count) := rfl
  exact (reachable_idle outFilePath count).trans
    (reachable_of_replay (step outFilePath) leave _ _ replayed)

theorem joinedAfter_encoded (outFilePath : String) (count : Nat) :
    (joinedAfter outFilePath count).AllEncodedOnce := by
  have reached := reachable_joinedAfter outFilePath count
  have sound := conserved_of_reachable reached
  have finished : (joinedAfter outFilePath count).Finished := by
    refine ⟨rfl, (sortedWhenJoined_of_reachable reached rfl).1⟩
  exact allEncodedOnce_of_empty sound finished rfl

/-- After ten million frames the last file is listed before earlier ones. -/
theorem eight_digits_out_of_order :
    Reachable (Steps "tmp") (start 2) (joinedAfter "tmp" 10000000) ∧
      (joinedAfter "tmp" 10000000).decoder = .joined ∧
      (joinedAfter "tmp" 10000000).AllEncodedOnce ∧
      (joinedAfter "tmp" 10000000).j2kFiles ≠ filesST "tmp" 10000000 := by
  refine ⟨reachable_joinedAfter "tmp" 10000000, rfl, joinedAfter_encoded "tmp" 10000000, ?_⟩
  intro equal
  have sorted := mergeSort_sorted ((framesUpTo "tmp" 10000000).map (·.targetFile))
  have inOrder : (filesST "tmp" 10000000).Pairwise (· ≤ ·) := equal ▸ sorted
  exact absurd ((filesST_sorted_iff "tmp" 10000000).mp inOrder) (by decide)

/-- Two frames are in order. -/
theorem two_frames_in_order :
    (joinedAfter "tmp" 2).j2kFiles = ["tmp/0000001.j2k", "tmp/0000002.j2k"] := by
  have inOrder := (files_in_order_iff (reachable_joinedAfter "tmp" 2) rfl
    (joinedAfter_encoded "tmp" 2)).mpr (by decide)
  exact inOrder.trans (by decide +kernel)

end Sample

end EncodeState

end Imflib.Encoder
