import Imflib.Base.Text

/-! Muxing and cleaning up. The results that the essence parser and the MXF writer
return at each call are given. The model is what `imfenc` makes of them. -/

namespace Imflib.Encoder

abbrev ResultT := Int

def RESULT_OK : ResultT := 0
def RESULT_ENDOFFILE : ResultT := -17

def success (result : ResultT) : Bool := 0 ≤ result

/-- One `ReadFrame` call and the `WriteFrame` call that follows it. -/
structure FrameCalls where
  read : ResultT
  size : Nat
  write : ResultT
  deriving DecidableEq, Repr

/-- The frame loop's calls. Behind the whole frames one more `ReadFrame` call finds
the end of the file or fails. -/
structure EssenceCalls (whole : FrameCalls → Bool) where
  reset : ResultT
  frames : List FrameCalls
  last : FrameCalls
  delivered : ∀ frame ∈ frames, whole frame = true
  ends : whole last = false

def videoFrame (calls : FrameCalls) : Bool := success calls.read

def audioFrame (capacity : Nat) (calls : FrameCalls) : Bool :=
  success calls.read && calls.size == capacity

structure VideoCalls where
  openRead : ResultT
  pictureDescriptor : ResultT
  openWrite : ResultT
  essence : EssenceCalls videoFrame
  finalize : ResultT

structure AudioCalls where
  capacity : Nat
  openRead : ResultT
  audioDescriptor : ResultT
  openWrite : ResultT
  essence : EssenceCalls (audioFrame capacity)
  finalize : ResultT

/-- What a mux leaves behind: the frames the writer accepted, and whether the file
was finalized. -/
structure MxfFile where
  accepted : Nat
  finalized : Bool
  deriving DecidableEq, Repr

def readWriteVideo (frame : FrameCalls) : ResultT :=
  if success frame.read then frame.write else frame.read

def readWriteAudio (capacity : Nat) (frame : FrameCalls) : ResultT :=
  if success frame.read then
    if frame.size != capacity then RESULT_ENDOFFILE else frame.write
  else frame.read

def frameLoop (body : FrameCalls → ResultT) (last : FrameCalls) :
    List FrameCalls → ResultT → ResultT × Nat
  | [], result => if success result then (body last, 0) else (result, 0)
  | frame :: frames, result =>
      if success result then
        let ended := frameLoop body last frames (body frame)
        (ended.1, if success (body frame) then ended.2 + 1 else ended.2)
      else (result, 0)

def muxVideoFiles (calls : VideoCalls) : Except String MxfFile :=
  if !success calls.openRead then .error "[MXFWriter] error opening j2k parser"
  else if !success calls.pictureDescriptor then
    .error "[MXFWriter] Unable to obtain essence descriptor"
  else if !success calls.openWrite then .error "[MXFWriter] Error opening mxf writer"
  else
    let ended := frameLoop readWriteVideo calls.essence.last calls.essence.frames
      calls.essence.reset
    if ended.1 = RESULT_ENDOFFILE then
      if !success calls.finalize then .error "[MXFWriter] Error writing mxf file"
      else .ok ⟨ended.2, true⟩
    else .ok ⟨ended.2, false⟩

def muxAudioFile (calls : AudioCalls) : Except String MxfFile :=
  -- The channel configuration is never filled, so only the descriptor call sets the status.
  let described := if success calls.openRead then calls.audioDescriptor else calls.openRead
  let opened := if success described then calls.openWrite else described
  let ended :=
    if success opened then
      let looped := frameLoop (readWriteAudio calls.capacity) calls.essence.last
        calls.essence.frames calls.essence.reset
      (if looped.1 = RESULT_ENDOFFILE then RESULT_OK else looped.1, looped.2)
    else (opened, 0)
  if success ended.1 then
    if !success calls.finalize then .error "[MXFWriter] Error writing mxf file"
    else .ok ⟨ended.2, true⟩
  else .ok ⟨ended.2, false⟩

/-- Every whole frame up to the end of the file was accepted, and the file finalized. -/
def VideoCalls.Complete (calls : VideoCalls) (file : MxfFile) : Prop :=
  calls.essence.last.read = RESULT_ENDOFFILE ∧ file.accepted = calls.essence.frames.length ∧
    file.finalized = true

def AudioCalls.Opens (calls : AudioCalls) : Prop :=
  success calls.openRead ∧ success calls.audioDescriptor ∧ success calls.openWrite

/-- A short frame counts as the end of the file. -/
def AudioCalls.Complete (calls : AudioCalls) (file : MxfFile) : Prop :=
  (calls.essence.last.read = RESULT_ENDOFFILE ∨ success calls.essence.last.read) ∧
    file.accepted = calls.essence.frames.length ∧ file.finalized = true

/-- The mux returns without throwing only after a complete file. -/
def VideoCalls.Reported (calls : VideoCalls) : Prop :=
  ∀ file, muxVideoFiles calls = .ok file → calls.Complete file

def AudioCalls.Reported (calls : AudioCalls) : Prop :=
  ∀ file, muxAudioFile calls = .ok file → calls.Complete file

namespace EssenceCalls

variable {whole : FrameCalls → Bool}

def stopStatus (essence : EssenceCalls whole) : ResultT :=
  if success essence.last.read then RESULT_ENDOFFILE else essence.last.read

def statuses (essence : EssenceCalls whole) : List ResultT :=
  essence.reset :: (essence.frames.map (·.write) ++ [essence.stopStatus])

/-- The first call of the loop that fails reports the end of the file. -/
def EndsAsEndOfFile (essence : EssenceCalls whole) : Prop :=
  essence.statuses.find? (fun result => !success result) = some RESULT_ENDOFFILE

/-- That report is true: every frame was accepted before. -/
def AllAccepted (essence : EssenceCalls whole) : Prop :=
  essence.EndsAsEndOfFile ∧ essence.stopStatus = RESULT_ENDOFFILE ∧
    (essence.frames = [] ∨
      success essence.reset ∧ ∀ frame ∈ essence.frames, success frame.write)

instance (essence : EssenceCalls whole) : Decidable essence.EndsAsEndOfFile :=
  inferInstanceAs (Decidable (_ = _))

instance (essence : EssenceCalls whole) : Decidable essence.AllAccepted :=
  inferInstanceAs (Decidable (_ ∧ _))

end EssenceCalls

/-- A call fails whose failure the video path checks. -/
def VideoCalls.Checked (calls : VideoCalls) : Prop :=
  ¬ success calls.openRead ∨ ¬ success calls.pictureDescriptor ∨ ¬ success calls.openWrite ∨
    (calls.essence.EndsAsEndOfFile ∧ ¬ success calls.finalize)

/-- In the audio path only `Finalize` is checked. -/
def AudioCalls.Checked (calls : AudioCalls) : Prop :=
  calls.Opens ∧ calls.essence.EndsAsEndOfFile ∧ ¬ success calls.finalize

instance (calls : VideoCalls) : Decidable calls.Checked :=
  inferInstanceAs (Decidable (_ ∨ _))

instance (calls : AudioCalls) : Decidable calls.Opens :=
  inferInstanceAs (Decidable (_ ∧ _))

instance (calls : AudioCalls) : Decidable calls.Checked :=
  inferInstanceAs (Decidable (_ ∧ _))

section Loop

variable {body : FrameCalls → ResultT} {last : FrameCalls}

theorem frameLoop_status (stops : success (body last) = false) (frames : List FrameCalls)
    (result : ResultT) (written : ∀ frame ∈ frames, body frame = frame.write) :
    (result :: (frames.map (·.write) ++ [body last])).find? (fun result => !success result) =
      some (frameLoop body last frames result).1 := by
  induction frames generalizing result with
  | nil =>
      cases passed : success result <;> simp [frameLoop, passed, stops]
  | cons frame frames ih =>
      have own := written frame List.mem_cons_self
      have others := fun other member => written other (List.mem_cons_of_mem frame member)
      cases passed : success result with
      | false => simp [frameLoop, passed]
      | true =>
          have rest := ih (body frame) others
          rw [List.find?_cons_of_neg (by simp [passed])]
          simpa [frameLoop, passed, own] using rest

theorem frameLoop_fails (stops : success (body last) = false) (frames : List FrameCalls)
    (result : ResultT) : success (frameLoop body last frames result).1 = false := by
  induction frames generalizing result with
  | nil => cases passed : success result <;> simp [frameLoop, passed, stops]
  | cons frame frames ih =>
      cases passed : success result <;> simp [frameLoop, passed, ih]

variable (body last) in
theorem frameLoop_le (frames : List FrameCalls) (result : ResultT) :
    (frameLoop body last frames result).2 ≤ frames.length := by
  induction frames generalizing result with
  | nil => cases passed : success result <;> simp [frameLoop, passed]
  | cons frame frames ih =>
      have rest := ih (body frame)
      cases passed : success result with
      | false => simp [frameLoop, passed]
      | true =>
          simp only [frameLoop, passed, if_true, List.length_cons]
          split <;> omega

theorem frameLoop_accepts (frames : List FrameCalls) (result : ResultT)
    (written : ∀ frame ∈ frames, body frame = frame.write) :
    (frameLoop body last frames result).2 = frames.length ↔
      frames = [] ∨ success result ∧ ∀ frame ∈ frames, success frame.write := by
  induction frames generalizing result with
  | nil => cases passed : success result <;> simp [frameLoop, passed]
  | cons frame frames ih =>
      have own := written frame List.mem_cons_self
      have rest := ih (body frame) fun other member =>
        written other (List.mem_cons_of_mem frame member)
      have bound := frameLoop_le body last frames (body frame)
      cases passed : success result with
      | false => simp [frameLoop, passed]
      | true =>
          simp only [frameLoop, passed, if_true, List.length_cons, own]
          rw [own] at rest bound
          cases accepted : success frame.write with
          | false =>
              simp only [accepted, Bool.false_eq_true, if_false, List.mem_cons, forall_eq_or_imp]
              constructor
              · intro impossible
                omega
              · simp
          | true =>
              simp only [accepted, if_true, Nat.add_right_cancel_iff, rest]
              simp only [accepted, List.mem_cons, forall_eq_or_imp, true_and]
              constructor
              · rintro (rfl | all)
                · simp
                · exact .inr all
              · rintro (impossible | all)
                · cases impossible
                · exact .inr all

end Loop

section Essence

variable {whole : FrameCalls → Bool} (essence : EssenceCalls whole) {body : FrameCalls → ResultT}

theorem stopStatus_fails : success essence.stopStatus = false := by
  cases read : success essence.last.read <;> simp [EssenceCalls.stopStatus, read, RESULT_ENDOFFILE]
  rfl

theorem frameLoop_endOfFile (delivers : ∀ frame, whole frame → body frame = frame.write)
    (stops : body essence.last = essence.stopStatus) :
    (frameLoop body essence.last essence.frames essence.reset).1 = RESULT_ENDOFFILE ↔
      essence.EndsAsEndOfFile := by
  have written := fun frame member => delivers frame (essence.delivered frame member)
  have fails : success (body essence.last) = false := stops ▸ stopStatus_fails essence
  have status := frameLoop_status fails essence.frames essence.reset written
  rw [EssenceCalls.EndsAsEndOfFile, EssenceCalls.statuses, ← stops, status]
  simp

theorem frameLoop_allAccepted (delivers : ∀ frame, whole frame → body frame = frame.write)
    (ended : essence.EndsAsEndOfFile) :
    (essence.stopStatus = RESULT_ENDOFFILE ∧
      (frameLoop body essence.last essence.frames essence.reset).2 = essence.frames.length) ↔
      essence.AllAccepted := by
  have written := fun frame member => delivers frame (essence.delivered frame member)
  rw [frameLoop_accepts essence.frames essence.reset written, EssenceCalls.AllAccepted]
  exact ⟨fun both => ⟨ended, both⟩, fun all => all.2⟩

end Essence

theorem readWriteVideo_delivers (frame : FrameCalls) (whole : videoFrame frame) :
    readWriteVideo frame = frame.write := if_pos whole

theorem readWriteVideo_stops (essence : EssenceCalls videoFrame) :
    readWriteVideo essence.last = essence.stopStatus := by
  have failed : success essence.last.read = false := essence.ends
  simp [readWriteVideo, EssenceCalls.stopStatus, failed]

theorem readWriteAudio_delivers (capacity : Nat) (frame : FrameCalls)
    (whole : audioFrame capacity frame) : readWriteAudio capacity frame = frame.write := by
  simp only [audioFrame, Bool.and_eq_true, beq_iff_eq] at whole
  simp [readWriteAudio, whole]

theorem readWriteAudio_stops {capacity : Nat} (essence : EssenceCalls (audioFrame capacity)) :
    readWriteAudio capacity essence.last = essence.stopStatus := by
  have cut := essence.ends
  simp only [audioFrame, Bool.and_eq_false_iff, beq_eq_false_iff_ne] at cut
  rcases cut with failed | short
  · simp [readWriteAudio, EssenceCalls.stopStatus, failed]
  · simp [readWriteAudio, EssenceCalls.stopStatus, short]

theorem audio_stopStatus {capacity : Nat} (essence : EssenceCalls (audioFrame capacity)) :
    essence.stopStatus = RESULT_ENDOFFILE ↔
      essence.last.read = RESULT_ENDOFFILE ∨ success essence.last.read := by
  cases read : success essence.last.read <;> simp [EssenceCalls.stopStatus, read]

theorem video_stopStatus (essence : EssenceCalls videoFrame) :
    essence.stopStatus = RESULT_ENDOFFILE ↔ essence.last.read = RESULT_ENDOFFILE := by
  have failed : success essence.last.read = false := essence.ends
  simp [EssenceCalls.stopStatus, failed]

theorem muxVideoFiles_throws_iff (calls : VideoCalls) :
    (∃ error, muxVideoFiles calls = .error error) ↔ calls.Checked := by
  have ended := frameLoop_endOfFile calls.essence readWriteVideo_delivers
    (readWriteVideo_stops calls.essence)
  unfold muxVideoFiles VideoCalls.Checked
  cases success calls.openRead <;> cases success calls.pictureDescriptor <;>
    cases success calls.openWrite <;> simp [ended]
  by_cases endOfFile : calls.essence.EndsAsEndOfFile <;>
    cases success calls.finalize <;> simp [endOfFile]

theorem muxVideoFiles_complete_iff {calls : VideoCalls} {file : MxfFile}
    (returned : muxVideoFiles calls = .ok file) :
    calls.Complete file ↔ calls.essence.AllAccepted := by
  have ended := frameLoop_endOfFile calls.essence readWriteVideo_delivers
    (readWriteVideo_stops calls.essence)
  have accepted := frameLoop_allAccepted calls.essence readWriteVideo_delivers
  have stop := video_stopStatus calls.essence
  unfold muxVideoFiles at returned
  split at returned
  · cases returned
  split at returned
  · cases returned
  split at returned
  · cases returned
  simp only [ended] at returned
  split at returned
  · rename_i endOfFile
    split at returned <;> cases returned
    simpa [VideoCalls.Complete, ← stop] using accepted endOfFile
  · rename_i other
    cases returned
    simp [VideoCalls.Complete, EssenceCalls.AllAccepted, other]

theorem videoReported_iff (calls : VideoCalls) :
    calls.Reported ↔ calls.Checked ∨ calls.essence.AllAccepted := by
  rw [← muxVideoFiles_throws_iff, VideoCalls.Reported]
  cases returned : muxVideoFiles calls with
  | error error => simp
  | ok file => simp [muxVideoFiles_complete_iff returned]

theorem muxAudioFile_eq (calls : AudioCalls) :
    muxAudioFile calls =
      let looped := frameLoop (readWriteAudio calls.capacity) calls.essence.last
        calls.essence.frames calls.essence.reset
      if calls.Opens then
        if calls.essence.EndsAsEndOfFile then
          if success calls.finalize then .ok ⟨looped.2, true⟩
          else .error "[MXFWriter] Error writing mxf file"
        else .ok ⟨looped.2, false⟩
      else .ok ⟨0, false⟩ := by
  have ended := frameLoop_endOfFile calls.essence (readWriteAudio_delivers calls.capacity)
    (readWriteAudio_stops calls.essence)
  have fails := frameLoop_fails
    ((readWriteAudio_stops calls.essence) ▸ stopStatus_fails calls.essence)
    calls.essence.frames calls.essence.reset
  have passed : success RESULT_OK = true := rfl
  unfold muxAudioFile AudioCalls.Opens
  by_cases openRead : success calls.openRead
  · by_cases described : success calls.audioDescriptor
    · by_cases opened : success calls.openWrite
      · by_cases endOfFile : calls.essence.EndsAsEndOfFile
        · cases success calls.finalize <;>
            simp [openRead, described, opened, ended, endOfFile, passed]
        · simp [openRead, described, opened, ended, endOfFile, fails]
      · simp [openRead, described, opened]
    · simp [openRead, described]
  · simp [openRead]

theorem muxAudioFile_throws_iff (calls : AudioCalls) :
    (∃ error, muxAudioFile calls = .error error) ↔ calls.Checked := by
  rw [muxAudioFile_eq, AudioCalls.Checked]
  by_cases opens : calls.Opens <;> by_cases ended : calls.essence.EndsAsEndOfFile <;>
    cases success calls.finalize <;> simp [opens, ended]

theorem muxAudioFile_complete_iff {calls : AudioCalls} {file : MxfFile}
    (returned : muxAudioFile calls = .ok file) :
    calls.Complete file ↔ calls.Opens ∧ calls.essence.AllAccepted := by
  have accepted := frameLoop_allAccepted calls.essence (readWriteAudio_delivers calls.capacity)
  have stop := audio_stopStatus calls.essence
  rw [muxAudioFile_eq] at returned
  simp only at returned
  split at returned
  · rename_i opens
    split at returned
    · rename_i endOfFile
      split at returned
      · cases returned
        simpa [AudioCalls.Complete, opens, ← stop] using accepted endOfFile
      · cases returned
    · rename_i other
      cases returned
      simp [AudioCalls.Complete, EssenceCalls.AllAccepted, other]
  · rename_i closed
    cases returned
    simp [AudioCalls.Complete, closed]

theorem audioReported_iff (calls : AudioCalls) :
    calls.Reported ↔ calls.Checked ∨ calls.Opens ∧ calls.essence.AllAccepted := by
  rw [← muxAudioFile_throws_iff, AudioCalls.Reported]
  cases returned : muxAudioFile calls with
  | error error => simp
  | ok file => simp [muxAudioFile_complete_iff returned]

/-- What `main` has when encoding is over. -/
structure Encoded where
  noMux : Bool
  tempFilePath : String
  hasVideoTrack : Bool
  j2kFiles : List String
  video : VideoCalls
  audio : List AudioCalls

/-- The end of `main`: its exit code and the files it removes. -/
structure Exit where
  exitCode : Nat
  removed : List String
  deriving DecidableEq, Repr

/-- `<tempFilePath>/AUDIO_<index, seven digits at least>.wav` -/
def wavFileName (tempFilePath : String) (index : Nat) : String :=
  tempFilePath ++ "/AUDIO_" ++ String.ofList (Text.padLeft 7 '0' (Text.digits index)) ++ ".wav"

def muxesVideo (encoded : Encoded) : Bool :=
  !encoded.noMux && (encoded.hasVideoTrack && !encoded.j2kFiles.isEmpty)

def muxVideo (encoded : Encoded) : Except String Unit :=
  if muxesVideo encoded then (muxVideoFiles encoded.video).map fun _ => () else .ok ()

/-- Write each WAV file and mux it: the WAV files written so far and how it ends. -/
def muxAudio (encoded : Encoded) : Nat → List AudioCalls → List String × Except String Unit
  | _, [] => ([], .ok ())
  | index, calls :: audio =>
      match if encoded.noMux then .ok ⟨0, false⟩ else muxAudioFile calls with
      | .error error => ([wavFileName encoded.tempFilePath index], .error error)
      | .ok _ =>
          let rest := muxAudio encoded (index + 1) audio
          (wavFileName encoded.tempFilePath index :: rest.1, rest.2)

/-- The mux and clean-up part of `main`, with its exception handler. -/
def muxAndClean (encoded : Encoded) : Exit :=
  match muxVideo encoded with
  | .error _ => ⟨1, encoded.j2kFiles⟩
  | .ok _ =>
      match muxAudio encoded 0 encoded.audio with
      | (wavFiles, .error _) => ⟨1, encoded.j2kFiles ++ wavFiles⟩
      | (wavFiles, .ok _) =>
          ⟨0, if encoded.noMux then [] else encoded.j2kFiles ++ wavFiles⟩

def Encoded.Complete (encoded : Encoded) : Prop :=
  (muxesVideo encoded → ∃ file, muxVideoFiles encoded.video = .ok file ∧
    encoded.video.Complete file) ∧
  ∀ calls ∈ encoded.audio, ∃ file, muxAudioFile calls = .ok file ∧ calls.Complete file

/-- The temporary files are removed with exit code 0 only if every file is complete. -/
def Encoded.Reported (encoded : Encoded) : Prop :=
  (muxAndClean encoded).exitCode = 0 → (muxAndClean encoded).removed ≠ [] → encoded.Complete

/-- Some mux that is run fails where the failure is checked. -/
def Encoded.Checked (encoded : Encoded) : Prop :=
  (muxesVideo encoded ∧ encoded.video.Checked) ∨ ∃ calls ∈ encoded.audio, calls.Checked

def Encoded.AllAccepted (encoded : Encoded) : Prop :=
  (muxesVideo encoded → encoded.video.essence.AllAccepted) ∧
    ∀ calls ∈ encoded.audio, calls.Opens ∧ calls.essence.AllAccepted

theorem muxAudio_throws_iff (encoded : Encoded) (muxed : encoded.noMux = false) (index : Nat)
    (audio : List AudioCalls) :
    (∃ error, (muxAudio encoded index audio).2 = .error error) ↔
      ∃ calls ∈ audio, calls.Checked := by
  induction audio generalizing index with
  | nil => simp [muxAudio]
  | cons calls audio ih =>
      have own := muxAudioFile_throws_iff calls
      cases returned : muxAudioFile calls with
      | error error =>
          have checked : calls.Checked := own.mp ⟨error, returned⟩
          simp [muxAudio, muxed, returned, checked]
      | ok file =>
          have unchecked : ¬ calls.Checked := by
            rw [← own]
            simp [returned]
          simp [muxAudio, muxed, returned, unchecked, ih]

theorem muxVideo_throws_iff (encoded : Encoded) :
    (∃ error, muxVideo encoded = .error error) ↔
      muxesVideo encoded ∧ encoded.video.Checked := by
  rw [← muxVideoFiles_throws_iff, muxVideo]
  cases muxesVideo encoded with
  | false => simp
  | true => cases muxVideoFiles encoded.video <;> simp [Except.map]

theorem exitCode_zero_iff (encoded : Encoded) (muxed : encoded.noMux = false) :
    (muxAndClean encoded).exitCode = 0 ↔ ¬ encoded.Checked := by
  have video := muxVideo_throws_iff encoded
  have audio := muxAudio_throws_iff encoded muxed 0 encoded.audio
  rw [Encoded.Checked, ← video, ← audio, muxAndClean]
  cases muxVideo encoded with
  | error error => simp
  | ok =>
      cases rest : muxAudio encoded 0 encoded.audio with
      | mk wavFiles ended => cases ended <;> simp

theorem muxAudio_wavFiles (encoded : Encoded) (index : Nat) (audio : List AudioCalls) :
    (muxAudio encoded index audio).1 = [] ↔ audio = [] := by
  cases audio with
  | nil => simp [muxAudio]
  | cons calls audio =>
      simp only [muxAudio, reduceCtorEq, iff_false]
      split <;> simp

theorem removed_nil {encoded : Encoded} (muxed : encoded.noMux = false)
    (exited : (muxAndClean encoded).exitCode = 0) (removed : (muxAndClean encoded).removed = []) :
    encoded.j2kFiles = [] ∧ encoded.audio = [] := by
  unfold muxAndClean at exited removed
  cases video : muxVideo encoded with
  | error error => simp [video] at exited
  | ok done =>
      have names := muxAudio_wavFiles encoded 0 encoded.audio
      cases rest : muxAudio encoded 0 encoded.audio with
      | mk wavFiles ended =>
          rw [rest] at names
          cases ended with
          | error error => simp [video, rest] at exited
          | ok audioDone =>
              simp only [video, rest, muxed, Bool.false_eq_true, if_false,
                List.append_eq_nil_iff] at removed
              exact ⟨removed.1, names.mp removed.2⟩

theorem complete_iff_allAccepted {encoded : Encoded} (unchecked : ¬ encoded.Checked) :
    encoded.Complete ↔ encoded.AllAccepted := by
  have videoReturns : muxesVideo encoded →
      ((∃ file, muxVideoFiles encoded.video = .ok file ∧ encoded.video.Complete file) ↔
        encoded.video.essence.AllAccepted) := by
    intro muxes
    cases returned : muxVideoFiles encoded.video with
    | error error =>
        exact absurd (.inl ⟨muxes, (muxVideoFiles_throws_iff _).mp ⟨error, returned⟩⟩) unchecked
    | ok file => simp [muxVideoFiles_complete_iff returned]
  have audioReturns : ∀ calls ∈ encoded.audio,
      ((∃ file, muxAudioFile calls = .ok file ∧ calls.Complete file) ↔
        calls.Opens ∧ calls.essence.AllAccepted) := by
    intro calls member
    cases returned : muxAudioFile calls with
    | error error =>
        have checked := (muxAudioFile_throws_iff calls).mp ⟨error, returned⟩
        exact absurd (.inr ⟨calls, member, checked⟩) unchecked
    | ok file => simp [muxAudioFile_complete_iff returned]
  exact and_congr (forall_congr' videoReturns)
    (forall_congr' fun calls => forall_congr' fun member => audioReturns calls member)

theorem encodedReported_iff (encoded : Encoded) :
    encoded.Reported ↔ encoded.noMux = true ∨ encoded.Checked ∨ encoded.AllAccepted := by
  unfold Encoded.Reported
  cases muxed : encoded.noMux with
  | true =>
      have kept : (muxAndClean encoded).exitCode = 0 → (muxAndClean encoded).removed = [] := by
        unfold muxAndClean
        split
        · simp
        · split <;> simp [muxed]
      simp only [true_or, iff_true]
      exact fun exited removed => absurd (kept exited) removed
  | false =>
      rw [exitCode_zero_iff encoded muxed]
      by_cases checked : encoded.Checked
      · simp [checked]
      · have exited := (exitCode_zero_iff encoded muxed).mpr checked
        rw [complete_iff_allAccepted checked]
        simp only [checked, not_false_eq_true, forall_const, Bool.false_eq_true, false_or]
        constructor
        · intro reported
          by_cases removed : (muxAndClean encoded).removed = []
          · obtain ⟨noVideo, noAudio⟩ := removed_nil muxed exited removed
            simp [Encoded.AllAccepted, muxesVideo, noVideo, noAudio]
          · exact reported removed
        · exact fun all _ => all

/-- A failing mux is reported exactly if the failing call is one whose result is
checked: in the video path every call outside the frame loop, in the audio path `Finalize`. -/
theorem failing_mux_reported_iff (video : VideoCalls) (audio : AudioCalls) (encoded : Encoded) :
    (video.Reported ↔ video.Checked ∨ video.essence.AllAccepted) ∧
    (audio.Reported ↔ audio.Checked ∨ audio.Opens ∧ audio.essence.AllAccepted) ∧
    (encoded.Reported ↔ encoded.noMux = true ∨ encoded.Checked ∨ encoded.AllAccepted) :=
  ⟨videoReported_iff video, audioReported_iff audio, encodedReported_iff encoded⟩

def diskFull : VideoCalls where
  openRead := RESULT_OK
  pictureDescriptor := RESULT_OK
  openWrite := RESULT_OK
  essence :=
    { reset := RESULT_OK
      frames := [⟨RESULT_OK, 1000, RESULT_OK⟩, ⟨RESULT_OK, 1000, -1⟩]
      last := ⟨RESULT_ENDOFFILE, 0, RESULT_OK⟩
      delivered := by decide
      ends := by decide }
  finalize := RESULT_OK

/-- Encoding left two frames, and the mux stops after the first. -/
def diskFullRun : Encoded where
  noMux := false
  tempFilePath := "tmp"
  hasVideoTrack := true
  j2kFiles := ["tmp/0000001.j2k", "tmp/0000002.j2k"]
  video := diskFull
  audio := []

theorem failing_mux_goes_unreported :
    ¬ ((∀ calls : VideoCalls, calls.Reported) ∧ (∀ calls : AudioCalls, calls.Reported) ∧
      ∀ encoded : Encoded, encoded.Reported) := by
  rintro ⟨_, _, cleaned⟩
  have wrong := cleaned diskFullRun (by decide) (by decide)
  obtain ⟨file, returned, complete⟩ := wrong.1 (by decide)
  have truncated : muxVideoFiles diskFullRun.video = .ok ⟨1, false⟩ := by decide
  rw [truncated] at returned
  cases returned
  exact absurd complete.2.2 (by decide)

end Imflib.Encoder
