import Imflib.Base.FileSystem
import Imflib.Base.Outcome
import Imflib.Encoder.CommandLine
import Imflib.Encoder.FileOrder
import Imflib.Encoder.WavMuxer

/-! A run of `imfenc` and the files it writes, overwrites and removes. -/

namespace Imflib.Encoder

inductive OutputFile where
  | j2k (data : List UInt8)
  | wav (data : List UInt8)
  | video (frames : List (List UInt8)) (finalized : Bool)
  | audio (wav : List UInt8) (accepted : Nat) (finalized : Bool)
  | other
  deriving DecidableEq

structure VideoSource where
  width : Int
  height : Int
  editRate : RationalNumber
  encodeRawFrame : Nat → List UInt8
  calls : VideoCalls

structure AudioSource where
  channels : Int
  initEncoder : Except String Unit
  wavData : List UInt8
  calls : AudioCalls

structure Source where
  video : Option VideoSource
  audioStreams : List AudioSource

/-- An exception that comes out of `Decode`, or one that nobody catches: it is thrown in a worker,
or it is none of the standard library. -/
inductive Interruption where
  | caught (what : String)
  | terminated
  deriving DecidableEq, Repr

/-- What `Decode` and the encoder threads leave: the frames in the order in which their files were
written, and the files listed. Workers that an exception leaves behind go on, and what is in the
files that they write late is not known, as their encoder is gone. -/
structure Phase where
  encoded : List ThreadContext
  j2kFiles : List String
  error : Option Interruption
  late : List (ThreadContext × List UInt8)

/-- Why a run ends early. Of an overflow nothing is known. -/
inductive Abort where
  | outputExists (name : String)
  | exception (what : String)
  | terminated
  | overflow
  deriving DecidableEq, Repr

def Interruption.abort : Interruption → Abort
  | caught what => .exception what
  | terminated => .terminated

structure RunState where
  disk : FileSystem OutputFile
  j2kFiles : List String
  wavFiles : List String
  late : List (ThreadContext × List UInt8)

/-- The MXF file of a mux, which is left unfinished by an exception. -/
def VideoCalls.file (calls : VideoCalls) : MxfFile :=
  match muxVideoFiles calls with
  | .ok file => file
  | .error _ =>
      ⟨(frameLoop readWriteVideo calls.essence.last calls.essence.frames calls.essence.reset).2, false⟩

def AudioCalls.file (calls : AudioCalls) : MxfFile :=
  match muxAudioFile calls with
  | .ok file => file
  | .error _ =>
      ⟨(frameLoop (readWriteAudio calls.capacity) calls.essence.last calls.essence.frames
        calls.essence.reset).2, false⟩

def VideoCalls.opens (calls : VideoCalls) : Bool :=
  success calls.openRead && success calls.pictureDescriptor && success calls.openWrite

def writeToFile (disk : FileSystem OutputFile) (path : String) (content : OutputFile) :
    FileSystem OutputFile := (disk.write path content).getD disk

def cleanFiles (files : List String) (disk : FileSystem OutputFile) : FileSystem OutputFile :=
  files.foldl FileSystem.removeFile disk

def writeLate (late : List (ThreadContext × List UInt8)) (disk : FileSystem OutputFile) :
    FileSystem OutputFile :=
  late.foldl (fun disk frame => writeToFile disk frame.1.targetFile (.j2k frame.2)) disk

def codestream (disk : FileSystem OutputFile) (path : String) : Option (List UInt8) :=
  match disk.read path with
  | some (.j2k data) => some data
  | _ => none

section Run

variable (rateText : RationalNumber → List Char) (options : ProgramOptions) (source : Source)

/-- `GetNumberAudioTracks` counts no streams unless audio is extracted. -/
def audioTracks : List AudioSource := if options.extractAudio then source.audioStreams else []

def clearOutput (name : String) (disk : FileSystem OutputFile) :
    Imflib.Outcome (FileSystem OutputFile) Abort :=
  if disk.fileExists name then
    if options.overwriteFiles then .done (disk.removeFile name) else .fail disk (.outputExists name)
  else .done disk

def initVideo (disk : FileSystem OutputFile) : Imflib.Outcome (FileSystem OutputFile) Abort :=
  match source.video with
  | none => .done disk
  | some video =>
      (clearOutput options
        (getVideoFileName rateText options video.width video.height video.editRate) disk).andThen
        fun disk =>
          match (options.j2kEncoder video.editRate video.width video.height).initEncoder with
          | .ok _ => .done disk
          | .error (.runtimeError message) => .fail disk (.exception message)
          | .error .intOverflow => .fail disk .overflow

def initTrack (disk : FileSystem OutputFile) (track : AudioSource × Nat) :
    Imflib.Outcome (FileSystem OutputFile) Abort :=
  match track.1.initEncoder with
  | .error message => .fail disk (.exception message)
  | .ok _ => clearOutput options (getAudioFileName options track.1.channels 24 track.2) disk

def initAudio (disk : FileSystem OutputFile) : Imflib.Outcome (FileSystem OutputFile) Abort :=
  Imflib.Outcome.forEach (initTrack options) (audioTracks options source).zipIdx disk

def writeFrames (phase : Phase) (disk : FileSystem OutputFile) : FileSystem OutputFile :=
  match source.video with
  | none => disk
  | some video =>
      phase.encoded.foldl (fun disk context => writeToFile disk context.targetFile
        (.j2k (video.encodeRawFrame context.videoFrame.frameNumber))) disk

def encode (phase : Phase) (disk : FileSystem OutputFile) : Imflib.Outcome RunState Abort :=
  { state := ⟨writeFrames source phase disk, phase.j2kFiles, [], phase.late⟩
    error := phase.error.map Interruption.abort }

def videoContent (video : VideoSource) (state : RunState) : OutputFile :=
  .video ((state.j2kFiles.filterMap (codestream state.disk)).take video.calls.file.accepted)
    video.calls.file.finalized

def writeVideo (video : VideoSource) (state : RunState) : RunState :=
  let name := getVideoFileName rateText options video.width video.height video.editRate
  if video.calls.opens then
    { state with disk := writeToFile state.disk name (videoContent video state) }
  else state

def runVideoMux (state : RunState) : Imflib.Outcome RunState Abort :=
  match source.video with
  | none => .done state
  | some video =>
      if options.noMux = true ∨ state.j2kFiles = [] then .done state
      else
        match muxVideoFiles video.calls with
        | .ok _ => .done (writeVideo rateText options video state)
        | .error message => .fail (writeVideo rateText options video state) (.exception message)

def wavContent (track : AudioSource) : List UInt8 :=
  muxToFile track.wavData (Int16.ofInt track.channels) (Int32.ofNat options.sampleRate.hertz) 24

def writeWav (state : RunState) (track : AudioSource × Nat) : RunState :=
  let wavName := wavFileName options.tempFilePath track.2
  { state with
    disk := writeToFile state.disk wavName (.wav (wavContent options track.1))
    wavFiles := state.wavFiles ++ [wavName] }

def writeAudio (state : RunState) (track : AudioSource × Nat) : RunState :=
  if track.1.calls.Opens then
    { state with
      disk := writeToFile state.disk (getAudioFileName options track.1.channels 24 track.2)
        (.audio (wavContent options track.1) track.1.calls.file.accepted
          track.1.calls.file.finalized) }
  else state

def runAudioMux (state : RunState) (track : AudioSource × Nat) : Imflib.Outcome RunState Abort :=
  let written := writeWav options state track
  if options.noMux then .done written
  else
    match muxAudioFile track.1.calls with
    | .ok _ => .done (writeAudio options written track)
    | .error message => .fail (writeAudio options written track) (.exception message)

/-- The body of the `try` block, up to the removal of the temporary files. -/
def runBody (phase : Phase) (disk : FileSystem OutputFile) : Imflib.Outcome RunState Abort :=
  let opened := (initVideo rateText options source disk).andThen (initAudio options source)
  match opened.error with
  | some error => .fail ⟨opened.state, [], [], []⟩ error
  | none =>
      ((encode source phase opened.state).andThen (runVideoMux rateText options source)).andThen
        (Imflib.Outcome.forEach (runAudioMux options) (audioTracks options source).zipIdx)

/-- `main` behind the command line: its exit code, for `abort` as a shell shows it, and the files. -/
def runMain (phase : Phase) (disk : FileSystem OutputFile) : Option (Nat × FileSystem OutputFile) :=
  let ended := runBody rateText options source phase disk
  let clean := cleanFiles ended.state.wavFiles (cleanFiles ended.state.j2kFiles ended.state.disk)
  match ended.error with
  | none => some (0, if options.noMux then ended.state.disk else clean)
  | some (.outputExists _) => some (1, ended.state.disk)
  | some (.exception _) => some (1, writeLate ended.state.late clean)
  | some .terminated => some (134, ended.state.disk)
  | some .overflow => none

end Run

section Encoding

variable {n : Nat}

/-- The workers alone, when main has left its threads. -/
def EncodeState.WorkerSteps (outFilePath : String) (state : EncodeState n) (action : Action n)
    (next : EncodeState n) : Prop :=
  (∃ i, action = .work i ∨ action = .wakeWorker i) ∧ state.Steps outFilePath action next

/-- How several threads come to an end: joined, or at an exception of `Decode`, after which main
cleans up while the workers go on, or at an exception that ends the process. -/
def EncodeState.Ends (outFilePath : String) (state : EncodeState n)
    (late : List (ThreadContext × List UInt8)) : Option Interruption → Prop
  | none => state.decoder = .joined ∧ late = []
  | some (.caught _) => state.decoder = .decoding ∧ ∃ later,
      Transition.Reachable (WorkerSteps outFilePath) state later ∧
        later.encoded = state.encoded ++ late.map Prod.fst
  | some .terminated =>
      (state.decoder = .decoding ∨ ∃ i context, state.worker i = .encoding context) ∧ late = []

/-- What encoding leaves after a number of decoded frames, in one thread or in several. The files
that are written and removed meanwhile are different ones, so that their order does not matter. -/
def Encodes (options : ProgramOptions) (count : Nat) (phase : Phase) : Prop :=
  if options.threads = 1 then
    phase.encoded = framesUpTo options.tempFilePath count ∧
      phase.j2kFiles = filesST options.tempFilePath count ∧ phase.late = []
  else
    ∃ state : EncodeState options.threads.toNat,
      Transition.Reachable (EncodeState.Steps options.tempFilePath) (EncodeState.start _) state ∧
        state.currentFrame = count ∧ phase.encoded = state.encoded ∧
        phase.j2kFiles = state.j2kFiles ∧ state.Ends options.tempFilePath phase.late phase.error

def Phase.unlisted (phase : Phase) : List String :=
  (phase.encoded.map (·.targetFile)).filter fun file => file ∉ phase.j2kFiles

def Phase.leftover (phase : Phase) : List String :=
  phase.unlisted ++ phase.late.map fun frame => frame.1.targetFile

end Encoding

section Sample

/-- A video of two frames and one audio track, written to the folder that holds the temporary files. -/
def sampleOptions : ProgramOptions :=
  { profile := 1
    bitsPerComponent := .br10bit
    colorFormat := .yuv422
    useTiles := false
    overwriteFiles := false
    extractAudio := true
    fullRange := false
    doMct := false
    noMux := false
    threads := 1
    inputFile := "film.avi"
    tempFilePath := "out"
    outputPath := "out"
    sampleRate := .sr48000 }

def sampleSource : Source where
  video := some
    { width := 1920
      height := 1080
      editRate := ⟨25, 1⟩
      encodeRawFrame := fun number => [UInt8.ofNat number]
      calls :=
        { openRead := 0
          pictureDescriptor := 0
          openWrite := 0
          essence :=
            { reset := 0
              frames := [⟨0, 1, 0⟩, ⟨0, 1, 0⟩]
              last := ⟨RESULT_ENDOFFILE, 0, 0⟩
              delivered := by decide
              ends := by decide }
          finalize := 0 } }
  audioStreams := [
    { channels := 2
      initEncoder := .ok ()
      wavData := [1, 2, 3, 4, 5, 6]
      calls :=
        { capacity := 6
          openRead := 0
          audioDescriptor := 0
          openWrite := 0
          essence :=
            { reset := 0
              frames := [⟨0, 6, 0⟩]
              last := ⟨RESULT_ENDOFFILE, 0, 0⟩
              delivered := by decide
              ends := by decide }
          finalize := 0 } }]

def sampleDisk : FileSystem OutputFile where
  canonical := id
  directory := fun folder => folder = "out"
  file := fun entry => if entry = ("out", "film.avi") then some .other else none
  inside := by
    intro entry filled
    by_cases same : entry = ("out", "film.avi")
    · rw [same]
      rfl
    · rw [if_neg same] at filled
      cases filled

def samplePhase : Phase := ⟨framesUpTo "out" 2, filesST "out" 2, none, []⟩

def sampleRun : Option (Nat × FileSystem OutputFile) :=
  runMain (fun _ => ['2', '5']) sampleOptions sampleSource samplePhase sampleDisk

theorem sampleRun_ended : ∃ after, sampleRun = some (0, after) := by
  have code : sampleRun.map Prod.fst = some 0 := by decide +kernel
  obtain ⟨⟨number, after⟩, ended, same⟩ := Option.map_eq_some_iff.mp code
  cases same
  exact ⟨after, ended⟩

theorem sample_encodes : Encodes sampleOptions 2 samplePhase := ⟨rfl, rfl, rfl⟩

end Sample

end Imflib.Encoder
