import Imflib.Encoder.DecodeDelivery
import Imflib.Encoder.Rational

/-! Opening the input: which of its streams are decoded, and what is known of the video. -/

namespace Imflib.Encoder

inductive AVMediaType where
  | video
  | audio
  | subtitle
  | data
  | attachment
  | nb
  | unknown
  deriving DecidableEq, Repr

structure AVStream where
  index : Int
  codecType : AVMediaType
  avcodecFindDecoder : Bool
  avcodecOpen2 : Int
  width : Int
  height : Int
  rFrameRate : AVRational
  sampleAspectRatio : AVRational
  swsGetContext : Bool
  channelLayout : Int
  defaultChannelLayout : Int
  swrAlloc : Bool
  swrInit : Int
  deriving DecidableEq, Repr

structure AudioStreamContext where
  stream : AVStream
  channelLayout : Int
  deriving DecidableEq, Repr

/-- What the decoder keeps of an opened file. Subtitles are never kept. -/
structure OpenedFile where
  videoStream : Option AVStream
  audioStreams : List AudioStreamContext
  deriving DecidableEq, Repr

def AVStream.decodes (type : AVMediaType) (stream : AVStream) : Bool :=
  stream.avcodecFindDecoder && stream.codecType == type

/-- A missing layout is guessed from the number of channels. -/
def AVStream.audioContext (stream : AVStream) : AudioStreamContext :=
  { stream := stream
    channelLayout :=
      if stream.channelLayout = 0 then stream.defaultChannelLayout else stream.channelLayout }

namespace OpenedFile

variable (opened : OpenedFile) (stream : AVStream)

def addVideoStream : Except String OpenedFile :=
  if stream.swsGetContext then .ok { opened with videoStream := some stream }
  else .error "Error while calling sws_getContext"

def addAudioStream : Except String OpenedFile :=
  if stream.swrAlloc = false then .error "[InputStreamDecoder] error allocating resample context"
  else if stream.swrInit ≠ 0 then
    .error "[InputStreamDecoder] error initializing resample context"
  else .ok { opened with audioStreams := opened.audioStreams ++ [stream.audioContext] }

def openStream : Except String OpenedFile :=
  if stream.avcodecFindDecoder = false then .ok opened
  else if stream.avcodecOpen2 < 0 then .error "[InputStreamDecoder] Could not open codec"
  else
    match stream.codecType with
    | .video =>
        -- A second video stream is skipped.
        if opened.videoStream.isSome then .ok opened else opened.addVideoStream stream
    | .audio => opened.addAudioStream stream
    | _ => .ok opened

end OpenedFile

def openFile (avformatOpenInput avformatFindStreamInfo : Int) (streams : List AVStream) :
    Except String OpenedFile :=
  if avformatOpenInput ≠ 0 then .error "[InputStreamDecoder] error opening file"
  else if avformatFindStreamInfo < 0 then
    .error "[InputStreamDecoder] error reading stream info from file"
  else
    match streams.foldlM OpenedFile.openStream ⟨none, []⟩ with
    | .error what => .error what
    | .ok opened =>
        if opened.videoStream.isNone && opened.audioStreams.isEmpty then
          .error "no streams detected"
        else .ok opened

namespace OpenedFile

variable (opened : OpenedFile)

def getFrameRate : RationalNumber :=
  match opened.videoStream with
  | none => ⟨0, 0⟩
  | some stream =>
      let n := avReduce stream.rFrameRate.num stream.rFrameRate.den (1024 * 1024)
      ⟨n.num, n.den⟩

def sampleAspectRatio (contextAspectRatio : AVRational) (stream : AVStream) : Option AVRational :=
  if contextAspectRatio.num ≠ 0 then some contextAspectRatio
  else if stream.sampleAspectRatio.num ≠ 0 then some stream.sampleAspectRatio
  else none

/-- The shape of the picture before it is reduced. An overflow of `int` has no result. -/
def sourceAspectRatio (stream : AVStream) : Option AVRational → Option AVRational
  | none => some ⟨stream.width, stream.height⟩
  | some sar =>
      (intProduct sar.num stream.width).bind fun num =>
        (intProduct sar.den stream.height).map fun den => ⟨num, den⟩

/-- The codec may find out about the shape of its pixels while it decodes. -/
def getAspectRatio (contextAspectRatio : AVRational) : Option RationalNumber :=
  match opened.videoStream with
  | none => some ⟨0, 0⟩
  | some stream =>
      (sourceAspectRatio stream (sampleAspectRatio contextAspectRatio stream)).map fun source =>
        let displayAspectRatio := avReduce source.num source.den (1024 * 1024)
        ⟨displayAspectRatio.num, displayAspectRatio.den⟩

end OpenedFile

/-- The library opens what a stream needs, if there is a decoder. -/
def AVStream.Opens (stream : AVStream) : Prop :=
  stream.avcodecFindDecoder = true → 0 ≤ stream.avcodecOpen2 ∧
    (stream.codecType = .audio → stream.swrAlloc = true ∧ stream.swrInit = 0)

instance : DecidablePred AVStream.Opens := fun _ => inferInstanceAs (Decidable (_ → _))

namespace OpenedFile

variable {opened next : OpenedFile} {stream : AVStream}

def keep (opened : OpenedFile) (stream : AVStream) : OpenedFile :=
  { videoStream := opened.videoStream.or (if stream.decodes .video then some stream else none)
    audioStreams := opened.audioStreams ++
      if stream.decodes .audio then [stream.audioContext] else [] }

theorem keep_of_neither (video : stream.decodes .video = false)
    (audio : stream.decodes .audio = false) : opened.keep stream = opened := by
  simp [keep, video, audio]

theorem addVideoStream_ok_iff (empty : opened.videoStream = none)
    (video : stream.decodes .video = true) (audio : stream.decodes .audio = false) :
    opened.addVideoStream stream = .ok next ↔
      stream.swsGetContext = true ∧ opened.keep stream = next := by
  have kept : opened.keep stream = { opened with videoStream := some stream } := by
    simp [keep, video, audio, empty]
  unfold addVideoStream
  rw [kept]
  cases stream.swsGetContext with
  | false => simp
  | true => simp

theorem addAudioStream_ok_iff (video : stream.decodes .video = false)
    (audio : stream.decodes .audio = true) :
    opened.addAudioStream stream = .ok next ↔
      (stream.swrAlloc = true ∧ stream.swrInit = 0) ∧ opened.keep stream = next := by
  have kept : opened.keep stream =
      { opened with audioStreams := opened.audioStreams ++ [stream.audioContext] } := by
    simp [keep, video, audio]
  unfold addAudioStream
  rw [kept]
  cases stream.swrAlloc with
  | false => simp
  | true =>
      by_cases initialized : stream.swrInit = 0
      · simp [initialized]
      · simp [initialized]

theorem openStream_ok_iff :
    opened.openStream stream = .ok next ↔ stream.Opens ∧
      (opened.videoStream = none → stream.decodes .video = true → stream.swsGetContext = true) ∧
      opened.keep stream = next := by
  unfold openStream AVStream.Opens
  cases decoder : stream.avcodecFindDecoder with
  | false =>
      have neither (type : AVMediaType) : stream.decodes type = false := by
        simp [AVStream.decodes, decoder]
      simp [keep_of_neither, neither]
  | true =>
      by_cases failed : stream.avcodecOpen2 < 0
      · simp [failed, not_le.mpr failed]
      · have decodes (type : AVMediaType) : stream.decodes type = (stream.codecType == type) := by
          simp [AVStream.decodes, decoder]
        rw [if_neg (by decide), if_neg failed]
        cases type : stream.codecType with
        | video =>
            have video : stream.decodes .video = true := by simp [decodes, type]
            have audio : stream.decodes .audio = false := by simp [decodes, type]
            cases already : opened.videoStream with
            | none =>
                simp only [Option.isSome_none, Bool.false_eq_true, if_false,
                  addVideoStream_ok_iff already video audio]
                simp [not_lt.mp failed, video]
            | some first =>
                have kept : opened.keep stream = opened := by
                  simp [keep, video, audio, already]
                  simp [← already]
                simp [not_lt.mp failed, kept]
        | audio =>
            have video : stream.decodes .video = false := by simp [decodes, type]
            have audio : stream.decodes .audio = true := by simp [decodes, type]
            simp only [addAudioStream_ok_iff video audio]
            simp [not_lt.mp failed, video]
        | _ =>
            have video : stream.decodes .video = false := by simp [decodes, type]
            have audio : stream.decodes .audio = false := by simp [decodes, type]
            simp [not_lt.mp failed, keep_of_neither video audio, video]

/-- What is kept of all streams: the first video, and all audio. -/
def keepAll (opened : OpenedFile) (streams : List AVStream) : OpenedFile :=
  { videoStream := opened.videoStream.or (streams.find? (AVStream.decodes .video))
    audioStreams := opened.audioStreams ++
      (streams.filter (AVStream.decodes .audio)).map AVStream.audioContext }

theorem keepAll_cons {streams : List AVStream} :
    opened.keepAll (stream :: streams) = (opened.keep stream).keepAll streams := by
  unfold keepAll keep
  rw [List.find?_cons, List.filter_cons]
  cases video : stream.decodes .video <;> cases audio : stream.decodes .audio <;>
    cases opened.videoStream <;> simp

def Scales (opened : OpenedFile) (streams : List AVStream) : Prop :=
  opened.videoStream = none → ∀ stream, streams.find? (AVStream.decodes .video) = some stream →
    stream.swsGetContext = true

theorem scales_cons {streams : List AVStream} : opened.Scales (stream :: streams) ↔
    (opened.videoStream = none → stream.decodes .video = true → stream.swsGetContext = true) ∧
      (opened.keep stream).Scales streams := by
  unfold Scales keep
  rw [List.find?_cons]
  cases opened.videoStream with
  | some first => simp
  | none => cases video : stream.decodes .video <;> simp

theorem openStreams_ok_iff {streams : List AVStream} :
    streams.foldlM openStream opened = .ok next ↔ (∀ stream ∈ streams, stream.Opens) ∧
      opened.Scales streams ∧ opened.keepAll streams = next := by
  induction streams generalizing opened with
  | nil => simp [pure, Except.pure, Scales, keepAll]
  | cons stream rest ih =>
      rw [List.foldlM_cons, List.forall_mem_cons, keepAll_cons, scales_cons]
      constructor
      · intro folded
        cases turned : opened.openStream stream with
        | error what =>
            rw [turned] at folded
            cases folded
        | ok middle =>
            rw [turned] at folded
            obtain ⟨opens, first, rfl⟩ := openStream_ok_iff.mp turned
            obtain ⟨others, later, same⟩ := ih.mp folded
            exact ⟨⟨opens, others⟩, ⟨first, later⟩, same⟩
      · rintro ⟨⟨opens, others⟩, ⟨first, later⟩, same⟩
        rw [openStream_ok_iff.mpr ⟨opens, first, rfl⟩]
        exact ih.mpr ⟨others, later, same⟩

end OpenedFile

namespace OpenedFile

variable {streams : List AVStream} {opened : OpenedFile}

structure From (opened : OpenedFile) (streams : List AVStream) : Prop where
  video : opened.videoStream = streams.find? (AVStream.decodes .video)
  audio : opened.audioStreams.map AudioStreamContext.stream =
    streams.filter (AVStream.decodes .audio)

theorem type_of_decodes {type : AVMediaType} {stream : AVStream}
    (decodes : stream.decodes type = true) : stream.codecType = type :=
  eq_of_beq (Bool.and_eq_true_iff.mp decodes).2

theorem From.nodup (kept : opened.From streams) (distinct : (streams.map AVStream.index).Nodup) :
    (opened.videoStream.toList.map AVStream.index ++
      (opened.audioStreams.map AudioStreamContext.stream).map AVStream.index).Nodup := by
  rw [kept.video, kept.audio]
  refine List.nodup_append.mpr ⟨?_, ?_, ?_⟩
  · cases streams.find? (AVStream.decodes .video) <;> simp
  · exact distinct.sublist (List.filter_sublist.map AVStream.index)
  · intro index first other second same
    rcases List.mem_map.mp first with ⟨video, isFirst, rfl⟩
    rcases List.mem_map.mp second with ⟨audio, member, rfl⟩
    have found := Option.mem_toList.mp isFirst
    obtain ⟨inFile, audioDecodes⟩ := List.mem_filter.mp member
    have equal := List.inj_on_of_nodup_map distinct (List.mem_of_find?_eq_some found) inFile same
    have videoType := type_of_decodes (List.find?_some found)
    rw [equal, type_of_decodes audioDecodes] at videoType
    cases videoType

universe u v w

variable {σ : Type u} {ρ : Type w} {Frame : Type v}

/-- What `Decode` works on. -/
def input (kept : opened.From streams) (distinct : (streams.map AVStream.index).Nodup)
    (codec : StreamId → Codec σ Frame) (resampler : Nat → Resampler ρ Frame) (extractAudio : Bool)
    (answer : List (Callback Frame) → Callback Frame → Bool) : Input σ ρ Frame :=
  { videoIndex := opened.videoStream.map AVStream.index
    audioIndices := opened.audioStreams.map fun context => context.stream.index
    distinct := by
      have nodup := kept.nodup distinct
      rw [List.map_map] at nodup
      cases video : opened.videoStream with
      | none =>
          rw [video] at nodup
          exact nodup
      | some stream =>
          rw [video] at nodup
          exact nodup
    codec := codec
    resampler := resampler
    extractAudio := extractAudio
    answer := answer }

theorem from_of_openFile {avformatOpenInput avformatFindStreamInfo : Int}
    (opens : openFile avformatOpenInput avformatFindStreamInfo streams = .ok opened) :
    opened.From streams := by
  unfold openFile at opens
  split_ifs at opens
  cases folded : streams.foldlM openStream ⟨none, []⟩ with
  | error what =>
      rw [folded] at opens
      cases opens
  | ok kept =>
      rw [folded] at opens
      dsimp only at opens
      split_ifs at opens
      cases opens
      rw [← (openStreams_ok_iff.mp folded).2.2]
      refine ⟨Option.none_or, ?_⟩
      simp [keepAll, AVStream.audioContext, Function.comp_def]

section Routing

variable (kept : opened.From streams) (distinct : (streams.map AVStream.index).Nodup)
  (codec : StreamId → Codec σ Frame) (resampler : Nat → Resampler ρ Frame) (extractAudio : Bool)
  (answer : List (Callback Frame) → Callback Frame → Bool)

theorem index_video {stream : AVStream} (member : stream ∈ streams) :
    (opened.input kept distinct codec resampler extractAudio answer).index .video =
      some stream.index ↔ streams.find? (AVStream.decodes .video) = some stream := by
  have mapped : (opened.input kept distinct codec resampler extractAudio answer).index .video =
      (streams.find? (AVStream.decodes .video)).map AVStream.index :=
    congrArg (Option.map AVStream.index) kept.video
  rw [mapped, Option.map_eq_some_iff]
  constructor
  · rintro ⟨first, found, same⟩
    rw [found, List.inj_on_of_nodup_map distinct (List.mem_of_find?_eq_some found) member same]
  · exact fun found => ⟨stream, found, rfl⟩

theorem index_audio {stream : AVStream} (member : stream ∈ streams) (i : Nat) :
    (opened.input kept distinct codec resampler extractAudio answer).index (.audio i) =
      some stream.index ↔ (streams.filter (AVStream.decodes .audio))[i]? = some stream := by
  have mapped : (opened.input kept distinct codec resampler extractAudio answer).index (.audio i) =
      ((streams.filter (AVStream.decodes .audio))[i]?).map AVStream.index := by
    rw [← kept.audio, ← List.getElem?_map, List.map_map]
    rfl
  rw [mapped, Option.map_eq_some_iff]
  constructor
  · rintro ⟨other, found, same⟩
    have inFile := (List.mem_filter.mp (List.mem_of_getElem? found)).1
    rw [found, List.inj_on_of_nodup_map distinct inFile member same]
  · exact fun found => ⟨stream, found, rfl⟩

end Routing

/-- The packets of the first video go to the video decoder and those of each audio stream to its
own. All other packets go nowhere: those of further videos, of subtitles and of streams without a
decoder. -/
theorem packets_routed {avformatOpenInput avformatFindStreamInfo : Int}
    (opens : openFile avformatOpenInput avformatFindStreamInfo streams = .ok opened)
    (distinct : (streams.map AVStream.index).Nodup) (codec : StreamId → Codec σ Frame)
    (resampler : Nat → Resampler ρ Frame) (extractAudio : Bool)
    (answer : List (Callback Frame) → Callback Frame → Bool) {stream : AVStream}
    (member : stream ∈ streams) (id : StreamId) :
    (opened.input (from_of_openFile opens) distinct codec resampler extractAudio answer).findStream
        stream.index = some id ↔
      id = .video ∧ streams.find? (AVStream.decodes .video) = some stream ∨
        ∃ i, id = .audio i ∧ (streams.filter (AVStream.decodes .audio))[i]? = some stream := by
  rw [Input.findStream_iff]
  cases id with
  | video =>
      rw [index_video _ distinct _ _ _ _ member]
      simp
  | audio i =>
      rw [index_audio _ distinct _ _ _ _ member]
      simp

section Sample

def film : List AVStream :=
  [⟨0, .video, true, 0, 720, 576, ⟨60000, 2002⟩, ⟨16, 11⟩, true, 0, 0, false, -1⟩,
    ⟨1, .subtitle, false, -1, 0, 0, ⟨0, 0⟩, ⟨0, 1⟩, false, 0, 0, false, -1⟩,
    ⟨2, .video, true, 0, 320, 240, ⟨25, 1⟩, ⟨0, 1⟩, false, 0, 0, false, -1⟩,
    ⟨3, .audio, true, 0, 0, 0, ⟨0, 0⟩, ⟨0, 1⟩, false, 0, 3, true, 0⟩]

def openedFilm : OpenedFile :=
  { videoStream := film[0]?, audioStreams := (film[3]?).toList.map AVStream.audioContext }

theorem openFile_film : openFile 0 0 film = .ok openedFilm := rfl

/-- The sound goes to the audio decoder, and the second video nowhere. -/
theorem packets_routed_film :
    (openedFilm.input (from_of_openFile openFile_film) (by decide) (fun _ => oneFrameDelay)
        (fun _ => noResampling) true fun _ _ => true).findStream 3 = some (.audio 0) ∧
      ∀ id, (openedFilm.input (from_of_openFile openFile_film) (by decide) (fun _ => oneFrameDelay)
        (fun _ => noResampling) true fun _ _ => true).findStream 2 ≠ some id := by
  have sound : film[3] ∈ film := by decide
  have video : film[2] ∈ film := by decide
  constructor
  · exact (packets_routed openFile_film (by decide) (fun _ => oneFrameDelay) (fun _ => noResampling)
      true (fun _ _ => true) sound (.audio 0)).mpr (.inr ⟨0, rfl, rfl⟩)
  · intro id found
    rcases (packets_routed openFile_film (by decide) (fun _ => oneFrameDelay)
      (fun _ => noResampling) true (fun _ _ => true) video id).mp found with
      ⟨-, first⟩ | ⟨i, -, audio⟩
    · exact absurd first (by decide)
    · have member := List.mem_of_getElem? audio
      exact absurd member (by decide)

end Sample

section Rates

variable {stream : AVStream}

/-- The frame rate is that of the stream in lowest terms, or the nearest one with numbers that are
not greater than 2^20. -/
theorem getFrameRate_reduces (video : opened.videoStream = some stream)
    (nonzero : stream.rFrameRate.den ≠ 0) :
    AVRational.Reduces (stream.rFrameRate.num / stream.rFrameRate.den) (2 ^ 20)
      ⟨opened.getFrameRate.num, opened.getFrameRate.denum⟩ := by
  unfold getFrameRate
  rw [video]
  exact avReduce_reduces nonzero (by decide)

theorem getFrameRate_reduces_film :
    AVRational.Reduces (60000 / 2002) (2 ^ 20) ⟨30000, 1001⟩ := by
  have quotient : (60000 / 2002 : ℚ) = (film[0].rFrameRate.num : ℚ) / film[0].rFrameRate.den := by
    norm_num [film]
  rw [quotient]
  exact @getFrameRate_reduces openedFilm film[0] rfl (by decide)

theorem eq_of_intProduct {a b product : Int} (multiplied : intProduct a b = some product) :
    product = a * b :=
  ((checked_eq_some_iff _).mp multiplied).2.symm

theorem sourceAspectRatio_eq {sar : Option AVRational} {source : AVRational}
    (found : sourceAspectRatio stream sar = some source) :
    source = ⟨(sar.getD ⟨1, 1⟩).num * stream.width, (sar.getD ⟨1, 1⟩).den * stream.height⟩ := by
  cases sar with
  | none =>
      cases found
      rw [Option.getD_none, Int.one_mul, Int.one_mul]
  | some sar =>
      rcases Option.bind_eq_some_iff.mp found with ⟨num, numFound, rest⟩
      rcases Option.map_eq_some_iff.mp rest with ⟨den, denFound, rfl⟩
      rw [eq_of_intProduct numFound, eq_of_intProduct denFound]
      rfl

/-- The aspect ratio is that of the picture on the screen, reduced in the same way. -/
theorem getAspectRatio_reduces (video : opened.videoStream = some stream)
    {contextAspectRatio : AVRational} {ratio : RationalNumber}
    (found : opened.getAspectRatio contextAspectRatio = some ratio) {sar : AVRational}
    (pixel : (sampleAspectRatio contextAspectRatio stream).getD ⟨1, 1⟩ = sar)
    (nonzero : sar.den ≠ 0) (height : stream.height ≠ 0) :
    AVRational.Reduces (sar.num / sar.den * (stream.width / stream.height)) (2 ^ 20)
      ⟨ratio.num, ratio.denum⟩ := by
  unfold getAspectRatio at found
  rw [video] at found
  rcases Option.map_eq_some_iff.mp found with ⟨source, sourceFound, rfl⟩
  rw [sourceAspectRatio_eq sourceFound, pixel]
  have product : (sar.num : ℚ) / sar.den * (stream.width / stream.height) =
      ((sar.num * stream.width : Int) : ℚ) / (sar.den * stream.height : Int) := by
    push_cast
    exact div_mul_div_comm _ _ _ _
  rw [product]
  exact avReduce_reduces (mul_ne_zero nonzero height) (by decide)

/-- Anamorphic video of the size 720:576. -/
theorem getAspectRatio_reduces_film :
    AVRational.Reduces (16 / 11 * (720 / 576)) (2 ^ 20) ⟨20, 11⟩ := by
  have quotient : (16 / 11 * (720 / 576) : ℚ) =
      ((16 : ℤ) : ℚ) / (11 : ℤ) * (film[0].width / film[0].height) := by
    norm_num [film]
  rw [quotient]
  exact @getAspectRatio_reduces openedFilm film[0] rfl ⟨0, 1⟩ ⟨20, 11⟩ (by decide) ⟨16, 11⟩
    (by decide) (by decide) (by decide)

end Rates

end OpenedFile

end Imflib.Encoder
