import Imflib.Encoder.EncoderRun
import Imflib.Encoder.MxfDescriptors
import Imflib.Package.ImportedTracks

/-! From one tool to the other: what becomes of the files of `imfenc` when they are added to a
package. -/

namespace Imflib.MXF

section Objects

variable {α : Type} {type : InterchangeObject → Option α}

theorem packageObjects_find (track : type .track = none) (other : type .other = none) :
    Encoder.packageObjects.findSome? type = none := by
  apply List.findSome?_eq_none_iff.mpr
  intro object member
  have either : object = .track ∨ object = .other := by
    simp only [Encoder.packageObjects, List.replicate, List.cons_append, List.nil_append,
      List.mem_cons, List.not_mem_nil, or_false] at member
    tauto
  rcases either with rfl | rfl
  · exact track
  · exact other

variable (options : Encoder.MXFOptionsVideo) (info : Encoder.WriterInfo) (framesWritten : UInt32)
  (parsed : Encoder.PictureDescriptor)

/-- Only the last two objects of a video file are of a type that is asked for. -/
theorem videoFile_find (track : type .track = none) (other : type .other = none) :
    (Encoder.videoFile options info framesWritten parsed).getMDObjectByType type =
      (type (Encoder.videoDescriptor options info framesWritten parsed)).or
        (type (.jpeg2000Picture (Encoder.pictureSubDescriptor options info parsed))) := by
  have packages := packageObjects_find track other
  rw [TrackFile.getMDObjectByType, Encoder.videoFile, List.findSome?_append, packages,
    Option.none_or]
  cases first : type (Encoder.videoDescriptor options info framesWritten parsed) <;>
    cases second : type (.jpeg2000Picture (Encoder.pictureSubDescriptor options info parsed)) <;>
    simp [first, second]

end Objects

/-- The first code stream of a video, and what `imfenc` makes of it. -/
structure EncodedVideo where
  options : Encoder.ProgramOptions
  editRate : Encoder.RationalNumber
  aspectRatio : Encoder.RationalNumber
  width : Int
  height : Int
  j2kFiles : List String
  componentParameter : Fin 3 → Encoder.ComponentParameter
  initialized : (options.j2kEncoder editRate width height).initEncoder = .ok componentParameter
  parsed : Encoder.PictureDescriptor
  sized : ∀ i, parsed.imageComponents i = (componentParameter i).siz
  info : Encoder.WriterInfo
  framesWritten : UInt32

namespace EncodedVideo

variable (encoded : EncodedVideo)

def muxOptions : Encoder.MXFOptionsVideo :=
  Encoder.videoOptions encoded.options encoded.editRate encoded.aspectRatio encoded.j2kFiles

def file : TrackFile :=
  Encoder.videoFile encoded.muxOptions encoded.info encoded.framesWritten encoded.parsed

def colorSpace : Package.ColorSpace :=
  match encoded.options.colorFormat with
  | .rgb444 => .rgb444
  | .yuv444 => .yuv444
  | .yuv422 => .yuv422

variable {encoded} {context : Package.ReaderContext}

/-- The floating-point unit finds the depths that there are. -/
def Exact (log2 : Int32 → Int32) : Prop :=
  ∀ depth : Encoder.BitRate, log2 (Int32.ofNat (2 ^ depth.bits)) = Int32.ofNat depth.bits

theorem bitsOfLevels_referenceLevels (encoded : EncodedVideo) {log2 : Int32 → Int32} (exact : Exact log2) :
    Package.bitsOfLevels log2 (Encoder.referenceLevels encoded.muxOptions).1.toInt32
      (Encoder.referenceLevels encoded.muxOptions).2.toInt32 =
        Int32.ofNat encoded.options.bitsPerComponent.bits := by
  have found := exact encoded.options.bitsPerComponent
  unfold Encoder.referenceLevels muxOptions Encoder.videoOptions
  cases encoded.options.fullRange <;> cases depth : encoded.options.bitsPerComponent <;>
    rw [depth] at found <;> first | exact found | rfl

theorem componentDepth_bits : (UInt32.ofInt encoded.muxOptions.bits).toInt32 =
    Int32.ofNat encoded.options.bitsPerComponent.bits := by
  unfold muxOptions Encoder.videoOptions
  cases encoded.options.bitsPerComponent <;> rfl

def subDescriptor (encoded : EncodedVideo) : JPEG2000PictureSubDescriptor :=
  Encoder.pictureSubDescriptor encoded.muxOptions encoded.info encoded.parsed

theorem jpeg2000_found : encoded.file.getMDObjectByType InterchangeObject.asJPEG2000Picture =
    some encoded.subDescriptor := by
  rw [file, videoFile_find _ _ _ _ rfl rfl, Encoder.videoDescriptor]
  split <;> rfl

theorem readPicture_rgb (rgb : encoded.muxOptions.yuvEssence = false) (exact : Exact context.log2) :
    ∃ picture, Package.readPicture context encoded.file = .ok picture ∧
      picture.bits = Int32.ofNat encoded.options.bitsPerComponent.bits ∧
      picture.colorSpace = .rgb444 ∧
      picture.containerDuration = some encoded.framesWritten.toUInt64 ∧
      picture.editRate = encoded.editRate.toMxf := by
  unfold Package.readPicture
  rw [file, videoFile_find _ _ _ _ rfl rfl, videoFile_find _ _ _ _ rfl rfl]
  simp only [Encoder.videoDescriptor, rgb, Bool.false_eq_true, if_false]
  exact ⟨_, rfl, bitsOfLevels_referenceLevels encoded exact, rfl, rfl, rfl⟩

theorem readPicture_yuv (context : Package.ReaderContext)
    (yuv : encoded.muxOptions.yuvEssence = true) :
    ∃ picture, Package.readPicture context encoded.file = .ok picture ∧
      picture.bits = Int32.ofNat encoded.options.bitsPerComponent.bits ∧
      picture.colorSpace =
        (if UInt32.ofInt encoded.muxOptions.subsamplingDx = 1 then .yuv444
        else if UInt32.ofInt encoded.muxOptions.subsamplingDx = 2 then .yuv422
        else .invalid) ∧
      picture.containerDuration = some encoded.framesWritten.toUInt64 ∧
      picture.editRate = encoded.editRate.toMxf := by
  unfold Package.readPicture
  rw [file, videoFile_find _ _ _ _ rfl rfl, videoFile_find _ _ _ _ rfl rfl]
  simp only [Encoder.videoDescriptor, yuv, if_true]
  exact ⟨_, rfl, componentDepth_bits, rfl, rfl, rfl⟩

theorem readPicture_file (encoded : EncodedVideo) (exact : Exact context.log2) :
    ∃ picture, Package.readPicture context encoded.file = .ok picture ∧
      picture.bits = Int32.ofNat encoded.options.bitsPerComponent.bits ∧
      picture.colorSpace = encoded.colorSpace ∧
      picture.containerDuration = some encoded.framesWritten.toUInt64 ∧
      picture.editRate = encoded.editRate.toMxf := by
  cases format : encoded.options.colorFormat with
  | rgb444 =>
      have rgb : encoded.muxOptions.yuvEssence = false := by
        simp [muxOptions, Encoder.videoOptions, format]
      have shown : encoded.colorSpace = .rgb444 := by simp [colorSpace, format]
      rw [shown]
      exact readPicture_rgb rgb exact
  | yuv444 =>
      have yuv : encoded.muxOptions.yuvEssence = true := by
        simp [muxOptions, Encoder.videoOptions, format]
      have subsampling : encoded.muxOptions.subsamplingDx = 1 := by
        simp [muxOptions, Encoder.videoOptions, format]
      have shown : encoded.colorSpace = .yuv444 := by simp [colorSpace, format]
      have read := readPicture_yuv context yuv
      rw [subsampling] at read
      rwa [shown]
  | yuv422 =>
      have yuv : encoded.muxOptions.yuvEssence = true := by
        simp [muxOptions, Encoder.videoOptions, format]
      have subsampling : encoded.muxOptions.subsamplingDx = 2 := by
        simp [muxOptions, Encoder.videoOptions, format]
      have shown : encoded.colorSpace = .yuv422 := by simp [colorSpace, format]
      have read := readPicture_yuv context yuv
      rw [subsampling] at read
      rwa [shown]

theorem subDescriptor_read (encoded : EncodedVideo) (buffer : List Char) : ∃ descriptor,
    Package.readJPEG2000SubDescriptor buffer encoded.subDescriptor = some descriptor := by
  apply Option.isSome_iff_exists.mp
  exact (Package.readJPEG2000SubDescriptor_isSome buffer _).mpr ⟨rfl, rfl, rfl, rfl⟩

theorem readVideoTrack_file {picture : Package.Picture} {descriptor : Package.JPEG2000SubDescriptor}
    (pictureRead : Package.readPicture context encoded.file = .ok picture)
    (descriptorRead : Package.readJPEG2000SubDescriptor context.jpeg2000Buffer encoded.subDescriptor =
      some descriptor) :
    Package.readVideoTrack context encoded.file =
      .ok (Package.videoTrackOf context encoded.file picture descriptor) := by
  have track : encoded.file.getMDObjectByType InterchangeObject.asTrack = some () := rfl
  apply Package.bind_eq_ok.mpr
  refine ⟨(), rfl, Package.bind_eq_ok.mpr ⟨(), rfl, Package.bind_eq_ok.mpr ⟨picture, pictureRead, ?_⟩⟩⟩
  apply Package.bind_eq_ok.mpr
  refine ⟨encoded.subDescriptor, Package.orThrow_eq_ok.mpr jpeg2000_found, ?_⟩
  apply Package.bind_eq_ok.mpr
  refine ⟨descriptor, Package.orThrow_eq_ok.mpr descriptorRead, ?_⟩
  exact Package.bind_eq_ok.mpr ⟨(), Package.orThrow_eq_ok.mpr track, rfl⟩

theorem getEssenceType_file : Package.getEssenceType encoded.file = some .video :=
  (Package.getEssenceType_eq_video encoded.file).mpr
    ⟨rfl, rfl, by rw [jpeg2000_found, Option.isSome_some]⟩

theorem videoDuration_same (framesWritten : UInt32) :
    Package.MXFReader.videoDuration (some framesWritten.toUInt64) framesWritten =
      Package.MXFReader.storeInt framesWritten.toNat := by
  have same : framesWritten.toUInt64.toNat = framesWritten.toNat := rfl
  simp only [Package.MXFReader.videoDuration, same]
  split
  · rename_i missing
    rw [missing]
    rfl
  · rfl

/-- A video file becomes a video track that shows what has been encoded: its depth, its colours, as
many frames as the writer has taken, and their rate. -/
theorem video_imported (encoded : EncodedVideo) (context : Package.ReaderContext)
    (exact : Exact context.log2) :
    ∃ video : Package.IMFVideoTrack,
      Package.fileOf context encoded.file = .mxf (.ok video.track) ∧
      video.track.type = .video ∧ video.track.uuid = encoded.info.assetUUID ∧
      video.bits = Int32.ofNat encoded.options.bitsPerComponent.bits ∧
      video.colorSpace = encoded.colorSpace ∧
      video.track.duration = Int32.ofNat encoded.framesWritten.toNat ∧
      video.track.editRate =
        ⟨Int32.ofInt encoded.editRate.num, Int32.ofInt encoded.editRate.denum⟩ := by
  obtain ⟨picture, pictureRead, bits, colorSpace, duration, editRate⟩ :=
    readPicture_file encoded exact
  obtain ⟨descriptor, descriptorRead⟩ := subDescriptor_read encoded context.jpeg2000Buffer
  refine ⟨Package.videoTrackOf context encoded.file picture descriptor, ?_, rfl, rfl, bits, colorSpace,
    ?_, ?_⟩
  · rw [Package.fileOf, getEssenceType_file, readVideoTrack_file pictureRead descriptorRead]
    rfl
  · change Package.MXFReader.videoDuration picture.containerDuration encoded.framesWritten = _
    rw [duration, videoDuration_same]
    rfl
  · change Package.RationalNumber.ofMxf picture.editRate = _
    rw [editRate]
    rfl

section Sample

def film : EncodedVideo where
  options := Encoder.sampleOptions
  editRate := ⟨25, 1⟩
  aspectRatio := ⟨16, 9⟩
  width := 1920
  height := 1080
  j2kFiles := Encoder.filesST "out" 2
  componentParameter := fun i =>
    { prec := 10
      bpp := 10
      sgnd := 0
      dx := if i = 0 then 1 else 2
      dy := if i = 0 then 1 else 1
      w := 1920
      h := 1080 }
  initialized := rfl
  parsed :=
    { editRate := ⟨24, 1⟩
      containerDuration := 0
      aspectRatio := ⟨16, 9⟩
      storedWidth := 1920
      storedHeight := 1080
      rsize := 0x0101
      xsize := 1920
      ysize := 1080
      xOsize := 0
      yOsize := 0
      xTsize := 1920
      yTsize := 1080
      xTOsize := 0
      yTOsize := 0
      csize := 3
      imageComponents := fun i => if i = 0 then ⟨9, 1, 1⟩ else ⟨9, 2, 1⟩
      codingStyle := [1, 4, 0, 1, 0, 5, 3, 3, 0, 0]
      precinctSize := [0x77, 0x88, 0x88, 0x88, 0x88, 0x88]
      sqcd := 0x22
      spqcd := [0x97, 0x20] }
  sized := by decide
  info := ⟨"film", "picture", "codestream", "jpeg2000"⟩
  framesWritten := 2

theorem exact_readerContext : Exact Package.readerContext.log2 := by
  intro depth
  cases depth <;> decide

theorem film_imported : ∃ video : Package.IMFVideoTrack,
    Package.fileOf Package.readerContext film.file = .mxf (.ok video.track) ∧ video.bits = 10 ∧
      video.colorSpace = .yuv422 ∧ video.track.duration = 2 := by
  obtain ⟨video, imported, -, -, bits, colorSpace, duration, -⟩ :=
    video_imported film Package.readerContext exact_readerContext
  exact ⟨video, imported, bits, colorSpace, duration⟩

end Sample

end EncodedVideo

section Sound

variable {info : Encoder.WriterInfo} {framesWritten : UInt32} {mcaConfig : Encoder.MCAConfigParser}
  {parsed : Encoder.AudioDescriptor} {editRate : Encoder.RationalNumber} {file : TrackFile}

theorem assignChannels_written {descriptor assigned : WaveAudioProperties}
    (taken : Encoder.assignChannels mcaConfig descriptor = some assigned) :
    assigned.writeToTLVSet.channelAssignment = none ↔ mcaConfig.labels = [] := by
  unfold Encoder.assignChannels at taken
  split_ifs at taken with empty
  · cases taken
    exact iff_of_true rfl (List.isEmpty_iff.mp empty)
  · cases taken
    refine iff_of_false (fun unwritten => ?_) fun labels => empty (List.isEmpty_iff.mpr labels)
    rw [WaveAudioProperties.writeToTLVSet, OptionalLabel.written, OptionalLabel.assign] at unwritten
    exact Option.some_ne_none _ unwritten

/-- Only one object of a sound file is its descriptor, the one that is read. -/
theorem audioFile_descriptor
    (muxed : Encoder.audioFile info framesWritten mcaConfig parsed editRate = some file) :
    file.openRead = true ∧ file.fillWriterInfo = true ∧ ∃ descriptor,
      file.getMDObjectByType InterchangeObject.asWaveAudio = some descriptor ∧
      (descriptor.channelAssignment = none ↔ mcaConfig.labels = []) := by
  obtain ⟨assigned, taken, rfl⟩ := Option.map_eq_some_iff.mp muxed
  refine ⟨rfl, rfl, Encoder.audioDescriptor info framesWritten assigned, ?_,
    assignChannels_written taken⟩
  rw [TrackFile.getMDObjectByType, List.findSome?_append, packageObjects_find rfl rfl,
    Option.none_or]
  rfl

theorem readAudioTrack_unassigned (context : Package.ReaderContext)
    {descriptor : WaveAudioDescriptor} (openRead : file.openRead = true)
    (fillWriterInfo : file.fillWriterInfo = true)
    (found : file.getMDObjectByType InterchangeObject.asWaveAudio = some descriptor)
    (unassigned : descriptor.channelAssignment = none) :
    Package.readAudioTrack context file =
      .error "something wrong with WaveAudioDescriptor... check logs" := by
  have unread : Package.readWaveAudioDescriptor descriptor = none := by
    rw [Package.readWaveAudioDescriptor, unassigned]
    cases Package.readMXFEssenceDescriptorBase descriptor.toFileDescriptor <;> rfl
  rw [Package.readAudioTrack, openRead, found, fillWriterInfo]
  change (Package.orThrow _ (Package.readWaveAudioDescriptor descriptor) >>= _) = _
  rw [unread]
  rfl

/-- No sound file can be added to a package: without labels nothing is assigned to the channels. -/
theorem audio_refused (context : Package.ReaderContext) (package : Package.IMFPackage)
    (disk : FileSystem Package.File) (path : String)
    (muxed : Encoder.soundFile info framesWritten parsed editRate = some file)
    (written : disk.read path = some (Package.fileOf context file)) :
    package.parseAndAddTrack disk path =
      .error (.packageException "something wrong with WaveAudioDescriptor... check logs") := by
  obtain ⟨openRead, fillWriterInfo, descriptor, found, assignment⟩ := audioFile_descriptor muxed
  have unread := readAudioTrack_unassigned context openRead fillWriterInfo found (assignment.mpr rfl)
  have audio : Package.getEssenceType file = some .audio := by
    rw [Encoder.soundFile, Encoder.audioFile] at muxed
    obtain ⟨assigned, -, rfl⟩ := Option.map_eq_some_iff.mp muxed
    rfl
  rw [Package.IMFPackage.parseAndAddTrack, written, Package.fileOf, audio, unread]
  rfl

end Sound

section Sample

def stereoSound : Encoder.AudioDescriptor :=
  ⟨⟨48000, 1⟩, 0, 2, 24, 6, 288000, 0, 48000, .none⟩

def soundDisk (file : TrackFile) : FileSystem Package.File where
  canonical := id
  directory := fun folder => folder = "/out"
  file := fun entry =>
    if entry = ("/out", "sound.mxf") then some (Package.fileOf Package.readerContext file)
    else none
  inside := by
    intro entry filled
    by_cases sound : entry = ("/out", "sound.mxf")
    · rw [sound]
      decide
    · rw [if_neg sound] at filled
      cases filled

theorem sound_refused : ∃ file,
    Encoder.soundFile ⟨"sound", "wave", "", "pcm"⟩ 48000 stereoSound ⟨25, 1⟩ = some file ∧
      (soundDisk file).fileExists "/out/sound.mxf" = true ∧
      Package.IMFPackage.new.parseAndAddTrack (soundDisk file) "/out/sound.mxf" =
        .error (.packageException "something wrong with WaveAudioDescriptor... check logs") :=
  ⟨_, rfl, rfl, audio_refused Package.readerContext .new (soundDisk _) "/out/sound.mxf" rfl rfl⟩

end Sample

end Imflib.MXF
