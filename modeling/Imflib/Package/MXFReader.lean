import Imflib.Base.Acceptance
import Imflib.Mxf.Metadata
import Imflib.Package.IMFPackage
import Imflib.Package.PlaylistSchema

/-! Reading a track file: which descriptors it needs, and what track becomes of them. -/

namespace Imflib.MXF

def FileDescriptor.Complete (descriptor : FileDescriptor) : Prop :=
  descriptor.containerDuration.isSome ∧ descriptor.linkedTrackID.isSome

def GenericPictureEssenceDescriptor.Complete (descriptor : GenericPictureEssenceDescriptor) : Prop :=
  descriptor.toFileDescriptor.Complete ∧ descriptor.transferCharacteristic.isSome ∧
    descriptor.codingEquations.isSome ∧ descriptor.colorPrimaries.isSome

def RGBAEssenceDescriptor.Complete (descriptor : RGBAEssenceDescriptor) : Prop :=
  descriptor.toGenericPictureEssenceDescriptor.Complete ∧ descriptor.componentMaxRef.isSome ∧
    descriptor.componentMinRef.isSome

def WaveAudioDescriptor.Complete (descriptor : WaveAudioDescriptor) : Prop :=
  descriptor.toFileDescriptor.Complete ∧ descriptor.channelAssignment.isSome

def MCALabelSubDescriptor.Complete (label : MCALabelSubDescriptor) : Prop :=
  label.mcaTagName.isSome ∧ label.rfc5646SpokenLanguage.isSome

def AudioChannelLabelSubDescriptor.Complete (label : AudioChannelLabelSubDescriptor) : Prop :=
  label.toMCALabelSubDescriptor.Complete ∧ label.mcaChannelID.isSome ∧
    label.soundfieldGroupLinkID.isSome

def JPEG2000PictureSubDescriptor.Complete (descriptor : JPEG2000PictureSubDescriptor) : Prop :=
  descriptor.pictureComponentSizing.isSome ∧ descriptor.codingStyleDefault.isSome ∧
    descriptor.quantizationDefault.isSome ∧ descriptor.j2cLayout.isSome

namespace TrackFile

variable (file : TrackFile)

def PictureComplete : Prop :=
  match file.getMDObjectByType InterchangeObject.asRGBA with
  | some rgba => rgba.Complete
  | none => ∃ cdci ∈ file.getMDObjectByType InterchangeObject.asCDCI,
      cdci.toGenericPictureEssenceDescriptor.Complete

structure VideoComplete : Prop where
  picture : file.PictureComplete
  jpeg2000 : ∃ descriptor ∈ file.getMDObjectByType InterchangeObject.asJPEG2000Picture,
    descriptor.Complete
  track : (file.getMDObjectByType InterchangeObject.asTrack).isSome

structure AudioComplete : Prop where
  waveAudio : ∃ descriptor ∈ file.getMDObjectByType InterchangeObject.asWaveAudio, descriptor.Complete
  channels : ∀ label ∈ file.getMDObjectsByType InterchangeObject.asAudioChannelLabel, label.Complete
  groups : ∀ label ∈ file.getMDObjectsByType InterchangeObject.asSoundfieldGroupLabel, label.Complete
  labelled : ¬ (file.getMDObjectsByType InterchangeObject.asAudioChannelLabel = [] ∧
    file.getMDObjectsByType InterchangeObject.asSoundfieldGroupLabel = [])

/-- What a file needs to become a track. The essence is that of the JPEG 2000 descriptor, if there
is one. -/
structure Importable : Prop where
  initFromFile : file.initFromFile = true
  operationalPattern : file.operationalPattern = .op1a
  openRead : file.openRead = true
  fillWriterInfo : file.fillWriterInfo = true
  essence : if (file.getMDObjectByType InterchangeObject.asJPEG2000Picture).isSome then
    file.VideoComplete else file.AudioComplete

end TrackFile

end Imflib.MXF

namespace Imflib.Package

inductive ColorSpace where
  | invalid
  | rgb444
  | yuv444
  | yuv422
  deriving DecidableEq, Repr

structure IMFVideoTrack where
  track : IMFTrack
  bits : Int32
  colorSpace : ColorSpace
  deriving DecidableEq, Repr

structure IMFAudioTrack where
  track : IMFTrack
  bits : Int32
  deriving DecidableEq, Repr

/-- What a reader depends on besides the file: the logarithm of the floating-point unit, cut off to
an `int`, the identifier it generates, and what its buffers hold behind their first character. -/
structure ReaderContext where
  log2 : Int32 → Int32
  makeUUID : String
  rgbaBuffer : List Char
  jpeg2000Buffer : List Char

def RationalNumber.ofMxf (rational : MXF.Rational) : RationalNumber :=
  ⟨rational.numerator, rational.denominator⟩

def orThrow {α : Type} (message : String) : Option α → Except String α
  | some value => .ok value
  | none => .error message

theorem orThrow_eq_ok {α : Type} {message : String} {found : Option α} {value : α} :
    orThrow message found = .ok value ↔ found = some value := by
  cases found <;> simp [orThrow]

def check (message : String) (holds : Bool) : Except String Unit :=
  if holds then .ok () else .error message

section Descriptors

/-! A field that is needed and missing ends the reading of its descriptor. -/

def readMXFEssenceDescriptorBase (gen : MXF.FileDescriptor) : Option MXFEssenceDescriptorBase := do
  let containerDuration ← gen.containerDuration
  let linkedTrackID ← gen.linkedTrackID
  pure
    { instanceId := gen.instanceUID
      subDescriptors := []
      sampleRate := .ofMxf gen.sampleRate
      essenceLength := containerDuration
      containerFormat := gen.essenceContainer
      linkedTrackId := linkedTrackID }

def readVideoEssenceDescriptor (gen : MXF.GenericPictureEssenceDescriptor) :
    Option VideoEssenceDescriptor := do
  let base ← readMXFEssenceDescriptorBase gen.toFileDescriptor
  let transferCharacteristic ← gen.transferCharacteristic
  let codingEquations ← gen.codingEquations
  let colorPrimaries ← gen.colorPrimaries
  pure
    { base := base
      transferCharacteristic := transferCharacteristic
      codingEquations := codingEquations
      colorPrimaries := colorPrimaries
      pictureCompression := gen.pictureEssenceCoding
      imageAspectRatio := .ofMxf gen.aspectRatio
      storedWidth := gen.storedWidth
      storedHeight := gen.storedHeight }

def readRGBAEssenceDescriptor (buffer : List Char) (gen : MXF.RGBAEssenceDescriptor) :
    Option EssenceDescriptorData := do
  let video ← readVideoEssenceDescriptor gen.toGenericPictureEssenceDescriptor
  let componentMaxRef ← gen.componentMaxRef
  let componentMinRef ← gen.componentMinRef
  pure (.rgba video componentMaxRef componentMinRef
    (MXF.bufferText (MXF.encodeLayout gen.pixelLayout (MXF.nul :: buffer))))

def readCDCIEssenceDescriptor (gen : MXF.CDCIEssenceDescriptor) : Option EssenceDescriptorData := do
  let video ← readVideoEssenceDescriptor gen.toGenericPictureEssenceDescriptor
  pure (.cdci video gen.horizontalSubsampling.toUInt8 gen.verticalSubsampling.toUInt8
    gen.componentDepth.toUInt16 gen.whiteReflevel gen.blackRefLevel)

def readWaveAudioDescriptor (gen : MXF.WaveAudioDescriptor) : Option WaveAudioDescriptor := do
  let base ← readMXFEssenceDescriptorBase gen.toFileDescriptor
  let channelAssignment ← gen.channelAssignment
  pure
    { base := base
      locked := gen.locked
      soundCompression := gen.soundEssenceCoding
      audioSampleRate := .ofMxf gen.audioSamplingRate
      channelCount := gen.channelCount
      quantizationBits := gen.quantizationBits
      blockAlign := gen.blockAlign
      averageBytesPerSecond := gen.avgBps
      channelAssignment := channelAssignment }

def readMCALabelSubDescriptor (gen : MXF.MCALabelSubDescriptor) : Option MCALabelSubDescriptor := do
  let mcaTagName ← gen.mcaTagName
  let rfc5646SpokenLanguage ← gen.rfc5646SpokenLanguage
  let optional (text : Option String) : String := (text.map MXF.encodeText).getD ""
  pure
    { instanceId := gen.instanceUID
      mcaLinkId := gen.mcaLinkID
      mcaLabelDictionaryId := gen.mcaLabelDictionaryID
      mcaTagSymbol := MXF.encodeText gen.mcaTagSymbol
      mcaTagName := MXF.encodeText mcaTagName
      rfc5646SpokenLanguage := MXF.encodeText rfc5646SpokenLanguage
      mcaAudioElementKind := optional gen.mcaAudioElementKind
      mcaAudioContentKind := optional gen.mcaAudioContentKind
      mcaTitle := optional gen.mcaTitle
      mcaTitleVersion := optional gen.mcaTitleVersion }

def readAudioChannelLabelSubDescriptor (gen : MXF.AudioChannelLabelSubDescriptor) :
    Option SubDescriptor := do
  let label ← readMCALabelSubDescriptor gen.toMCALabelSubDescriptor
  let mcaChannelID ← gen.mcaChannelID
  let soundfieldGroupLinkID ← gen.soundfieldGroupLinkID
  pure (.audioChannelLabel label soundfieldGroupLinkID mcaChannelID.toUInt16)

def readSoundfieldGroupLabelSubDescriptor (gen : MXF.MCALabelSubDescriptor) : Option SubDescriptor :=
  (readMCALabelSubDescriptor gen).map .soundfieldGroupLabel

def readJPEG2000SubDescriptor (buffer : List Char) (gen : MXF.JPEG2000PictureSubDescriptor) :
    Option JPEG2000SubDescriptor := do
  let pictureComponentSizing ← gen.pictureComponentSizing
  let codingStyleDefault ← gen.codingStyleDefault
  let quantizationDefault ← gen.quantizationDefault
  let j2cLayout ← gen.j2cLayout
  let sizingBuf := MXF.encodeRaw pictureComponentSizing (MXF.nul :: buffer)
  let codingBuf := MXF.encodeRaw codingStyleDefault sizingBuf
  let quantizationBuf := MXF.encodeRaw quantizationDefault codingBuf
  let layoutBuf := MXF.encodeLayout j2cLayout quantizationBuf
  pure
    { instanceId := gen.instanceUID
      rsize := gen.rsize
      xsize := gen.xsize
      ysize := gen.ysize
      xOsize := gen.xOsize
      yOsize := gen.yOsize
      xTsize := gen.xTsize
      yTsize := gen.yTsize
      xTOsize := gen.xTOsize
      yTOsize := gen.yTOsize
      csize := gen.csize
      pictureComponentSizing := MXF.bufferText sizingBuf
      codingStyleDefault := MXF.bufferText codingBuf
      quantizationDefault := MXF.bufferText quantizationBuf
      j2cLayout := MXF.bufferText layoutBuf }

end Descriptors

/-- `subDescriptors.push_back` -/
def EssenceDescriptorData.setSubDescriptors (subDescriptors : List SubDescriptor) :
    EssenceDescriptorData → EssenceDescriptorData
  | .wave descriptor =>
      .wave { descriptor with base := { descriptor.base with subDescriptors } }
  | .rgba video componentMaxRef componentMinRef pixelLayout =>
      .rgba { video with base := { video.base with subDescriptors } } componentMaxRef
        componentMinRef pixelLayout
  | .cdci video horizontalSubsampling verticalSubsampling componentDepth whiteRefLevel
      blackRefLevel =>
      .cdci { video with base := { video.base with subDescriptors } } horizontalSubsampling
        verticalSubsampling componentDepth whiteRefLevel blackRefLevel

structure Picture where
  essence : EssenceDescriptorData
  colorSpace : ColorSpace
  bits : Int32
  containerDuration : Option UInt64
  editRate : MXF.Rational

def bitsOfLevels (log2 : Int32 → Int32) (minRef maxRef : Int32) : Int32 :=
  if 0 ≤ minRef ∧ minRef ≤ 15 then log2 (maxRef + 1)
  else if minRef = 16 ∧ maxRef = 235 then 8
  else if minRef = 64 ∧ maxRef = 940 then 10
  else if minRef = 256 ∧ maxRef = 3760 then 12
  else -1

def rgbaPicture (context : ReaderContext) (rgba : MXF.RGBAEssenceDescriptor) : Option Picture := do
  let essence ← readRGBAEssenceDescriptor context.rgbaBuffer rgba
  let componentMinRef ← rgba.componentMinRef
  let componentMaxRef ← rgba.componentMaxRef
  pure
    { essence := essence
      colorSpace := .rgb444
      bits := bitsOfLevels context.log2 componentMinRef.toInt32 componentMaxRef.toInt32
      containerDuration := rgba.containerDuration
      editRate := rgba.sampleRate }

def cdciPicture (cdci : MXF.CDCIEssenceDescriptor) : Option Picture := do
  let essence ← readCDCIEssenceDescriptor cdci
  pure
    { essence := essence
      colorSpace :=
        if cdci.horizontalSubsampling = 1 then .yuv444
        else if cdci.horizontalSubsampling = 2 then .yuv422
        else .invalid
      bits := cdci.componentDepth.toInt32
      containerDuration := cdci.containerDuration
      editRate := cdci.sampleRate }

section Reader

variable (context : ReaderContext) (file : MXF.TrackFile)

def readPicture : Except String Picture :=
  match file.getMDObjectByType MXF.InterchangeObject.asRGBA with
  | some rgba =>
      orThrow "somewthing wrong with PictureEssence (RGBA) ... check logs" (rgbaPicture context rgba)
  | none =>
      match file.getMDObjectByType MXF.InterchangeObject.asCDCI with
      | some cdci =>
          orThrow "something wrong with PicturEssence (CDCI) ... check logs" (cdciPicture cdci)
      | none => .error "No essence descriptor found"

def videoTrackOf (picture : Picture) (jpeg2000SubDescriptor : JPEG2000SubDescriptor) :
    IMFVideoTrack :=
  { track :=
      { uuid := file.assetUUID
        type := .video
        duration := MXFReader.videoDuration picture.containerDuration file.indexDuration
        editRate := .ofMxf picture.editRate
        essenceDescriptor :=
          { uuid := context.makeUUID
            essenceDescriptor :=
              picture.essence.setSubDescriptors [.jpeg2000 jpeg2000SubDescriptor] } }
    bits := picture.bits
    colorSpace := picture.colorSpace }

/-- `MXFReader::ReadVideoTrack` -/
def readVideoTrack : Except String IMFVideoTrack := do
  let _ ← check "Error opening file" file.openRead
  let _ ← check "Couldn't read file" file.fillWriterInfo
  let picture ← readPicture context file
  let pictureSubDescriptor ← orThrow "COULDNT FIND JPEG2000PictureSubDescriptor"
    (file.getMDObjectByType MXF.InterchangeObject.asJPEG2000Picture)
  let jpeg2000SubDescriptor ← orThrow "Error parsing JPEG2000PictureSubDescriptor"
    (readJPEG2000SubDescriptor context.jpeg2000Buffer pictureSubDescriptor)
  let _ ← orThrow "NO TRACK FILES IN MXF" (file.getMDObjectByType MXF.InterchangeObject.asTrack)
  pure (videoTrackOf context file picture jpeg2000SubDescriptor)

/-- The labels of the channels, and behind them those of the groups. -/
def readLabels : Option (List SubDescriptor) := do
  let channels ← (file.getMDObjectsByType MXF.InterchangeObject.asAudioChannelLabel).mapM
    readAudioChannelLabelSubDescriptor
  let groups ← (file.getMDObjectsByType MXF.InterchangeObject.asSoundfieldGroupLabel).mapM
    readSoundfieldGroupLabelSubDescriptor
  if channels = [] ∧ groups = [] then none else some (channels ++ groups)

def audioTrackOf (waveDescriptor : MXF.WaveAudioDescriptor) (wave : WaveAudioDescriptor)
    (labels : List SubDescriptor) : IMFAudioTrack :=
  { track :=
      { uuid := file.assetUUID
        type := .audio
        duration := MXFReader.audioDuration waveDescriptor.containerDuration file.indexDuration
        editRate := .ofMxf waveDescriptor.sampleRate
        essenceDescriptor :=
          { uuid := context.makeUUID
            essenceDescriptor := (EssenceDescriptorData.wave wave).setSubDescriptors labels } }
    bits := waveDescriptor.quantizationBits.toInt32 }

/-- `MXFReader::ReadAudioTrack` -/
def readAudioTrack : Except String IMFAudioTrack := do
  let _ ← check "Error opening file" file.openRead
  let waveDescriptor ← orThrow "Error reading OP1aHeader"
    (file.getMDObjectByType MXF.InterchangeObject.asWaveAudio)
  let _ ← check "Error reading AudioFile" file.fillWriterInfo
  let wave ← orThrow "something wrong with WaveAudioDescriptor... check logs"
    (readWaveAudioDescriptor waveDescriptor)
  let labels ← orThrow "Error with audio MCALabelSubDescriptors and so.. check logs"
    (readLabels file)
  pure (audioTrackOf context file waveDescriptor wave labels)

/-- `MXFReader::GetEssenceType`. Nothing is returned for an invalid type. -/
def getEssenceType : Option TrackType :=
  match file.essenceType with
  | some .as02JPEG2000 => some .video
  | some .as02PCM => some .audio
  | _ => none

def fileOf : File :=
  match getEssenceType file with
  | some .video => .mxf ((readVideoTrack context file).map IMFVideoTrack.track)
  | some .audio => .mxf ((readAudioTrack context file).map IMFAudioTrack.track)
  | none => .other

end Reader

section Acceptance

/-! Which files are accepted. -/

theorem succeeds_orThrow {α : Type} (message : String) {found : Option α} :
    (∃ value, orThrow message found = .ok value) ↔ found.isSome := by
  cases found <;> simp [orThrow]

theorem succeeds_check (message : String) {holds : Bool} :
    (∃ value, check message holds = .ok value) ↔ holds = true := by
  cases holds <;> simp [check]

theorem readMXFEssenceDescriptorBase_isSome (gen : MXF.FileDescriptor) :
    (readMXFEssenceDescriptorBase gen).isSome ↔ gen.Complete := by
  refine isSome_bind_iff fun containerDuration => ?_
  rw [isSome_bind_iff fun linkedTrackID => iff_of_true rfl trivial, and_true]

theorem readVideoEssenceDescriptor_isSome (gen : MXF.GenericPictureEssenceDescriptor) :
    (readVideoEssenceDescriptor gen).isSome ↔ gen.Complete := by
  unfold MXF.GenericPictureEssenceDescriptor.Complete
  rw [← readMXFEssenceDescriptorBase_isSome]
  refine isSome_bind_iff fun base => isSome_bind_iff fun transferCharacteristic =>
    isSome_bind_iff fun codingEquations => ?_
  rw [isSome_bind_iff fun colorPrimaries => iff_of_true rfl trivial, and_true]

theorem readRGBAEssenceDescriptor_isSome (buffer : List Char) (gen : MXF.RGBAEssenceDescriptor) :
    (readRGBAEssenceDescriptor buffer gen).isSome ↔ gen.Complete := by
  unfold MXF.RGBAEssenceDescriptor.Complete
  rw [← readVideoEssenceDescriptor_isSome]
  refine isSome_bind_iff fun video => isSome_bind_iff fun componentMaxRef => ?_
  rw [isSome_bind_iff fun componentMinRef => iff_of_true rfl trivial, and_true]

theorem rgbaPicture_isSome (context : ReaderContext) (rgba : MXF.RGBAEssenceDescriptor) :
    (rgbaPicture context rgba).isSome ↔ rgba.Complete := by
  have levels : (rgbaPicture context rgba).isSome ↔
      (readRGBAEssenceDescriptor context.rgbaBuffer rgba).isSome ∧
        rgba.componentMinRef.isSome ∧ rgba.componentMaxRef.isSome := by
    refine isSome_bind_iff fun essence => isSome_bind_iff fun componentMinRef => ?_
    rw [isSome_bind_iff fun componentMaxRef => iff_of_true rfl trivial, and_true]
  rw [levels, readRGBAEssenceDescriptor_isSome]
  exact and_iff_left_of_imp fun complete => ⟨complete.2.2, complete.2.1⟩

theorem cdciPicture_isSome (cdci : MXF.CDCIEssenceDescriptor) :
    (cdciPicture cdci).isSome ↔ cdci.toGenericPictureEssenceDescriptor.Complete := by
  rw [cdciPicture, isSome_bind_iff fun essence => iff_of_true rfl trivial, and_true,
    readCDCIEssenceDescriptor, isSome_bind_iff fun video => iff_of_true rfl trivial, and_true,
    readVideoEssenceDescriptor_isSome]

theorem readWaveAudioDescriptor_isSome (gen : MXF.WaveAudioDescriptor) :
    (readWaveAudioDescriptor gen).isSome ↔ gen.Complete := by
  unfold MXF.WaveAudioDescriptor.Complete
  rw [← readMXFEssenceDescriptorBase_isSome]
  refine isSome_bind_iff fun base => ?_
  rw [isSome_bind_iff fun channelAssignment => iff_of_true rfl trivial, and_true]

theorem readMCALabelSubDescriptor_isSome (gen : MXF.MCALabelSubDescriptor) :
    (readMCALabelSubDescriptor gen).isSome ↔ gen.Complete := by
  refine isSome_bind_iff fun mcaTagName => ?_
  rw [isSome_bind_iff fun rfc5646SpokenLanguage => iff_of_true rfl trivial, and_true]

theorem readAudioChannelLabelSubDescriptor_isSome (gen : MXF.AudioChannelLabelSubDescriptor) :
    (readAudioChannelLabelSubDescriptor gen).isSome ↔ gen.Complete := by
  unfold MXF.AudioChannelLabelSubDescriptor.Complete
  rw [← readMCALabelSubDescriptor_isSome]
  refine isSome_bind_iff fun label => isSome_bind_iff fun mcaChannelID => ?_
  rw [isSome_bind_iff fun soundfieldGroupLinkID => iff_of_true rfl trivial, and_true]

theorem readSoundfieldGroupLabelSubDescriptor_isSome (gen : MXF.MCALabelSubDescriptor) :
    (readSoundfieldGroupLabelSubDescriptor gen).isSome ↔ gen.Complete := by
  rw [readSoundfieldGroupLabelSubDescriptor, Option.isSome_map, readMCALabelSubDescriptor_isSome]

theorem readJPEG2000SubDescriptor_isSome (buffer : List Char)
    (gen : MXF.JPEG2000PictureSubDescriptor) :
    (readJPEG2000SubDescriptor buffer gen).isSome ↔ gen.Complete := by
  refine isSome_bind_iff fun pictureComponentSizing => isSome_bind_iff fun codingStyleDefault =>
    isSome_bind_iff fun quantizationDefault => ?_
  rw [isSome_bind_iff fun j2cLayout => iff_of_true rfl trivial, and_true]

variable (context : ReaderContext) (file : MXF.TrackFile)

theorem readLabels_isSome : (readLabels file).isSome ↔
    (∀ label ∈ file.getMDObjectsByType MXF.InterchangeObject.asAudioChannelLabel, label.Complete) ∧
    (∀ label ∈ file.getMDObjectsByType MXF.InterchangeObject.asSoundfieldGroupLabel,
      label.Complete) ∧
    ¬ (file.getMDObjectsByType MXF.InterchangeObject.asAudioChannelLabel = [] ∧
      file.getMDObjectsByType MXF.InterchangeObject.asSoundfieldGroupLabel = []) := by
  simp only [← readAudioChannelLabelSubDescriptor_isSome,
    ← readSoundfieldGroupLabelSubDescriptor_isSome, ← isSome_mapM]
  unfold readLabels
  cases channelsRead : (file.getMDObjectsByType MXF.InterchangeObject.asAudioChannelLabel).mapM
      readAudioChannelLabelSubDescriptor with
  | none => simp
  | some channels =>
      cases groupsRead : (file.getMDObjectsByType MXF.InterchangeObject.asSoundfieldGroupLabel).mapM
          readSoundfieldGroupLabelSubDescriptor with
      | none => simp
      | some groups =>
          have channelCount := length_of_mapM channelsRead
          have groupCount := length_of_mapM groupsRead
          simp [← List.length_eq_zero_iff, channelCount, groupCount]

theorem readPicture_succeeds : (∃ picture, readPicture context file = .ok picture) ↔
    file.PictureComplete := by
  unfold readPicture MXF.TrackFile.PictureComplete
  cases file.getMDObjectByType MXF.InterchangeObject.asRGBA with
  | some rgba => exact (succeeds_orThrow _).trans (rgbaPicture_isSome context rgba)
  | none =>
      cases file.getMDObjectByType MXF.InterchangeObject.asCDCI with
      | some cdci => simpa using (succeeds_orThrow _).trans (cdciPicture_isSome cdci)
      | none => simp

theorem succeeds_found {α β : Type} {message : String} {found : Option α}
    {next : α → Except String β} {holds : α → Prop}
    (later : ∀ value, (∃ result, next value = .ok result) ↔ holds value) :
    (∃ result, orThrow message found >>= next = .ok result) ↔ ∃ value ∈ found, holds value := by
  cases found with
  | none => simp [orThrow]
  | some value => simpa [orThrow] using later value

theorem videoComplete_iff : file.VideoComplete ↔ file.PictureComplete ∧
    ∃ descriptor ∈ file.getMDObjectByType MXF.InterchangeObject.asJPEG2000Picture,
      descriptor.Complete ∧ (file.getMDObjectByType MXF.InterchangeObject.asTrack).isSome := by
  constructor
  · rintro ⟨picture, ⟨descriptor, found, complete⟩, track⟩
    exact ⟨picture, descriptor, found, complete, track⟩
  · rintro ⟨picture, descriptor, found, complete, track⟩
    exact ⟨picture, ⟨descriptor, found, complete⟩, track⟩

theorem readVideoTrack_succeeds : (∃ track, readVideoTrack context file = .ok track) ↔
    file.openRead = true ∧ file.fillWriterInfo = true ∧ file.VideoComplete := by
  rw [videoComplete_iff, ← readPicture_succeeds context,
    ← succeeds_check "Error opening file",
    ← succeeds_check "Couldn't read file"]
  refine succeeds_bind_iff fun _ => succeeds_bind_iff fun _ => succeeds_bind_iff fun picture =>
    succeeds_found fun pictureSubDescriptor => ?_
  rw [← readJPEG2000SubDescriptor_isSome context.jpeg2000Buffer,
    ← succeeds_orThrow "Error parsing JPEG2000PictureSubDescriptor",
    ← succeeds_orThrow "NO TRACK FILES IN MXF"]
  refine succeeds_bind_iff fun jpeg2000SubDescriptor => ?_
  exact (succeeds_bind_iff fun _ => iff_of_true ⟨_, rfl⟩ trivial).trans (iff_of_eq (and_true _))

theorem audioComplete_iff : file.fillWriterInfo = true ∧ file.AudioComplete ↔
    ∃ descriptor ∈ file.getMDObjectByType MXF.InterchangeObject.asWaveAudio,
      file.fillWriterInfo = true ∧ descriptor.Complete ∧ (readLabels file).isSome := by
  rw [readLabels_isSome]
  constructor
  · rintro ⟨info, ⟨descriptor, found, complete⟩, channels, groups, labelled⟩
    exact ⟨descriptor, found, info, complete, channels, groups, labelled⟩
  · rintro ⟨descriptor, found, info, complete, channels, groups, labelled⟩
    exact ⟨info, ⟨descriptor, found, complete⟩, channels, groups, labelled⟩

theorem readAudioTrack_succeeds : (∃ track, readAudioTrack context file = .ok track) ↔
    file.openRead = true ∧ file.fillWriterInfo = true ∧ file.AudioComplete := by
  rw [audioComplete_iff, ← succeeds_check "Error opening file",
    ← succeeds_check "Error reading AudioFile"]
  refine succeeds_bind_iff fun _ => succeeds_found fun waveDescriptor =>
    succeeds_bind_iff fun _ => ?_
  rw [← readWaveAudioDescriptor_isSome,
    ← succeeds_orThrow "something wrong with WaveAudioDescriptor... check logs",
    ← succeeds_orThrow "Error with audio MCALabelSubDescriptors and so.. check logs"]
  refine succeeds_bind_iff fun wave => ?_
  exact (succeeds_bind_iff fun labels => iff_of_true ⟨_, rfl⟩ trivial).trans (iff_of_eq (and_true _))

theorem getEssenceType_eq_video : getEssenceType file = some .video ↔
    file.initFromFile = true ∧ file.operationalPattern = .op1a ∧
      (file.getMDObjectByType MXF.InterchangeObject.asJPEG2000Picture).isSome = true := by
  unfold getEssenceType MXF.TrackFile.essenceType
  cases file.initFromFile <;> cases file.operationalPattern <;>
    cases (file.getMDObjectByType MXF.InterchangeObject.asJPEG2000Picture).isSome <;>
    cases (file.getMDObjectByType MXF.InterchangeObject.asWaveAudio).isSome <;> simp

theorem getEssenceType_eq_audio : getEssenceType file = some .audio ↔
    file.initFromFile = true ∧ file.operationalPattern = .op1a ∧
      (file.getMDObjectByType MXF.InterchangeObject.asJPEG2000Picture).isSome = false ∧
      (file.getMDObjectByType MXF.InterchangeObject.asWaveAudio).isSome = true := by
  unfold getEssenceType MXF.TrackFile.essenceType
  cases file.initFromFile <;> cases file.operationalPattern <;>
    cases (file.getMDObjectByType MXF.InterchangeObject.asJPEG2000Picture).isSome <;>
    cases (file.getMDObjectByType MXF.InterchangeObject.asWaveAudio).isSome <;> simp

theorem essenceType_of_importable {file : MXF.TrackFile} (importable : file.Importable) :
    getEssenceType file ≠ none := by
  intro invalid
  have essence := importable.essence
  split at essence
  · rename_i jpeg2000
    have video := (getEssenceType_eq_video file).mpr
      ⟨importable.initFromFile, importable.operationalPattern, jpeg2000⟩
    rw [invalid] at video
    cases video
  · rename_i other
    obtain ⟨descriptor, found, -⟩ := essence.waveAudio
    have audio := (getEssenceType_eq_audio file).mpr
      ⟨importable.initFromFile, importable.operationalPattern, Bool.eq_false_iff.mpr other,
        Option.isSome_of_mem found⟩
    rw [invalid] at audio
    cases audio

/-- A package takes a file over exactly if its header is complete. -/
theorem importable_iff : (∃ track, fileOf context file = .mxf (.ok track)) ↔ file.Importable := by
  unfold fileOf
  cases type : getEssenceType file with
  | none =>
      apply iff_of_false
      · rintro ⟨track, impossible⟩
        cases impossible
      · exact fun importable => essenceType_of_importable importable type
  | some trackType =>
      cases trackType with
      | video =>
          obtain ⟨initFromFile, operationalPattern, jpeg2000⟩ := (getEssenceType_eq_video file).mp type
          simp only [File.mxf.injEq, succeeds_map, readVideoTrack_succeeds]
          constructor
          · rintro ⟨openRead, fillWriterInfo, complete⟩
            exact ⟨initFromFile, operationalPattern, openRead, fillWriterInfo,
              by rwa [if_pos jpeg2000]⟩
          · intro importable
            have complete := importable.essence
            rw [if_pos jpeg2000] at complete
            exact ⟨importable.openRead, importable.fillWriterInfo, complete⟩
      | audio =>
          obtain ⟨initFromFile, operationalPattern, other, -⟩ := (getEssenceType_eq_audio file).mp type
          have notVideo := Bool.eq_false_iff.mp other
          simp only [File.mxf.injEq, succeeds_map, readAudioTrack_succeeds]
          constructor
          · rintro ⟨openRead, fillWriterInfo, complete⟩
            exact ⟨initFromFile, operationalPattern, openRead, fillWriterInfo,
              by rwa [if_neg notVideo]⟩
          · intro importable
            have complete := importable.essence
            rw [if_neg notVideo] at complete
            exact ⟨importable.openRead, importable.fillWriterInfo, complete⟩

end Acceptance

end Imflib.Package
