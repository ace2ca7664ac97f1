import Imflib.Encoder.CommandLine
import Imflib.Mxf.Metadata

/-! The descriptors that `imfenc` gives its MXF files. -/

namespace Imflib.Encoder

/-- `JP2K::PictureDescriptor`, as the parser fills it in from the first code stream. -/
structure PictureDescriptor where
  editRate : MXF.Rational
  containerDuration : UInt32
  aspectRatio : MXF.Rational
  storedWidth : UInt32
  storedHeight : UInt32
  rsize : UInt16
  xsize : UInt32
  ysize : UInt32
  xOsize : UInt32
  yOsize : UInt32
  xTsize : UInt32
  yTsize : UInt32
  xTOsize : UInt32
  yTOsize : UInt32
  csize : UInt16
  imageComponents : Fin 3 → Package.ComponentSizing
  codingStyle : List UInt8
  precinctSize : List UInt8
  sqcd : UInt8
  spqcd : List UInt8

/-- The sizing that `opj_j2k_write_siz` writes for a component. -/
def ComponentParameter.siz (parameter : ComponentParameter) : Package.ComponentSizing where
  ssiz := UInt8.ofNat (parameter.prec - 1 + 128 * parameter.sgnd)
  xrSiz := UInt8.ofNat parameter.dx
  yrSiz := UInt8.ofNat parameter.dy

namespace PictureDescriptor

variable (pDesc : PictureDescriptor)

/-- `JP2K_PDesc_to_MD`: the essence descriptor. What is not set there is empty. -/
def toMD : MXF.GenericPictureEssenceDescriptor where
  instanceUID := ""
  linkedTrackID := none
  sampleRate := pDesc.editRate
  containerDuration := some pDesc.containerDuration.toUInt64
  essenceContainer := ""
  storedWidth := pDesc.storedWidth
  storedHeight := pDesc.storedHeight
  aspectRatio := pDesc.aspectRatio
  pictureEssenceCoding := ""
  transferCharacteristic := none
  codingEquations := none
  colorPrimaries := none

def components : List Package.ComponentSizing :=
  [pDesc.imageComponents 0, pDesc.imageComponents 1, pDesc.imageComponents 2]

/-- `JP2K_PDesc_to_MD`: the descriptor of the code streams. -/
def toSubMD : MXF.JPEG2000PictureSubDescriptor where
  instanceUID := ""
  rsize := pDesc.rsize
  xsize := pDesc.xsize
  ysize := pDesc.ysize
  xOsize := pDesc.xOsize
  yOsize := pDesc.yOsize
  xTsize := pDesc.xTsize
  yTsize := pDesc.yTsize
  xTOsize := pDesc.xTOsize
  yTOsize := pDesc.yTOsize
  csize := pDesc.csize
  pictureComponentSizing := some (Package.ComponentSizing.arrayHeader 3 3 ++
    pDesc.components.flatMap Package.ComponentSizing.bytes)
  codingStyleDefault := some (pDesc.codingStyle ++ pDesc.precinctSize.takeWhile (· ≠ 0))
  quantizationDefault := some (pDesc.sqcd :: pDesc.spqcd)
  j2cLayout := none

end PictureDescriptor

structure MXFOptionsVideo where
  editRate : RationalNumber
  aspectRatio : RationalNumber
  containerDuration : UInt32
  yuvEssence : Bool
  subsamplingDx : Int
  bits : Int
  broadcastProfile : Int
  fullRange : Bool

/-- The options that `main` fills in. -/
def videoOptions (options : ProgramOptions) (editRate aspectRatio : RationalNumber)
    (j2kFiles : List String) : MXFOptionsVideo where
  editRate := editRate
  aspectRatio := aspectRatio
  containerDuration := UInt32.ofNat j2kFiles.length
  yuvEssence := options.colorFormat ≠ .rgb444
  subsamplingDx := if options.colorFormat = .yuv422 then 2 else 1
  bits := options.bitsPerComponent.bits
  broadcastProfile := options.profile
  fullRange := options.fullRange

def RationalNumber.toMxf (rational : RationalNumber) : MXF.Rational :=
  ⟨Int32.ofInt rational.num, Int32.ofInt rational.denum⟩

section Layout

/-! The layouts of three components, of eight bits or of ten. Others take those of ten. -/

def layoutDepth (bits : Int) : UInt8 := if bits = 8 then 8 else 10

def layoutEntry (code : Package.LayoutCode) (bits : Int) : Package.LayoutEntry where
  code := code
  depth := layoutDepth bits
  least := by
    unfold layoutDepth
    split <;> decide
  most := by
    unfold layoutDepth
    split <;> decide

def rgbaValue (first second third : Package.LayoutCode) (bits : Int) : Package.RGBALayout :=
  .three (layoutEntry first bits) (layoutEntry second bits) (layoutEntry third bits)
    (Vector.replicate 9 0)

def j2cLayout (options : MXFOptionsVideo) : Package.RGBALayout :=
  if options.yuvEssence then rgbaValue .luma .colorDifferenceU .colorDifferenceV options.bits
  else rgbaValue .red .green .blue options.bits

def noPixelLayout : Package.RGBALayout := ⟨List.replicate 16 0, rfl⟩

end Layout

section MuxVideoFiles

variable (options : MXFOptionsVideo)

def profileLabel (broadcastProfile : Int) : String :=
  String.ofList ("060e2b34.0401010d.04010202.030101".toList ++
    Text.hexByte (0x11 + UInt8.ofInt (broadcastProfile - 1)))

def transferCharacteristic : String :=
  if options.fullRange then "060e2b34.0401010e.04010101.01090000"
  else "060e2b34.04010101.04010101.01020000"

def colorPrimaries : String :=
  if options.fullRange then "060e2b34.0401010d.04010101.03040000"
  else "060e2b34.04010106.04010101.03030000"

def codingEquations : String :=
  if options.fullRange then "060e2b34.0401010d.04010101.02060000"
  else "060e2b34.04010101.04010101.02020000"

def referenceLevels : UInt32 × UInt32 :=
  let full := (0, UInt32.ofNat (2 ^ options.bits.toNat - 1))
  if options.fullRange then full
  else if options.bits = 8 then (16, 235)
  else if options.bits = 10 then (64, 940)
  else if options.bits = 12 then (256, 3760)
  else full

def withOptions (parsed : PictureDescriptor) : PictureDescriptor :=
  { parsed with
    editRate := options.editRate.toMxf
    containerDuration := options.containerDuration
    aspectRatio := options.aspectRatio.toMxf }

def pictureMD (parsed : PictureDescriptor) : MXF.GenericPictureEssenceDescriptor :=
  { (withOptions options parsed).toMD with
    pictureEssenceCoding := profileLabel options.broadcastProfile
    transferCharacteristic := some (transferCharacteristic options)
    codingEquations := some (codingEquations options)
    colorPrimaries := some (colorPrimaries options) }

structure WriterInfo where
  assetUUID : String
  instanceUID : String
  subInstanceUID : String
  essenceContainer : String

/-- What the writer puts into a descriptor until the file is finalized. -/
def WriterInfo.finalized (info : WriterInfo) (framesWritten : UInt32)
    (descriptor : MXF.FileDescriptor) : MXF.FileDescriptor :=
  { descriptor with
    instanceUID := info.instanceUID
    linkedTrackID := some 2
    containerDuration := some framesWritten.toUInt64
    essenceContainer := info.essenceContainer }

variable (info : WriterInfo) (framesWritten : UInt32)

def videoDescriptor (parsed : PictureDescriptor) : MXF.InterchangeObject :=
  let picture :=
    { pictureMD options parsed with
      toFileDescriptor := info.finalized framesWritten (pictureMD options parsed).toFileDescriptor }
  if options.yuvEssence then
    .cdci
      { picture with
        componentDepth := UInt32.ofInt options.bits
        horizontalSubsampling := UInt32.ofInt options.subsamplingDx
        verticalSubsampling := 1
        whiteReflevel := 940
        blackRefLevel := 64 }
  else
    .rgba
      { picture with
        componentMaxRef := some (referenceLevels options).2
        componentMinRef := some (referenceLevels options).1
        pixelLayout := noPixelLayout }

def pictureSubDescriptor (parsed : PictureDescriptor) : MXF.JPEG2000PictureSubDescriptor :=
  { (withOptions options parsed).toSubMD with
    instanceUID := info.subInstanceUID
    j2cLayout := some (j2cLayout options) }

def packageObjects : List MXF.InterchangeObject :=
  let track := [.track, .other, .other]
  List.replicate 5 .other ++ track ++ track ++ .other :: (track ++ track)

def videoFile (parsed : PictureDescriptor) : MXF.TrackFile where
  initFromFile := true
  operationalPattern := .op1a
  objects := packageObjects ++
    [videoDescriptor options info framesWritten parsed,
      .jpeg2000Picture (pictureSubDescriptor options info parsed)]
  openRead := true
  fillWriterInfo := true
  assetUUID := info.assetUUID
  indexDuration := framesWritten

end MuxVideoFiles

section MuxAudioFile

/-- `PCM::ChannelFormat_t` -/
inductive ChannelFormat where
  | none
  | cfg1
  | cfg2
  | cfg3
  | cfg4
  | cfg5
  | cfg6
  deriving DecidableEq, Repr

def dcAudioChannelCfgMCA : String := "060e2b34.0401010d.04020210.03020000"

def ChannelFormat.label : ChannelFormat → Option String
  | .none => .none
  | .cfg1 => some "060e2b34.0401010b.04020210.03010100"
  | .cfg2 => some "060e2b34.0401010b.04020210.03010200"
  | .cfg3 => some "060e2b34.0401010b.04020210.03010300"
  | .cfg4 => some "060e2b34.0401010b.04020210.03010400"
  | .cfg5 => some "060e2b34.0401010b.04020210.03010500"
  | .cfg6 => some dcAudioChannelCfgMCA

/-- `PCM::AudioDescriptor`, as the parser fills it in from a WAV file. -/
structure AudioDescriptor where
  audioSamplingRate : MXF.Rational
  locked : UInt8
  channelCount : UInt32
  quantizationBits : UInt32
  blockAlign : UInt16
  avgBps : UInt32
  linkedTrackID : UInt32
  containerDuration : UInt32
  channelFormat : ChannelFormat

/-- `PCM_ADesc_to_MD`, for a new descriptor. -/
def AudioDescriptor.toMD (aDesc : AudioDescriptor) (editRate : RationalNumber) :
    MXF.WaveAudioProperties where
  instanceUID := ""
  linkedTrackID := some aDesc.linkedTrackID
  sampleRate := editRate.toMxf
  containerDuration := some aDesc.containerDuration.toUInt64
  essenceContainer := ""
  audioSamplingRate := aDesc.audioSamplingRate
  locked := aDesc.locked
  channelCount := aDesc.channelCount
  quantizationBits := aDesc.quantizationBits
  soundEssenceCoding := ""
  blockAlign := aDesc.blockAlign
  avgBps := aDesc.avgBps
  channelAssignment := ⟨aDesc.channelFormat.label.isSome, aDesc.channelFormat.label⟩

/-- `AS02_MCAConfigParser`: the labels of the channels that it has read of a text. -/
structure MCAConfigParser where
  labels : List MXF.InterchangeObject
  channelCount : UInt32

def MCAConfigParser.new : MCAConfigParser := ⟨[], 0⟩

/-- Without labels the local `channel_assignment` is assigned, to which nothing has given a value.
Labels have to be as many as the channels. -/
def assignChannels (mcaConfig : MCAConfigParser) (descriptor : MXF.WaveAudioProperties) :
    Option MXF.WaveAudioProperties :=
  if mcaConfig.labels.isEmpty then some { descriptor with channelAssignment := .assign none }
  else if mcaConfig.channelCount ≠ descriptor.channelCount then none
  else some { descriptor with channelAssignment := .assign (some dcAudioChannelCfgMCA) }

variable (info : WriterInfo) (framesWritten : UInt32)

def audioDescriptor (descriptor : MXF.WaveAudioProperties) : MXF.WaveAudioDescriptor :=
  { descriptor.writeToTLVSet with
    toFileDescriptor :=
      { info.finalized framesWritten descriptor.toFileDescriptor with
        sampleRate := descriptor.audioSamplingRate } }

def audioFile (mcaConfig : MCAConfigParser) (parsed : AudioDescriptor)
    (editRate : RationalNumber) : Option MXF.TrackFile :=
  (assignChannels mcaConfig (parsed.toMD editRate)).map fun descriptor =>
    { initFromFile := true
      operationalPattern := .op1a
      objects := packageObjects ++
        .waveAudio (audioDescriptor info framesWritten descriptor) :: mcaConfig.labels
      openRead := true
      fillWriterInfo := true
      assetUUID := info.assetUUID
      indexDuration := framesWritten }

/-- The configuration of `MuxAudioFile` is never given a text. -/
def soundFile (parsed : AudioDescriptor) (editRate : RationalNumber) : Option MXF.TrackFile :=
  audioFile info framesWritten .new parsed editRate

end MuxAudioFile

end Imflib.Encoder
