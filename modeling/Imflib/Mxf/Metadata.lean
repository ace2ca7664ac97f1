import Imflib.Base.TerminatedText
import Imflib.Package.JPEG2000Texts

/-! The header of an MXF file as the MXF library has it: a list of objects, of which the essence
descriptors are read and written here. Identifiers are given in the notation of the library. -/

namespace Imflib.MXF

structure Rational where
  numerator : Int32
  denominator : Int32
  deriving DecidableEq, Repr

/-- What all descriptors of track files have. A property that can be missing is an `Option`. -/
structure FileDescriptor where
  instanceUID : String
  linkedTrackID : Option UInt32
  sampleRate : Rational
  containerDuration : Option UInt64
  essenceContainer : String
  deriving DecidableEq, Repr

structure GenericPictureEssenceDescriptor extends FileDescriptor where
  storedWidth : UInt32
  storedHeight : UInt32
  aspectRatio : Rational
  pictureEssenceCoding : String
  transferCharacteristic : Option String
  codingEquations : Option String
  colorPrimaries : Option String
  deriving DecidableEq, Repr

structure RGBAEssenceDescriptor extends GenericPictureEssenceDescriptor where
  componentMaxRef : Option UInt32
  componentMinRef : Option UInt32
  pixelLayout : Package.RGBALayout

/-- Of the last three properties only the values are ever asked for. -/
structure CDCIEssenceDescriptor extends GenericPictureEssenceDescriptor where
  componentDepth : UInt32
  horizontalSubsampling : UInt32
  verticalSubsampling : UInt32
  whiteReflevel : UInt32
  blackRefLevel : UInt32
  deriving DecidableEq, Repr

structure GenericSoundEssenceDescriptor extends FileDescriptor where
  audioSamplingRate : Rational
  locked : UInt8
  channelCount : UInt32
  quantizationBits : UInt32
  soundEssenceCoding : String
  deriving DecidableEq, Repr

structure WaveAudioDescriptor extends GenericSoundEssenceDescriptor where
  blockAlign : UInt16
  avgBps : UInt32
  channelAssignment : Option String
  deriving DecidableEq, Repr

/-- An `optional_property` for a label. A label that is there can be without a value. -/
structure OptionalLabel where
  hasValue : Bool
  label : Option String
  deriving DecidableEq, Repr

namespace OptionalLabel

def assign (label : Option String) : OptionalLabel := ⟨true, label⟩

def nilLabel : String := "00000000.00000000.00000000.00000000"

/-- What is read again of a property. `WriteToTLVSet` leaves an empty one out, and
`TLVWriter::WriteObject` a label without a value, if the dictionary has the property as optional. -/
def written (optional : Bool) (property : OptionalLabel) : Option String :=
  if !property.hasValue then none
  else if optional && property.label.isNone then none
  else some (property.label.getD nilLabel)

end OptionalLabel

/-- A `WaveAudioDescriptor` that is not written yet. -/
structure WaveAudioProperties extends GenericSoundEssenceDescriptor where
  blockAlign : UInt16
  avgBps : UInt32
  channelAssignment : OptionalLabel
  deriving DecidableEq, Repr

/-- `WaveAudioDescriptor::WriteToTLVSet`. The channel assignment is optional. -/
def WaveAudioProperties.writeToTLVSet (properties : WaveAudioProperties) : WaveAudioDescriptor :=
  { properties with channelAssignment := properties.channelAssignment.written true }

structure JPEG2000PictureSubDescriptor where
  instanceUID : String
  rsize : UInt16
  xsize : UInt32
  ysize : UInt32
  xOsize : UInt32
  yOsize : UInt32
  xTsize : UInt32
  yTsize : UInt32
  xTOsize : UInt32
  yTOsize : UInt32
  csize : UInt16
  pictureComponentSizing : Option (List UInt8)
  codingStyleDefault : Option (List UInt8)
  quantizationDefault : Option (List UInt8)
  j2cLayout : Option Package.RGBALayout

structure MCALabelSubDescriptor where
  instanceUID : String
  mcaLabelDictionaryID : String
  mcaLinkID : String
  mcaTagSymbol : String
  mcaTagName : Option String
  mcaChannelID : Option UInt32
  rfc5646SpokenLanguage : Option String
  mcaTitle : Option String
  mcaTitleVersion : Option String
  mcaAudioContentKind : Option String
  mcaAudioElementKind : Option String
  deriving DecidableEq, Repr

structure AudioChannelLabelSubDescriptor extends MCALabelSubDescriptor where
  soundfieldGroupLinkID : Option String
  deriving DecidableEq, Repr

inductive InterchangeObject where
  | rgba (descriptor : RGBAEssenceDescriptor)
  | cdci (descriptor : CDCIEssenceDescriptor)
  | waveAudio (descriptor : WaveAudioDescriptor)
  | jpeg2000Picture (descriptor : JPEG2000PictureSubDescriptor)
  | audioChannelLabel (label : AudioChannelLabelSubDescriptor)
  | soundfieldGroupLabel (label : MCALabelSubDescriptor)
  | track
  | other

namespace InterchangeObject

def asRGBA : InterchangeObject → Option RGBAEssenceDescriptor
  | rgba descriptor => some descriptor
  | _ => none

def asCDCI : InterchangeObject → Option CDCIEssenceDescriptor
  | cdci descriptor => some descriptor
  | _ => none

def asWaveAudio : InterchangeObject → Option WaveAudioDescriptor
  | waveAudio descriptor => some descriptor
  | _ => none

def asJPEG2000Picture : InterchangeObject → Option JPEG2000PictureSubDescriptor
  | jpeg2000Picture descriptor => some descriptor
  | _ => none

def asAudioChannelLabel : InterchangeObject → Option AudioChannelLabelSubDescriptor
  | audioChannelLabel label => some label
  | _ => none

def asSoundfieldGroupLabel : InterchangeObject → Option MCALabelSubDescriptor
  | soundfieldGroupLabel label => some label
  | _ => none

def asTrack : InterchangeObject → Option Unit
  | track => some ()
  | _ => none

end InterchangeObject

inductive OperationalPattern where
  | opAtom
  | op1a
  | other
  deriving DecidableEq, Repr

structure TrackFile where
  initFromFile : Bool
  operationalPattern : OperationalPattern
  objects : List InterchangeObject
  openRead : Bool
  fillWriterInfo : Bool
  assetUUID : String
  indexDuration : UInt32

namespace TrackFile

variable {α : Type} (file : TrackFile)

/-- `GetMDObjectByType` finds the first object of a type. -/
def getMDObjectByType (type : InterchangeObject → Option α) : Option α := file.objects.findSome? type

def getMDObjectsByType (type : InterchangeObject → Option α) : List α := file.objects.filterMap type

end TrackFile

inductive EssenceType where
  | as02JPEG2000
  | as02PCM
  | unknown
  deriving DecidableEq, Repr

/-- `ASDCP::EssenceType`. Nothing is said of a file that cannot be read. -/
def TrackFile.essenceType (file : TrackFile) : Option EssenceType :=
  if file.initFromFile = false then none
  else
    match file.operationalPattern with
    | .opAtom => some .unknown
    | .other => none
    | .op1a =>
        if (file.getMDObjectByType InterchangeObject.asJPEG2000Picture).isSome then some .as02JPEG2000
        else if (file.getMDObjectByType InterchangeObject.asWaveAudio).isSome then some .as02PCM
        else some .unknown

section Text

def IDENT_BUFFER_LENGTH : Nat := 128

def nul : Char := '\x00'

/-- `UTF16String::EncodeString` and `ISO8String::EncodeString` -/
def encodeText (text : String) : String :=
  String.ofList (terminated nul (text.toList.take (IDENT_BUFFER_LENGTH - 1)))

/-- `Raw::EncodeString`. Bytes that do not fit leave an empty text. -/
def encodeRaw (bytes : List UInt8) (identbuf : List Char) : List Char :=
  let identbuf := overwrite [nul] identbuf
  if IDENT_BUFFER_LENGTH < bytes.length * 2 + 1 then identbuf
  else overwrite (Text.hexText bytes ++ [nul]) identbuf

/-- `RGBALayout::EncodeString` puts no terminator behind its text. -/
def encodeLayout (layout : Package.RGBALayout) (identbuf : List Char) : List Char :=
  overwrite layout.encodeString identbuf

/-- What a `std::string` is made of. -/
def bufferText (identbuf : List Char) : String := String.ofList (terminated nul identbuf)

theorem length_hexText (bytes : List UInt8) : (Text.hexText bytes).length = bytes.length * 2 := by
  induction bytes with
  | nil => rfl
  | cons byte bytes ih =>
      rw [Text.hexText, List.flatMap_cons, List.length_append, List.length_cons, Nat.add_mul]
      have rest : (bytes.flatMap Text.hexByte).length = bytes.length * 2 := ih
      rw [rest]
      exact Nat.add_comm _ _

theorem digitChar_ne_nul {n : Nat} (digit : n < 16) : nul ≠ n.digitChar := by
  interval_cases n <;> decide

theorem nul_not_mem_hexText (bytes : List UInt8) : nul ∉ Text.hexText bytes := by
  rw [Text.hexText, List.mem_flatMap]
  rintro ⟨byte, -, member⟩
  have bound := byte.toNat_lt
  rcases List.mem_cons.mp member with same | member
  · exact digitChar_ne_nul (by omega) same
  · exact digitChar_ne_nul (by omega) (List.mem_singleton.mp member)

theorem bufferText_encodeRaw {bytes : List UInt8} (fits : bytes.length ≤ 63) (identbuf : List Char) :
    bufferText (encodeRaw bytes identbuf) = String.ofList (Text.hexText bytes) := by
  have room : ¬ IDENT_BUFFER_LENGTH < bytes.length * 2 + 1 := by
    unfold IDENT_BUFFER_LENGTH
    omega
  rw [bufferText, encodeRaw, if_neg room, terminated_overwrite_self (nul_not_mem_hexText bytes)]

/-- The terminators that such texts leave are at even positions. -/
theorem holds_encodeRaw {identbuf : List Char} {position : Nat} (odd : position % 2 = 1)
    (holds : Holds nul identbuf position) (bytes : List UInt8) :
    Holds nul (encodeRaw bytes identbuf) position := by
  have cleared : Holds nul (overwrite [nul] identbuf) position := by
    apply holds.overwrite
    intro first
    rw [List.length_singleton] at first
    omega
  unfold encodeRaw
  split
  · exact cleared
  · apply cleared.overwrite_terminated (nul_not_mem_hexText bytes)
    rw [length_hexText]
    omega

theorem holds_of_encodeRaw {bytes : List UInt8} {position : Nat} (fits : bytes.length ≤ 63)
    (long : position < bytes.length * 2) (identbuf : List Char) :
    Holds nul (encodeRaw bytes identbuf) position := by
  have room : ¬ IDENT_BUFFER_LENGTH < bytes.length * 2 + 1 := by
    unfold IDENT_BUFFER_LENGTH
    omega
  rw [encodeRaw, if_neg room]
  apply Holds.of_overwrite_terminated (nul_not_mem_hexText bytes)
  rw [length_hexText]
  exact long

end Text

end Imflib.MXF
