import Imflib.Package.Common

/-! The essence descriptors of track files and how they are written into a playlist. -/

namespace Imflib.Package

structure MCALabelSubDescriptor where
  instanceId : String
  mcaLinkId : String
  mcaLabelDictionaryId : String
  mcaTagName : String
  mcaTagSymbol : String
  rfc5646SpokenLanguage : String
  mcaAudioElementKind : String
  mcaAudioContentKind : String
  mcaTitle : String
  mcaTitleVersion : String
  deriving DecidableEq, Repr

structure JPEG2000SubDescriptor where
  instanceId : String
  rsize : UInt16
  xsize : UInt32
  ysize : UInt32
  xOsize : UInt32
  yOsize : UInt32
  xTsize : UInt32
  yTsize : UInt32
  xTOsize : UInt32
  yTOsize : UInt32
  csize : UInt16
  pictureComponentSizing : String
  codingStyleDefault : String
  quantizationDefault : String
  j2cLayout : String
  deriving DecidableEq, Repr

inductive SubDescriptor where
  | jpeg2000 (descriptor : JPEG2000SubDescriptor)
  | audioChannelLabel (label : MCALabelSubDescriptor) (soundfieldGroupLinkId : String)
      (mcaChannelId : UInt16)
  | soundfieldGroupLabel (label : MCALabelSubDescriptor)
  deriving DecidableEq, Repr

structure MXFEssenceDescriptorBase where
  instanceId : String
  subDescriptors : List SubDescriptor
  sampleRate : RationalNumber
  essenceLength : UInt64
  containerFormat : String
  linkedTrackId : UInt32
  deriving DecidableEq, Repr

structure WaveAudioDescriptor where
  base : MXFEssenceDescriptorBase
  locked : UInt8
  soundCompression : String
  audioSampleRate : RationalNumber
  channelCount : UInt32
  quantizationBits : UInt32
  blockAlign : UInt16
  averageBytesPerSecond : UInt32
  channelAssignment : String
  deriving DecidableEq, Repr

structure VideoEssenceDescriptor where
  base : MXFEssenceDescriptorBase
  transferCharacteristic : String
  codingEquations : String
  colorPrimaries : String
  pictureCompression : String
  imageAspectRatio : RationalNumber
  storedWidth : UInt32
  storedHeight : UInt32
  deriving DecidableEq, Repr

inductive EssenceDescriptorData where
  | wave (descriptor : WaveAudioDescriptor)
  | rgba (video : VideoEssenceDescriptor) (componentMaxRef componentMinRef : UInt32)
      (pixelLayout : String)
  | cdci (video : VideoEssenceDescriptor) (horizontalSubsampling verticalSubsampling : UInt8)
      (componentDepth : UInt16) (whiteRefLevel blackRefLevel : UInt32)
  deriving DecidableEq, Repr

structure IMFEssenceDescriptor where
  uuid : String
  essenceDescriptor : EssenceDescriptorData
  deriving DecidableEq, Repr

/-- `<first>/<second>` -/
def ratioStr (r : RationalNumber) : String :=
  String.ofList (Text.decimal r.num.toInt ++ '/' :: Text.decimal r.denum.toInt)

def compNull : PTree :=
  PTree.empty |>.put ["r2:Code"] "CompNull" |>.put ["r2:ComponentSize"] "0"

def writePixelLayout (s : String) (pt : PTree) : PTree :=
  let components := if s = "" then List.replicate 8 compNull else []
  pt.addChild "r1:PixelLayout"
    (components.foldl (fun tree comp => tree.addChild "r2:RGBAComponent" comp) .empty)

/-- The components of a sizing text, read from its end in steps of six digits. The first
digits, as many as three components have, are no component of their own. -/
def componentSizings : List Char → Except Exn (List PTree)
  | a :: b :: c :: d :: e :: f :: rest =>
      if rest.length + 6 > 3 * 6 then do
        let yrSiz ← lexicalCast [b, a]
        let xrSiz ← lexicalCast [d, c]
        let ssiz ← lexicalCast [f, e]
        let comp := PTree.empty
          |>.putInt ["r2:YRSiz"] yrSiz.toInt
          |>.putInt ["r2:XRSiz"] xrSiz.toInt
          |>.putInt ["r2:Ssiz"] ssiz.toInt
        let others ← componentSizings rest
        pure (comp :: others)
      else .ok []
  | _ => .ok []

def writePictureComponentSizing (s : String) (pt : PTree) : Except Exn PTree := do
  let components ← componentSizings s.toList.reverse
  pure (pt.addChild "r1:PictureComponentSizing"
    (components.foldl (fun tree comp => tree.addChild "r2:J2KComponentSizing" comp) .empty))

def compMap : Char → Option String
  | 'R' => some "CompRed"
  | 'G' => some "CompGreen"
  | 'B' => some "CompBlue"
  | 'Y' => some "CompLuma"
  | 'U' => some "CompColorDifferenceU"
  | 'V' => some "CompColorDifferenceV"
  | _ => none

/-- `std::string::find`, kept in an `unsigned int`. -/
def findUnsigned (c : Char) (t : List Char) : Nat :=
  match t.findIdx? (· == c) with
  | some position => position
  | none => 2 ^ 32 - 1

/-- One component of a layout text, such as `R(10) `. -/
def layoutComponent (t : List Char) : PTree :=
  let fir := findUnsigned '(' t
  let sec := findUnsigned ')' t
  let size := (t.drop ((fir + 1) % 2 ^ 32)).take ((sec + (2 ^ 32 - 1 - fir)) % 2 ^ 32)
  match t.head?.bind compMap with
  | some code =>
      PTree.empty |>.put ["r2:Code"] code |>.put ["r2:ComponentSize"] (String.ofList size)
  | none => .empty

def writeJ2CLayout (s : String) (pt : PTree) : PTree :=
  let components := (List.range 3).map fun index =>
    layoutComponent ((s.toList.drop (6 * index)).take 6)
  pt.addChild "r1:J2CLayout"
    ((components ++ List.replicate (8 - 3) compNull).foldl
      (fun tree comp => tree.addChild "r2:RGBAComponent" comp) .empty)

namespace MCALabelSubDescriptor

def write (label : MCALabelSubDescriptor) (pt : PTree) : PTree :=
  let pt := pt
    |>.put ["r1:InstanceID"] (uuidStr label.instanceId)
    |>.put ["r1:MCALinkID"] (uuidStr label.mcaLinkId)
    |>.put ["r1:MCALabelDictionaryID"] (ulStr label.mcaLabelDictionaryId)
    |>.put ["r1:MCATagSymbol"] label.mcaTagSymbol
    |>.put ["r1:MCATagName"] label.mcaTagName
    |>.put ["r1:RFC5646SpokenLanguage"] label.rfc5646SpokenLanguage
  let pt := putNonempty "r1:MCAAudioElementKind" label.mcaAudioElementKind pt
  let pt := putNonempty "r1:MCAAudioContentKind" label.mcaAudioContentKind pt
  let pt := putNonempty "r1:MCATitle" label.mcaTitle pt
  putNonempty "r1:MCATitleVersion" label.mcaTitleVersion pt

end MCALabelSubDescriptor

namespace SubDescriptor

def getTypeAsString : SubDescriptor → String
  | .jpeg2000 _ => "JPEG2000SubDescriptor"
  | .audioChannelLabel _ _ _ => "AudioChannelLabelSubDescriptor"
  | .soundfieldGroupLabel _ => "SoundfieldGroupLabelSubDescriptor"

def write (pt : PTree) : SubDescriptor → Except Exn PTree
  | .jpeg2000 descriptor => do
      let pt := pt
        |>.put ["r1:InstanceID"] (uuidStr descriptor.instanceId)
        |>.putInt ["r1:Xsiz"] descriptor.xsize.toNat
        |>.putInt ["r1:XOsiz"] descriptor.xOsize.toNat
        |>.putInt ["r1:XTsiz"] descriptor.xTsize.toNat
        |>.putInt ["r1:XTOsiz"] descriptor.xTOsize.toNat
        |>.putInt ["r1:Ysiz"] descriptor.ysize.toNat
        |>.putInt ["r1:YOsiz"] descriptor.yOsize.toNat
        |>.putInt ["r1:YTsiz"] descriptor.yTsize.toNat
        |>.putInt ["r1:YTOsiz"] descriptor.yTOsize.toNat
        |>.putInt ["r1:Csiz"] descriptor.csize.toNat
        |>.putInt ["r1:Rsiz"] descriptor.rsize.toNat
        |>.put ["r1:CodingStyleDefault"] descriptor.codingStyleDefault
        |>.put ["r1:QuantizationDefault"] descriptor.quantizationDefault
      let pt ← writePictureComponentSizing descriptor.pictureComponentSizing pt
      pure (writeJ2CLayout descriptor.j2cLayout pt)
  | .audioChannelLabel label soundfieldGroupLinkId mcaChannelId =>
      .ok (label.write pt
        |>.put ["r1:SoundfieldGroupLinkID"] (uuidStr soundfieldGroupLinkId)
        |>.putInt ["r1:MCAChannelID"] mcaChannelId.toNat)
  | .soundfieldGroupLabel label => .ok (label.write pt)

end SubDescriptor

def MXFEssenceDescriptorBase.write (base : MXFEssenceDescriptorBase) (pt : PTree) : PTree :=
  pt
    |>.put ["r1:InstanceID"] (uuidStr base.instanceId)
    |>.put ["r1:ContainerFormat"] (ulStr base.containerFormat)
    |>.put ["r1:SampleRate"] (ratioStr base.sampleRate)
    |>.putInt ["r1:EssenceLength"] base.essenceLength.toNat
    |>.putInt ["r1:LinkedTrackID"] base.linkedTrackId.toNat

def VideoEssenceDescriptor.write (video : VideoEssenceDescriptor) (pt : PTree) : PTree :=
  video.base.write pt
    |>.putInt ["r1:StoredWidth"] video.storedWidth.toNat
    |>.putInt ["r1:StoredHeight"] video.storedHeight.toNat
    |>.put ["r1:ImageAspectRatio"] (ratioStr video.imageAspectRatio)
    |>.put ["r1:PictureCompression"] (ulStr video.pictureCompression)
    |>.put ["r1:FrameLayout"] "FullFrame"
    |>.put ["r1:ColorPrimaries"] (ulStr video.colorPrimaries)
    |>.put ["r1:CodingEquations"] (ulStr video.codingEquations)
    |>.put ["r1:TransferCharacteristic"] (ulStr video.transferCharacteristic)

namespace EssenceDescriptorData

def base : EssenceDescriptorData → MXFEssenceDescriptorBase
  | .wave descriptor => descriptor.base
  | .rgba video _ _ _ => video.base
  | .cdci video _ _ _ _ _ => video.base

def getTypeAsString : EssenceDescriptorData → String
  | .wave _ => "WAVEPCMDescriptor"
  | .rgba _ _ _ _ => "RGBADescriptor"
  | .cdci _ _ _ _ _ _ => "CDCIDescriptor"

def write (pt : PTree) : EssenceDescriptorData → PTree
  | .wave descriptor =>
      descriptor.base.write pt
        |>.put ["r1:AudioSampleRate"] (ratioStr descriptor.audioSampleRate)
        |>.putInt ["r1:ChannelCount"] descriptor.channelCount.toNat
        |>.putInt ["r1:QuantizationBits"] descriptor.quantizationBits.toNat
        |>.put ["r1:Locked"] (if descriptor.locked != 0 then "True" else "False")
        |>.put ["r1:SoundCompression"] (ulStr descriptor.soundCompression)
        |>.putInt ["r1:BlockAlign"] descriptor.blockAlign.toNat
        |>.putInt ["r1:AverageBytesPerSecond"] descriptor.averageBytesPerSecond.toNat
        |>.put ["r1:ChannelAssignment"] (ulStr descriptor.channelAssignment)
  | .rgba video componentMaxRef componentMinRef pixelLayout =>
      writePixelLayout pixelLayout (video.write pt
        |>.putInt ["r1:ComponentMinRef"] componentMinRef.toNat
        |>.putInt ["r1:ComponentMaxRef"] componentMaxRef.toNat)
  | .cdci video horizontalSubsampling verticalSubsampling componentDepth whiteRefLevel
      blackRefLevel =>
      video.write pt
        |>.putInt ["r1:ComponentDepth"] componentDepth.toNat
        |>.putInt ["r1:HorizontalSubsampling"] horizontalSubsampling.toNat
        |>.putInt ["r1:VerticalSubsampling"] verticalSubsampling.toNat
        |>.putInt ["r1:WhiteRefLevel"] whiteRefLevel.toNat
        |>.putInt ["r1:BlackRefLevel"] blackRefLevel.toNat
        |>.put ["r1:FieldDominance"] "UnspecifiedField"

end EssenceDescriptorData

namespace IMFEssenceDescriptor

def writeSubDescriptors (subDescs : PTree) : List SubDescriptor → Except Exn PTree
  | [] => .ok subDescs
  | descriptor :: rest => do
      let subDesc ← descriptor.write .empty
      writeSubDescriptors (subDescs.addChild ("r0:" ++ descriptor.getTypeAsString) subDesc) rest

def write (descriptor : IMFEssenceDescriptor) (ptParent : PTree) : Except Exn PTree := do
  let data := descriptor.essenceDescriptor
  let essenceRoot := data.write .empty
  let subDescs ← writeSubDescriptors .empty data.base.subDescriptors
  let essenceRoot :=
    if data.base.subDescriptors.isEmpty then essenceRoot
    else essenceRoot.addChild "r1:SubDescriptors" subDescs
  let pt := PTree.empty
    |>.put ["Id"] (uuidStr descriptor.uuid)
    |>.addChild ("r0:" ++ data.getTypeAsString) essenceRoot
  pure (ptParent.addChild "EssenceDescriptor" pt)

end IMFEssenceDescriptor

/-- Component sizings are the only texts of a descriptor that are parsed. -/
theorem componentSizings_eq_error {text : List Char} {error : Exn}
    (failed : componentSizings text = .error error) : error = .badLexicalCast := by
  induction text using componentSizings.induct with
  | case1 a b c d e f rest long ih =>
      rw [componentSizings, if_pos long] at failed
      rcases bind_eq_error.mp failed with first | ⟨yrSiz, -, failed⟩
      · exact lexicalCast_eq_error first
      rcases bind_eq_error.mp failed with second | ⟨xrSiz, -, failed⟩
      · exact lexicalCast_eq_error second
      rcases bind_eq_error.mp failed with third | ⟨ssiz, -, failed⟩
      · exact lexicalCast_eq_error third
      rcases bind_eq_error.mp failed with others | ⟨others, -, last⟩
      · exact ih others
      · cases last
  | case2 a b c d e f rest short =>
      rw [componentSizings, if_neg short] at failed
      cases failed
  | case3 text short =>
      unfold componentSizings at failed
      split at failed
      · exact absurd rfl (short _ _ _ _ _ _ _)
      · cases failed

namespace SubDescriptor

theorem write_eq_error {descriptor : SubDescriptor} {pt : PTree} {error : Exn}
    (failed : descriptor.write pt = .error error) : error = .badLexicalCast := by
  cases descriptor with
  | jpeg2000 descriptor =>
      rcases bind_eq_error.mp failed with sizing | ⟨written, -, last⟩
      · rcases bind_eq_error.mp sizing with components | ⟨components, -, last⟩
        · exact componentSizings_eq_error components
        · cases last
      · cases last
  | audioChannelLabel label soundfieldGroupLinkId mcaChannelId => cases failed
  | soundfieldGroupLabel label => cases failed

end SubDescriptor

namespace IMFEssenceDescriptor

theorem writeSubDescriptors_eq_error {descriptors : List SubDescriptor} {subDescs : PTree}
    {error : Exn} (failed : writeSubDescriptors subDescs descriptors = .error error) :
    error = .badLexicalCast := by
  induction descriptors generalizing subDescs with
  | nil => cases failed
  | cons descriptor rest ih =>
      rcases bind_eq_error.mp failed with atHead | ⟨subDesc, -, later⟩
      · exact SubDescriptor.write_eq_error atHead
      · exact ih later

theorem write_eq_error {descriptor : IMFEssenceDescriptor} {pt : PTree} {error : Exn}
    (failed : descriptor.write pt = .error error) : error = .badLexicalCast := by
  rcases bind_eq_error.mp failed with subDescs | ⟨subDescs, -, last⟩
  · exact writeSubDescriptors_eq_error subDescs
  · cases last

end IMFEssenceDescriptor

end Imflib.Package
