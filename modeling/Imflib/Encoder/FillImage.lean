import Imflib.Encoder.PixelFormat

/-! A converted frame on its way into the buffers of the JPEG 2000 encoder:
`InputStreamDecoder::HandleVideoFrame`, `J2KEncoder::FillImagePacked` and
`J2KEncoder::FillImagePlanar`. -/

namespace Imflib.Encoder

def INT_MAX : Int := 2 ^ 31 - 1

structure RationalNumber where
  num : Int
  denum : Int
  deriving DecidableEq, Repr

inductive BitRate where
  | br8bit
  | br10bit
  | br12bit
  deriving DecidableEq, Repr

def BitRate.bits : BitRate → Nat
  | br8bit => 8
  | br10bit => 10
  | br12bit => 12

inductive EncoderError where
  | runtimeError (message : String)
  | intOverflow
  deriving DecidableEq, Repr

structure J2KEncoder where
  targetBitDepth : BitRate
  profile : Int
  useTiles : Bool
  fps : RationalNumber
  widthUsed : Int
  heightUsed : Int
  subsampledChroma : Bool

structure EncoderOptions where
  profile : Int
  bitsPerComponent : BitRate
  colorFormat : ColorFormat
  useTiles : Bool

/-- The encoder that `main` creates. -/
def EncoderOptions.j2kEncoder (options : EncoderOptions) (editRate : RationalNumber)
    (videoWidth videoHeight : Int) : J2KEncoder where
  targetBitDepth := options.bitsPerComponent
  profile := options.profile
  useTiles := options.useTiles
  fps := editRate
  widthUsed := videoWidth
  heightUsed := videoHeight
  subsampledChroma := options.colorFormat = .yuv422

/-- `opj_image_cmptparm_t` -/
structure ComponentParameter where
  prec : Nat
  bpp : Nat
  sgnd : Nat
  dx : Nat
  dy : Nat
  w : Nat
  h : Nat
  deriving DecidableEq, Repr

/-- The samples of the components, R, G, B or Y, U, V: `opj_image_t`. -/
abbrev Image := Fin 3 → List Nat

/-- `opj_image_create`. The buffers are cleared, and as large as the whole picture. -/
def opjImageCreate (componentParameter : Fin 3 → ComponentParameter) : Image :=
  fun c => List.replicate ((componentParameter c).w * (componentParameter c).h) 0

def Image.store (image : Image) (c : Fin 3) (index value : Nat) : Option Image :=
  (storeAt (image c) index value).map (Function.update image c)

/-- The picture in a `RawVideoFrame`. -/
structure RawPicture where
  videoData : Fin 4 → List UInt8
  linesize : Fin 4 → Nat
  pixelFormat : PixelFormat
  width : Nat
  height : Nat
  planar : Bool
  yuv : Bool
  subsampled : Bool

/-- `InputStreamDecoder::HandleVideoFrame` up to its callback. -/
def rawPicture (targetVideoPixelFormat : PixelFormat) (width height : Nat)
    (pic : AVPicture) : Option RawPicture := do
  let plane (i : Fin 4) :=
    forRange (pic.linesize i * height)
      (fun j videoData => (pic.data i)[j]?.map fun byte => videoData ++ [byte]) []
  let plane0 ← plane 0
  let plane1 ← plane 1
  let plane2 ← plane 2
  let plane3 ← plane 3
  some {
    videoData := ![plane0, plane1, plane2, plane3]
    linesize := pic.linesize
    pixelFormat := targetVideoPixelFormat
    width
    height
    planar := targetVideoPixelFormat ≠ .rgb24
    yuv := targetVideoPixelFormat ≠ .rgb24 ∧ targetVideoPixelFormat ≠ .gbrp10 ∧
      targetVideoPixelFormat ≠ .gbrp12
    subsampled := targetVideoPixelFormat = .yuv422p ∨ targetVideoPixelFormat = .yuv422p10 ∨
      targetVideoPixelFormat = .yuv422p12 }

namespace J2KEncoder

variable (encoder : J2KEncoder)

/-- `SetBroadcastProfile`: the subsampling it chooses, and the profiles it does not take. -/
def setBroadcastProfile : Except EncoderError (Nat × Nat) :=
  let subsampling := if encoder.subsampledChroma then (2, 1) else (1, 1)
  if 1 ≤ encoder.profile ∧ encoder.profile ≤ 5 then
    if encoder.useTiles then
      .error (.runtimeError "[J2K] single tile broadcast profile cant be used with tiles")
    else .ok subsampling
  else if encoder.profile = 6 ∨ encoder.profile = 7 then .ok subsampling
  else .error (.runtimeError "undefined broadcast profile")

/-- `InitEncoder`. The frame size that it computes for `SetRates` has to be an `int`. -/
def initEncoder : Except EncoderError (Fin 3 → ComponentParameter) :=
  if encoder.widthUsed ≤ 0 ∨ encoder.heightUsed ≤ 0 then
    .error (.runtimeError "[J2K] Width or Height must be bigger than 0")
  else if encoder.fps.num = 0 then .error (.runtimeError "[J2K] Invalid framerate")
  else do
    let (subsamplingDx, subsamplingDy) ← encoder.setBroadcastProfile
    if INT_MAX < 3 * encoder.widthUsed * encoder.heightUsed * encoder.targetBitDepth.bits then
      .error .intOverflow
    else
      .ok fun i => {
        prec := encoder.targetBitDepth.bits
        bpp := encoder.targetBitDepth.bits
        sgnd := 0
        dx := if i = 0 then 1 else subsamplingDx
        dy := if i = 0 then 1 else subsamplingDy
        w := encoder.widthUsed.toNat
        h := encoder.heightUsed.toNat }

/-- One pass of the inner loop of `FillImagePacked`, with `jpegIndex` beside the image. -/
def fillPixel (dataPtr : List UInt8) (y x : Nat) (state : Image × Nat) : Option (Image × Nat) :=
  let width := encoder.widthUsed.toNat
  if encoder.targetBitDepth = .br8bit then do
    let rgbIndex := x * 3
    let c1 ← dataPtr[y * 3 * width + (rgbIndex + 0)]?
    let c2 ← dataPtr[y * 3 * width + (rgbIndex + 1)]?
    let c3 ← dataPtr[y * 3 * width + (rgbIndex + 2)]?
    let image ← state.1.store 0 state.2 c1.toNat
    let image ← image.store 1 state.2 c2.toNat
    let image ← image.store 2 state.2 c3.toNat
    some (image, state.2 + 1)
  else some state

def fillImagePacked (image : Image) (rawFrame : RawPicture) : Option Image :=
  (forRange encoder.heightUsed.toNat (fun y =>
    forRange encoder.widthUsed.toNat (encoder.fillPixel (rawFrame.videoData 0) y))
      (image, 0)).map (·.1)

/-- The plane of each component. Planes of RGB are stored in the order G, B, R. -/
def bgrTable (rawFrame : RawPicture) : Fin 3 → Fin 4 :=
  if rawFrame.yuv then ![0, 1, 2] else ![2, 0, 1]

def loopWidth (i : Fin 3) : Nat :=
  if 0 < i ∧ encoder.subsampledChroma then encoder.widthUsed.toNat / 2
  else encoder.widthUsed.toNat

/-- The sample that `FillImagePlanar` reads at a place of a plane. -/
def planarSample (dataPtr : List UInt8) (w y x : Nat) : Option Nat :=
  if encoder.targetBitDepth = .br8bit then dataPtr[y * w + x]?.map UInt8.toNat
  else do
    let rgbIndex := x * 2
    let c1 ← dataPtr[y * 2 * w + (rgbIndex + 0)]?
    let c2 ← dataPtr[y * 2 * w + (rgbIndex + 1)]?
    some (c2.toNat * 256 + c1.toNat)

/-- One pass of the outer loop of `FillImagePlanar`. -/
def fillComponent (rawFrame : RawPicture) (i : Fin 3) (image : Image) : Option Image :=
  let dataPtr := rawFrame.videoData (bgrTable rawFrame i)
  let w := encoder.loopWidth i
  (forRange encoder.heightUsed.toNat (fun y => forRange w fun x state => do
    let value ← encoder.planarSample dataPtr w y x
    let image ← state.1.store i state.2 value
    some (image, state.2 + 1)) (image, 0)).map (·.1)

def fillImagePlanar (image : Image) (rawFrame : RawPicture) : Option Image := do
  let image ← encoder.fillComponent rawFrame 0 image
  let image ← encoder.fillComponent rawFrame 1 image
  encoder.fillComponent rawFrame 2 image

/-- `EncodeRawFrame` up to the call of the codec. -/
def filledImage (componentParameter : Fin 3 → ComponentParameter) (rawFrame : RawPicture) :
    Option Image :=
  let image := opjImageCreate componentParameter
  if rawFrame.planar then encoder.fillImagePlanar image rawFrame
  else encoder.fillImagePacked image rawFrame

end J2KEncoder

end Imflib.Encoder
