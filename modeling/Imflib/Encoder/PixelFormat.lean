import Imflib.Base.Raster
import Imflib.Base.Transition
import Mathlib.Algebra.Group.Int.Defs
import Mathlib.Algebra.Group.Nat.Defs
import Mathlib.Data.Fin.VecNotation
import Mathlib.Data.Fintype.Basic
import Mathlib.Tactic.FinCases

/-! The pixel formats that frames are converted to, and how a converted picture lies in
memory. The table is that of `libavutil/pixdesc.c`. -/

namespace Imflib.Encoder

inductive ColorFormat where
  | rgb444
  | yuv444
  | yuv422
  deriving DecidableEq, Repr

inductive PixelFormat where
  | rgb24
  | yuv444p
  | yuv422p
  | gbrp10
  | yuv444p10
  | yuv422p10
  | gbrp12
  | yuv444p12
  | yuv422p12
  deriving DecidableEq, Repr

/-- The pixel format that the constructor of `InputStreamDecoder` chooses. -/
def targetVideoPixelFormat (bitDepth : Int) (targetColorFormat : ColorFormat) :
    Except String PixelFormat :=
  if bitDepth = 8 then
    match targetColorFormat with
    | .rgb444 => .ok .rgb24
    | .yuv444 => .ok .yuv444p
    | .yuv422 => .ok .yuv422p
  else if bitDepth = 10 then
    match targetColorFormat with
    | .rgb444 => .ok .gbrp10
    | .yuv444 => .ok .yuv444p10
    | .yuv422 => .ok .yuv422p10
  else if bitDepth = 12 then
    match targetColorFormat with
    | .rgb444 => .ok .gbrp12
    | .yuv444 => .ok .yuv444p12
    | .yuv422 => .ok .yuv422p12
  else .error "unsupported pixel format"

/-- Where the samples of a component are: `AVComponentDescriptor`. -/
structure ComponentDescriptor where
  plane : Fin 4
  stepMinus1 : Nat
  offsetPlus1 : Nat
  depthMinus1 : Nat
  deriving DecidableEq, Repr

namespace PixelFormat

def comp : PixelFormat → Fin 3 → ComponentDescriptor
  | rgb24 => ![⟨0, 2, 1, 7⟩, ⟨0, 2, 2, 7⟩, ⟨0, 2, 3, 7⟩]
  | yuv444p | yuv422p => ![⟨0, 0, 1, 7⟩, ⟨1, 0, 1, 7⟩, ⟨2, 0, 1, 7⟩]
  | gbrp10 => ![⟨2, 1, 1, 9⟩, ⟨0, 1, 1, 9⟩, ⟨1, 1, 1, 9⟩]
  | yuv444p10 | yuv422p10 => ![⟨0, 1, 1, 9⟩, ⟨1, 1, 1, 9⟩, ⟨2, 1, 1, 9⟩]
  | gbrp12 => ![⟨2, 1, 1, 11⟩, ⟨0, 1, 1, 11⟩, ⟨1, 1, 1, 11⟩]
  | yuv444p12 | yuv422p12 => ![⟨0, 1, 1, 11⟩, ⟨1, 1, 1, 11⟩, ⟨2, 1, 1, 11⟩]

def log2ChromaW : PixelFormat → Nat
  | yuv422p | yuv422p10 | yuv422p12 => 1
  | _ => 0

/-- `av_image_fill_max_pixsteps`: the largest step in a plane, and the component that
has it. -/
def maxPixstep (format : PixelFormat) (plane : Fin 4) : Nat × Fin 3 :=
  (List.finRange 3).foldl
    (fun found c =>
      if (format.comp c).plane = plane ∧ found.1 < (format.comp c).stepMinus1 + 1 then
        ((format.comp c).stepMinus1 + 1, c)
      else found)
    (0, 0)

/-- `av_image_get_linesize` -/
def lineSize (format : PixelFormat) (width : Nat) (plane : Fin 4) : Nat :=
  let (maxStep, maxStepComp) := format.maxPixstep plane
  let s := if maxStepComp = 1 ∨ maxStepComp = 2 then format.log2ChromaW else 0
  maxStep * ((width + 2 ^ s - 1) / 2 ^ s)

end PixelFormat

structure AVPicture where
  data : Fin 4 → List UInt8
  linesize : Fin 4 → Nat

/-- What `avpicture_alloc` allocates and `sws_scale` fills: planes without padding. -/
structure Converted (format : PixelFormat) (width height : Nat) extends AVPicture where
  unpadded : ∀ plane, linesize plane = format.lineSize width plane
  allocated : ∀ plane, (data plane).length = linesize plane * height

/-- A sample in a plane: one byte, or two with the low one first. -/
def sampleAt (wide : Bool) (plane : List UInt8) (position : Nat) : Option Nat :=
  if wide then do
    let low ← plane[position]?
    let high ← plane[position + 1]?
    some (high.toNat * 256 + low.toNat)
  else plane[position]?.map UInt8.toNat

/-- Sample `(y, x)` of a component, found by the format's descriptor. -/
def AVPicture.sample (picture : AVPicture) (format : PixelFormat) (c : Fin 3) (y x : Nat) :
    Option Nat :=
  let comp := format.comp c
  sampleAt (8 < comp.depthMinus1 + 1) (picture.data comp.plane)
    (y * picture.linesize comp.plane + x * (comp.stepMinus1 + 1) + comp.offsetPlus1 - 1)

def PixelFormat.subsampling (format : PixelFormat) (c : Fin 3) : Nat :=
  if c = 0 then 1 else 2 ^ format.log2ChromaW

def PixelFormat.rowLength (format : PixelFormat) (width : Nat) (c : Fin 3) : Nat :=
  (width + format.subsampling c - 1) / format.subsampling c

theorem sampleAt_isSome {wide : Bool} {plane : List UInt8} {position : Nat}
    (inside : position + wide.toNat < plane.length) : (sampleAt wide plane position).isSome := by
  cases wide with
  | false => simpa [sampleAt] using inside
  | true =>
      have low : position < plane.length := Nat.lt_of_succ_lt inside
      have high : position + 1 < plane.length := inside
      simp [sampleAt, List.getElem?_eq_getElem low, List.getElem?_eq_getElem high]

namespace PixelFormat

variable (format : PixelFormat) (width : Nat)

theorem lineSize_comp (c : Fin 3) :
    format.lineSize width (format.comp c).plane =
      ((format.comp c).stepMinus1 + 1) * format.rowLength width c := by
  cases format <;> fin_cases c <;> rfl

theorem rowLength_le (c : Fin 3) : format.rowLength width c ≤ width := by
  have bound : ∀ s, 0 < s → (width + s - 1) / s ≤ width := by
    intro s larger
    rw [Nat.div_le_iff_le_mul_add_pred larger]
    calc width + s - 1 = width + (s - 1) := Nat.add_sub_assoc larger width
      _ ≤ s * width + (s - 1) := Nat.add_le_add_right (Nat.le_mul_of_pos_left width larger) _
  apply bound
  unfold subsampling
  split
  · exact Nat.one_pos
  · exact Nat.two_pow_pos _

end PixelFormat

end Imflib.Encoder
