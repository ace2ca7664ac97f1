import Imflib.Encoder.FillImage
import Mathlib.Tactic.Ring
import Mathlib.Tactic.Positivity
import Mathlib.Algebra.Order.Ring.Int

/-! Where the samples of a converted picture are in the buffers that the encoder reads. -/

namespace Imflib.Encoder

def formatOf : BitRate → ColorFormat → PixelFormat
  | .br8bit, .rgb444 => .rgb24
  | .br8bit, .yuv444 => .yuv444p
  | .br8bit, .yuv422 => .yuv422p
  | .br10bit, .rgb444 => .gbrp10
  | .br10bit, .yuv444 => .yuv444p10
  | .br10bit, .yuv422 => .yuv422p10
  | .br12bit, .rgb444 => .gbrp12
  | .br12bit, .yuv444 => .yuv444p12
  | .br12bit, .yuv422 => .yuv422p12

theorem targetVideoPixelFormat_bits (depth : BitRate) (color : ColorFormat) :
    targetVideoPixelFormat depth.bits color = .ok (formatOf depth color) := by
  cases depth <;> cases color <;> rfl

section Source

variable {format : PixelFormat} {width height : Nat} (picture : Converted format width height)

def componentSource (c : Fin 3) (k : Nat) : Nat :=
  let comp := format.comp c
  (sampleAt (8 < comp.depthMinus1 + 1) (picture.data comp.plane)
    (k * (comp.stepMinus1 + 1) + (comp.offsetPlus1 - 1))).getD 0

theorem sample_fits (format : PixelFormat) (c : Fin 3) :
    (format.comp c).offsetPlus1 - 1 + (decide (8 < (format.comp c).depthMinus1 + 1)).toNat <
      (format.comp c).stepMinus1 + 1 := by
  cases format <;> fin_cases c <;> decide

theorem length_plane (c : Fin 3) :
    (picture.data (format.comp c).plane).length =
      height * format.rowLength width c * ((format.comp c).stepMinus1 + 1) := by
  rw [picture.allocated, picture.unpadded, format.lineSize_comp]
  ring

theorem sampleAt_eq_source (c : Fin 3) {k : Nat} (bound : k < height * format.rowLength width c) :
    sampleAt (8 < (format.comp c).depthMinus1 + 1) (picture.data (format.comp c).plane)
      (k * ((format.comp c).stepMinus1 + 1) + ((format.comp c).offsetPlus1 - 1)) =
        some (componentSource picture c k) := by
  have inside : k * ((format.comp c).stepMinus1 + 1) + ((format.comp c).offsetPlus1 - 1) +
      (decide (8 < (format.comp c).depthMinus1 + 1)).toNat <
        (picture.data (format.comp c).plane).length := by
    rw [length_plane]
    calc _ < k * ((format.comp c).stepMinus1 + 1) + ((format.comp c).stepMinus1 + 1) := by
          have fits := sample_fits format c
          omega
      _ = (k + 1) * ((format.comp c).stepMinus1 + 1) := (Nat.succ_mul _ _).symm
      _ ≤ _ := Nat.mul_le_mul_right _ bound
  obtain ⟨value, found⟩ := Option.isSome_iff_exists.mp (sampleAt_isSome inside)
  rw [componentSource, found, Option.getD_some]

theorem sample_eq_source (c : Fin 3) {y x : Nat} (row : y < height)
    (column : x < format.rowLength width c) :
    picture.sample format c y x =
      some (componentSource picture c (y * format.rowLength width c + x)) := by
  rw [← sampleAt_eq_source picture c (index_lt row column)]
  have offset : 0 < (format.comp c).offsetPlus1 := by cases format <;> fin_cases c <;> decide
  simp only [AVPicture.sample, picture.unpadded, format.lineSize_comp, Nat.add_sub_assoc offset]
  congr 1
  ring

end Source

theorem rawPicture_eq {format : PixelFormat} {width height : Nat}
    (picture : Converted format width height) :
    ∃ frame, rawPicture format width height picture.toAVPicture = some frame ∧
      frame.videoData = picture.data ∧ frame.planar = decide (format ≠ .rgb24) ∧
      frame.yuv = decide (format ≠ .rgb24 ∧ format ≠ .gbrp10 ∧ format ≠ .gbrp12) := by
  have plane (i : Fin 4) : forRange (picture.linesize i * height)
      (fun j videoData => (picture.data i)[j]?.map fun byte => videoData ++ [byte]) [] =
        some (picture.data i) := by
    rw [← picture.allocated i, forRange_copy _ (Nat.le_refl _), List.take_length]
  refine ⟨_, by simp only [rawPicture, plane]; rfl, ?_, rfl, rfl⟩
  funext i
  fin_cases i <;> rfl

theorem Image.store_filled (image : Image) (c : Fin 3) (source : Nat → Nat) {size k : Nat}
    (bound : k < size) :
    Image.store (Function.update image c (filled source 0 size k)) c k (source k) =
      some (Function.update image c (filled source 0 size (k + 1))) := by
  simp only [Image.store, Function.update_self, storeAt_filled source 0 bound, Option.map_some,
    Function.update_idem]

namespace J2KEncoder

variable (encoder : J2KEncoder)

theorem planarSample_eq (plane : List UInt8) (w y x : Nat) :
    encoder.planarSample plane w y x =
      sampleAt (encoder.targetBitDepth ≠ .br8bit) plane
        ((y * w + x) * if encoder.targetBitDepth = .br8bit then 1 else 2) := by
  by_cases narrow : encoder.targetBitDepth = .br8bit
  · simp [planarSample, sampleAt, narrow]
  · have low : y * 2 * w + x * 2 = (y * w + x) * 2 := by ring
    have high : y * 2 * w + (x * 2 + 1) = (y * w + x) * 2 + 1 := by ring
    simp [planarSample, sampleAt, narrow, low, high]

theorem fillComponent_eq (frame : RawPicture) (i : Fin 3) (image : Image) {size : Nat}
    (source : Nat → Nat) (cleared : image i = List.replicate size 0)
    (room : encoder.heightUsed.toNat * encoder.loopWidth i ≤ size)
    (read : ∀ k < encoder.heightUsed.toNat * encoder.loopWidth i,
      sampleAt (encoder.targetBitDepth ≠ .br8bit) (frame.videoData (bgrTable frame i))
        (k * if encoder.targetBitDepth = .br8bit then 1 else 2) = some (source k)) :
    encoder.fillComponent frame i image = some (Function.update image i
      (filled source 0 size (encoder.heightUsed.toNat * encoder.loopWidth i))) := by
  let states (k : Nat) : Image × Nat := (Function.update image i (filled source 0 size k), k)
  have start : states 0 = (image, 0) := by
    simp only [states, filled_zero, ← cleared, Function.update_eq_self]
  simp only [fillComponent]
  rw [← start, forRows_eq states, Option.map_some]
  intro y row x column
  have bound := index_lt row column
  have stored := Image.store_filled image i source (Nat.lt_of_lt_of_le bound room)
  simp only [states, planarSample_eq, read _ bound, Option.bind_eq_bind, Option.bind_some, stored]

theorem fillPixel_eq (narrow : encoder.targetBitDepth = .br8bit) (plane : List UInt8)
    (source : Fin 3 → Nat → Nat) {size y x : Nat}
    (bound : y * encoder.widthUsed.toNat + x < size)
    (read : ∀ c : Fin 3, sampleAt false plane ((y * encoder.widthUsed.toNat + x) * 3 + c) =
      some (source c (y * encoder.widthUsed.toNat + x))) :
    encoder.fillPixel plane y x
        (fun c => filled (source c) 0 size (y * encoder.widthUsed.toNat + x),
          y * encoder.widthUsed.toNat + x) =
      some (fun c => filled (source c) 0 size (y * encoder.widthUsed.toNat + x + 1),
        y * encoder.widthUsed.toNat + x + 1) := by
  have byte (c : Fin 3) : ∃ byte,
      plane[y * 3 * encoder.widthUsed.toNat + (x * 3 + c)]? = some byte ∧
        byte.toNat = source c (y * encoder.widthUsed.toNat + x) := by
    have position : (y * encoder.widthUsed.toNat + x) * 3 + (c : Nat) =
        y * 3 * encoder.widthUsed.toNat + (x * 3 + c) := by ring
    have sample := read c
    rw [position] at sample
    simpa [sampleAt] using sample
  obtain ⟨c1, found1, value1⟩ := byte 0
  obtain ⟨c2, found2, value2⟩ := byte 1
  obtain ⟨c3, found3, value3⟩ := byte 2
  have stored (c : Fin 3) := storeAt_filled (source c) 0 bound
  simp only [Fin.val_zero, Fin.val_one, Fin.val_two] at found1 found2 found3
  simp only [fillPixel, narrow, if_true, found1, found2, found3, value1, value2, value3,
    Option.bind_eq_bind, Option.bind_some, Image.store, Function.update_of_ne, ne_eq, stored,
    Option.map_some, not_false_eq_true, Fin.reduceEq]
  congr 2
  funext c
  fin_cases c <;> rfl

theorem fillImagePacked_eq (narrow : encoder.targetBitDepth = .br8bit) (frame : RawPicture)
    (image : Image) (source : Fin 3 → Nat → Nat) {size : Nat}
    (cleared : image = fun _ => List.replicate size 0)
    (room : encoder.heightUsed.toNat * encoder.widthUsed.toNat ≤ size)
    (read : ∀ c : Fin 3, ∀ k < encoder.heightUsed.toNat * encoder.widthUsed.toNat,
      sampleAt false (frame.videoData 0) (k * 3 + c) = some (source c k)) :
    encoder.fillImagePacked image frame = some fun c =>
      filled (source c) 0 size (encoder.heightUsed.toNat * encoder.widthUsed.toNat) := by
  let states (k : Nat) : Image × Nat := (fun c => filled (source c) 0 size k, k)
  have start : states 0 = (image, 0) := by
    simp only [states, filled_zero, cleared]
  simp only [fillImagePacked]
  rw [← start, forRows_eq states, Option.map_some]
  intro y row x column
  have bound := index_lt row column
  exact encoder.fillPixel_eq narrow _ source (Nat.lt_of_lt_of_le bound room)
    fun c => read c _ bound

theorem fillImagePlanar_eq (frame : RawPicture) (image : Image) (source : Fin 3 → Nat → Nat)
    {size : Nat} (cleared : image = fun _ => List.replicate size 0)
    (room : ∀ c, encoder.heightUsed.toNat * encoder.loopWidth c ≤ size)
    (read : ∀ c, ∀ k < encoder.heightUsed.toNat * encoder.loopWidth c,
      sampleAt (encoder.targetBitDepth ≠ .br8bit) (frame.videoData (bgrTable frame c))
        (k * if encoder.targetBitDepth = .br8bit then 1 else 2) = some (source c k)) :
    encoder.fillImagePlanar image frame = some fun c =>
      filled (source c) 0 size (encoder.heightUsed.toNat * encoder.loopWidth c) := by
  have component (c : Fin 3) (image : Image) (cleared : image c = List.replicate size 0) :=
    encoder.fillComponent_eq frame c image (source c) cleared (room c) (read c)
  unfold fillImagePlanar
  rw [component 0 image (by rw [cleared])]
  simp only [Option.bind_eq_bind, Option.bind_some]
  rw [component 1 _ (by simp [cleared])]
  simp only [Option.bind_some]
  rw [component 2 _ (by simp [cleared])]
  congr 1
  funext c
  fin_cases c <;> rfl

end J2KEncoder

theorem comp_planar (depth : BitRate) (color : ColorFormat) (c : Fin 3)
    (planar : formatOf depth color ≠ .rgb24) :
    (formatOf depth color).comp c =
      { plane := if color = .rgb444 then ![2, 0, 1] c else ![0, 1, 2] c
        stepMinus1 := if depth = .br8bit then 0 else 1
        offsetPlus1 := 1
        depthMinus1 := depth.bits - 1 } := by
  cases depth <;> cases color <;> first | contradiction | (fin_cases c <;> rfl)

theorem comp_packed {format : PixelFormat} (packed : format = .rgb24) (c : Fin 3) :
    format.comp c = { plane := 0, stepMinus1 := 2, offsetPlus1 := c + 1, depthMinus1 := 7 } := by
  rw [packed]
  fin_cases c <;> rfl

theorem formatOf_eq_rgb24 (depth : BitRate) (color : ColorFormat) :
    formatOf depth color = .rgb24 ↔ depth = .br8bit ∧ color = .rgb444 := by
  cases depth <;> cases color <;> decide

theorem yuv_formatOf (depth : BitRate) (color : ColorFormat) :
    decide (formatOf depth color ≠ .rgb24 ∧ formatOf depth color ≠ .gbrp10 ∧
      formatOf depth color ≠ .gbrp12) = decide (color ≠ .rgb444) := by
  cases depth <;> cases color <;> decide

theorem setBroadcastProfile_ok {encoder : J2KEncoder} {subsampling : Nat × Nat}
    (chosen : encoder.setBroadcastProfile = .ok subsampling) :
    subsampling = if encoder.subsampledChroma then (2, 1) else (1, 1) := by
  unfold J2KEncoder.setBroadcastProfile at chosen
  split_ifs at chosen <;> simp_all

theorem bgrTable_eq {frame : RawPicture} {color : ColorFormat}
    (yuv : frame.yuv = decide (color ≠ .rgb444)) (c : Fin 3) :
    J2KEncoder.bgrTable frame c = if color = .rgb444 then ![2, 0, 1] c else ![0, 1, 2] c := by
  rw [J2KEncoder.bgrTable, yuv]
  cases color <;> fin_cases c <;> rfl

theorem initEncoder_ok {encoder : J2KEncoder} {params : Fin 3 → ComponentParameter}
    (accepted : encoder.initEncoder = .ok params) :
    0 < encoder.widthUsed ∧ 0 < encoder.heightUsed ∧
      3 * encoder.widthUsed * encoder.heightUsed * encoder.targetBitDepth.bits ≤ INT_MAX ∧
      ∀ c, (params c).dx = (if c = 0 then 1 else if encoder.subsampledChroma then 2 else 1) ∧
        (params c).w = encoder.widthUsed.toNat ∧ (params c).h = encoder.heightUsed.toNat := by
  simp only [J2KEncoder.initEncoder] at accepted
  split at accepted
  · contradiction
  rename_i size
  push Not at size
  split at accepted
  · contradiction
  cases profile : encoder.setBroadcastProfile with
  | error => simp [profile, bind, Except.bind] at accepted
  | ok subsampling =>
      have sampling := setBroadcastProfile_ok profile
      simp only [profile, bind, Except.bind] at accepted
      split at accepted
      · contradiction
      · rename_i fits
        refine ⟨size.1, size.2, not_lt.mp fits, fun c => ?_⟩
        have value := congrFun (Except.ok.inj accepted) c
        rw [← value, sampling]
        cases encoder.subsampledChroma <;> simp

/-- The products that the loops compute with `int` are in its range. -/
theorem accepted_fits {encoder : J2KEncoder} {params : Fin 3 → ComponentParameter}
    (accepted : encoder.initEncoder = .ok params) :
    ((3 * (encoder.heightUsed.toNat * encoder.widthUsed.toNat) : Nat) : Int) ≤ INT_MAX := by
  obtain ⟨width, height, fits, -⟩ := initEncoder_ok accepted
  have depth : 1 ≤ encoder.targetBitDepth.bits := by cases encoder.targetBitDepth <;> decide
  have size : 0 ≤ 3 * encoder.widthUsed * encoder.heightUsed := by positivity
  push_cast
  rw [Int.toNat_of_nonneg width.le, Int.toNat_of_nonneg height.le]
  calc 3 * (encoder.heightUsed * encoder.widthUsed)
      = 3 * encoder.widthUsed * encoder.heightUsed := by ring
    _ ≤ 3 * encoder.widthUsed * encoder.heightUsed * encoder.targetBitDepth.bits :=
        le_mul_of_one_le_right size (by exact_mod_cast depth)
    _ ≤ INT_MAX := fits

def chromaDx (color : ColorFormat) (c : Fin 3) : Nat :=
  if color = .yuv422 ∧ c ≠ 0 then 2 else 1

theorem rowLength_formatOf (depth : BitRate) (color : ColorFormat) (width : Nat) (c : Fin 3) :
    (formatOf depth color).rowLength width c =
      (width + chromaDx color c - 1) / chromaDx color c := by
  have dx : (formatOf depth color).subsampling c = chromaDx color c := by
    cases depth <;> cases color <;> fin_cases c <;> rfl
  rw [PixelFormat.rowLength, dx]

section Filled

variable (options : EncoderOptions) (editRate : RationalNumber) {videoWidth videoHeight : Int}

theorem loopWidth_j2kEncoder (c : Fin 3) :
    (options.j2kEncoder editRate videoWidth videoHeight).loopWidth c =
      videoWidth.toNat / chromaDx options.colorFormat c := by
  by_cases chroma : options.colorFormat = .yuv422 ∧ c ≠ 0
  · have later : 0 < c := Fin.pos_iff_ne_zero.mpr chroma.2
    simp [J2KEncoder.loopWidth, EncoderOptions.j2kEncoder, chromaDx, chroma, later]
  · have whole : ¬(0 < c ∧ options.colorFormat = .yuv422) := by
      intro both
      exact chroma ⟨both.2, Fin.pos_iff_ne_zero.mp both.1⟩
    simp [J2KEncoder.loopWidth, EncoderOptions.j2kEncoder, chromaDx, chroma, whole]

theorem loopWidth_le (c : Fin 3) :
    (options.j2kEncoder editRate videoWidth videoHeight).loopWidth c ≤
      (formatOf options.bitsPerComponent options.colorFormat).rowLength videoWidth.toNat c := by
  rw [loopWidth_j2kEncoder, rowLength_formatOf]
  apply Nat.div_le_div_right
  have positive : 0 < chromaDx options.colorFormat c := by unfold chromaDx; split <;> decide
  omega

/-- Every buffer is filled from the samples of its component, in their order. -/
theorem filledImage_eq {params : Fin 3 → ComponentParameter}
    (accepted : (options.j2kEncoder editRate videoWidth videoHeight).initEncoder = .ok params)
    (picture : Converted (formatOf options.bitsPerComponent options.colorFormat)
      videoWidth.toNat videoHeight.toNat) :
    ∃ frame, rawPicture (formatOf options.bitsPerComponent options.colorFormat)
        videoWidth.toNat videoHeight.toNat picture.toAVPicture = some frame ∧
      (options.j2kEncoder editRate videoWidth videoHeight).filledImage params frame = some fun c =>
        filled (componentSource picture c) 0 (videoWidth.toNat * videoHeight.toNat)
          (videoHeight.toNat *
            (options.j2kEncoder editRate videoWidth videoHeight).loopWidth c) := by
  obtain ⟨frame, copied, data, planar, yuv⟩ := rawPicture_eq picture
  obtain ⟨-, -, -, created⟩ := initEncoder_ok accepted
  have cleared : opjImageCreate params =
      fun _ => List.replicate (videoWidth.toNat * videoHeight.toNat) 0 := by
    funext c
    rw [opjImageCreate, (created c).2.1, (created c).2.2]
    rfl
  have read (c : Fin 3) {k : Nat} (bound : k < videoHeight.toNat *
      (options.j2kEncoder editRate videoWidth videoHeight).loopWidth c) :=
    sampleAt_eq_source picture c
      (Nat.lt_of_lt_of_le bound (Nat.mul_le_mul_left _ (loopWidth_le options editRate c)))
  refine ⟨frame, copied, ?_⟩
  by_cases packed : formatOf options.bitsPerComponent options.colorFormat = .rgb24
  · have isPacked : frame.planar = false := by simp [planar, packed]
    obtain ⟨depth, color⟩ := (formatOf_eq_rgb24 _ _).mp packed
    have row (c : Fin 3) : (options.j2kEncoder editRate videoWidth videoHeight).loopWidth c =
        videoWidth.toNat := by
      simp [loopWidth_j2kEncoder, chromaDx, color]
    simp only [row] at read ⊢
    rw [J2KEncoder.filledImage, isPacked, if_neg Bool.false_ne_true]
    apply J2KEncoder.fillImagePacked_eq _ depth _ _ _ cleared
    · exact (Nat.mul_comm _ _).le
    · intro c k bound
      have sample := read c bound
      rw [comp_packed packed] at sample
      simpa [data] using sample
  · have isPlanar : frame.planar = true := by simp [planar, packed]
    rw [J2KEncoder.filledImage, isPlanar, if_pos rfl]
    apply J2KEncoder.fillImagePlanar_eq _ _ _ _ cleared
    · intro c
      rw [loopWidth_j2kEncoder, Nat.mul_comm]
      exact Nat.mul_le_mul_right _ (Nat.div_le_self _ _)
    · intro c k bound
      have sample := read c bound
      rw [comp_planar _ _ c packed] at sample
      have wide : decide (8 < options.bitsPerComponent.bits - 1 + 1) =
          decide (options.bitsPerComponent ≠ .br8bit) := by
        cases options.bitsPerComponent <;> decide
      have step : (if options.bitsPerComponent = .br8bit then 0 else 1) + 1 =
          if options.bitsPerComponent = .br8bit then 1 else 2 := by
        split <;> rfl
      have plane := bgrTable_eq (yuv.trans (yuv_formatOf _ _)) c
      rw [← plane, ← data] at sample
      simp only [wide, step, Nat.sub_self, Nat.add_zero] at sample
      exact sample

end Filled

def openJpegRow (params : Fin 3 → ComponentParameter) (c : Fin 3) : Nat :=
  ((params c).w + (params c).dx - 1) / (params c).dx

/-- Every sample of the converted picture is in its place when the codec is called. -/
def SamplesPlaced (options : EncoderOptions) (editRate : RationalNumber)
    (videoWidth videoHeight : Int) (format : PixelFormat) (params : Fin 3 → ComponentParameter)
    (picture : AVPicture) : Prop :=
  ∃ frame image,
    rawPicture format videoWidth.toNat videoHeight.toNat picture = some frame ∧
    (options.j2kEncoder editRate videoWidth videoHeight).filledImage params frame = some image ∧
    ∀ c, (params c).dx = chromaDx options.colorFormat c ∧
      ∀ y < videoHeight.toNat, ∀ x < openJpegRow params c, ∃ value,
        picture.sample format c y x = some value ∧
          (image c)[y * openJpegRow params c + x]? = some value

/-- The loops leave out the last samples of the chroma components where a row of theirs
is rounded up. What is left out is as it was when the buffers were cleared. -/
def ChromaWhole (color : ColorFormat) (width height : Nat) (format : PixelFormat)
    (picture : AVPicture) : Prop :=
  color = .yuv422 → width % 2 = 1 → ∀ c ≠ 0, ∀ y < height, ∀ x < (width + 1) / 2,
    height * (width / 2) ≤ y * ((width + 1) / 2) + x → picture.sample format c y x = some 0

/-- A row of planes is cut off where it is rounded up. -/
theorem rows_eq_or_odd (color : ColorFormat) (width : Nat) (c : Fin 3) :
    (width + chromaDx color c - 1) / chromaDx color c = width / chromaDx color c ∨
      color = .yuv422 ∧ c ≠ 0 ∧ width % 2 = 1 := by
  by_cases chroma : color = .yuv422 ∧ c ≠ 0
  · have dx : chromaDx color c = 2 := if_pos chroma
    rw [dx]
    by_cases odd : width % 2 = 1
    · exact .inr ⟨chroma.1, chroma.2, odd⟩
    · left
      omega
  · have dx : chromaDx color c = 1 := if_neg chroma
    left
    rw [dx, Nat.add_sub_cancel]

theorem samples_placed_iff (options : EncoderOptions) (editRate : RationalNumber)
    {videoWidth videoHeight : Int} {format : PixelFormat} {params : Fin 3 → ComponentParameter}
    (chosen : targetVideoPixelFormat options.bitsPerComponent.bits options.colorFormat = .ok format)
    (accepted : (options.j2kEncoder editRate videoWidth videoHeight).initEncoder = .ok params)
    (picture : Converted format videoWidth.toNat videoHeight.toNat) :
    SamplesPlaced options editRate videoWidth videoHeight format params picture.toAVPicture ↔
      ChromaWhole options.colorFormat videoWidth.toNat videoHeight.toNat format
        picture.toAVPicture := by
  obtain rfl : formatOf options.bitsPerComponent options.colorFormat = format := by
    rw [targetVideoPixelFormat_bits] at chosen
    exact Except.ok.inj chosen
  obtain ⟨frame, copied, encoded⟩ := filledImage_eq options editRate accepted picture
  obtain ⟨-, -, -, created⟩ := initEncoder_ok accepted
  have dx (c : Fin 3) : (params c).dx = chromaDx options.colorFormat c := by
    rw [(created c).1, EncoderOptions.j2kEncoder, chromaDx]
    by_cases first : c = 0 <;> cases options.colorFormat <;> simp [first]
  have row (c : Fin 3) : openJpegRow params c =
      (formatOf options.bitsPerComponent options.colorFormat).rowLength videoWidth.toNat c := by
    rw [rowLength_formatOf, ← dx, openJpegRow, (created c).2.1]
    rfl
  have chromaRow (c : Fin 3) (color : options.colorFormat = .yuv422) (chroma : c ≠ 0) :
      chromaDx options.colorFormat c = 2 ∧
        openJpegRow params c = (videoWidth.toNat + 1) / 2 := by
    have half : chromaDx options.colorFormat c = 2 := if_pos ⟨color, chroma⟩
    refine ⟨half, ?_⟩
    rw [row, rowLength_formatOf, half]
    rfl
  have stored (c : Fin 3) {y x : Nat} (inside : y < videoHeight.toNat)
      (column : x < openJpegRow params c) :
      (filled (componentSource picture c) 0 (videoWidth.toNat * videoHeight.toNat)
        (videoHeight.toNat * (options.j2kEncoder editRate videoWidth videoHeight).loopWidth c))[
          y * openJpegRow params c + x]? =
        some (if y * openJpegRow params c + x <
            videoHeight.toNat * (videoWidth.toNat / chromaDx options.colorFormat c) then
          componentSource picture c (y * openJpegRow params c + x) else 0) := by
    have bound : y * openJpegRow params c + x < videoWidth.toNat * videoHeight.toNat := by
      calc y * openJpegRow params c + x
          < videoHeight.toNat * openJpegRow params c := index_lt inside column
        _ ≤ videoHeight.toNat * videoWidth.toNat := by
            rw [row]
            exact Nat.mul_le_mul_left _ (PixelFormat.rowLength_le _ _ c)
        _ = videoWidth.toNat * videoHeight.toNat := Nat.mul_comm _ _
    rw [loopWidth_j2kEncoder, getElem?_filled _ _ bound]
  constructor
  · intro placed color odd c chroma y inside x column late
    obtain ⟨frame', image, copied', encoded', places⟩ := placed
    rw [copied] at copied'
    obtain rfl := Option.some.inj copied'
    rw [encoded] at encoded'
    obtain rfl := Option.some.inj encoded'
    obtain ⟨half, length⟩ := chromaRow c color chroma
    rw [← length] at column late
    obtain ⟨value, sample, found⟩ := (places c).2 y inside x column
    rw [stored c inside column, half, if_neg (Nat.not_lt.mpr late)] at found
    rw [sample, ← found]
  · intro whole
    refine ⟨frame, _, copied, encoded, fun c => ⟨dx c, fun y inside x column => ?_⟩⟩
    have sample : picture.sample (formatOf options.bitsPerComponent options.colorFormat) c y x =
        some (componentSource picture c (y * openJpegRow params c + x)) := by
      rw [row] at column ⊢
      exact sample_eq_source picture c inside column
    refine ⟨_, sample, ?_⟩
    rw [stored c inside column]
    split
    · rfl
    · rename_i late
      have cut := rows_eq_or_odd options.colorFormat videoWidth.toNat c
      rw [← rowLength_formatOf options.bitsPerComponent, ← row] at cut
      rcases cut with same | ⟨color, chroma, odd⟩
      · -- Rows of the same length leave nothing out.
        rw [← same] at late
        exact absurd (index_lt inside column) late
      · obtain ⟨half, length⟩ := chromaRow c color chroma
        rw [half] at late
        have blank := whole color odd c chroma y inside x (length ▸ column)
          (length ▸ Nat.not_lt.mp late)
        rw [blank] at sample
        rw [← Option.some.inj sample]

namespace OddWidth

def options : EncoderOptions where
  profile := 1
  bitsPerComponent := .br8bit
  colorFormat := .yuv422
  useTiles := false

def params : Fin 3 → ComponentParameter :=
  ![⟨8, 8, 0, 1, 1, 3, 1⟩, ⟨8, 8, 0, 2, 1, 3, 1⟩, ⟨8, 8, 0, 2, 1, 3, 1⟩]

def picture : Converted .yuv422p 3 1 where
  data := ![[1, 2, 3], [4, 5], [6, 7], []]
  linesize := ![3, 2, 2, 0]
  unpadded := by decide
  allocated := by decide

theorem accepted : (options.j2kEncoder ⟨24, 1⟩ 3 1).initEncoder = .ok params := by
  have init : (options.j2kEncoder ⟨24, 1⟩ 3 1).initEncoder = .ok fun i =>
      ⟨8, 8, 0, if i = 0 then 1 else 2, if i = 0 then 1 else 1, 3, 1⟩ := rfl
  rw [init]
  congr 1
  funext i
  fin_cases i <;> rfl

theorem samples_placed_sample :
    SamplesPlaced options ⟨24, 1⟩ 3 1 .yuv422p params picture.toAVPicture ↔
      ChromaWhole .yuv422 3 1 .yuv422p picture.toAVPicture :=
  samples_placed_iff options ⟨24, 1⟩ rfl accepted picture

/-- The second sample of the second component stays as the buffer was cleared. -/
theorem chroma_cut_off :
    targetVideoPixelFormat options.bitsPerComponent.bits options.colorFormat = .ok .yuv422p ∧
      (options.j2kEncoder ⟨24, 1⟩ 3 1).initEncoder = .ok params ∧
      ¬SamplesPlaced options ⟨24, 1⟩ 3 1 .yuv422p params picture.toAVPicture := by
  refine ⟨rfl, accepted, ?_⟩
  intro placed
  obtain ⟨frame, image, copied, encoded, places⟩ := placed
  obtain ⟨value, sample, found⟩ := (places 1).2 0 (by decide) 1 (by decide)
  have buffer : (rawPicture .yuv422p 3 1 picture.toAVPicture).bind (fun frame =>
      ((options.j2kEncoder ⟨24, 1⟩ 3 1).filledImage params frame).map fun image => image 1) =
        some [4, 0, 0] := by decide
  change rawPicture .yuv422p 3 1 _ = _ at copied
  rw [copied, Option.bind_some, encoded, Option.map_some] at buffer
  rw [Option.some.inj buffer] at found
  have converted : picture.sample .yuv422p 1 0 1 = some 5 := by decide
  rw [converted] at sample
  cases sample
  revert found
  decide

end OddWidth

end Imflib.Encoder
