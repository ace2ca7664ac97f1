import Imflib.Base.CheckedSum
import Imflib.Base.TileGrid
import Imflib.Encoder.FillImage
import Mathlib.Algebra.Order.Ring.Int
import Mathlib.Tactic.Ring

/-! What `J2KEncoder::InitEncoder` derives from the size of the picture: the raw size of a frame
for the rates, and the size of the tiles. -/

namespace Imflib.Encoder

/-- The tile part of `opj_cparameters_t`. -/
structure TileParameters where
  tileSizeOn : Bool
  cpTx0 : Int
  cpTy0 : Int
  cpTdx : Int
  cpTdy : Int
  deriving DecidableEq, Repr

/-- `opj_int_ceildiv`, in the integers -/
def opjIntCeildiv (a b : Int) : Int := (a + b - 1).tdiv b

namespace TileParameters

/-- The columns of tiles that `opj_j2k_setup_encoder` computes, one if there are no tiles. -/
def tw (parameters : TileParameters) (x1 : Int) : Int :=
  if parameters.tileSizeOn then opjIntCeildiv (x1 - parameters.cpTx0) parameters.cpTdx else 1

def th (parameters : TileParameters) (y1 : Int) : Int :=
  if parameters.tileSizeOn then opjIntCeildiv (y1 - parameters.cpTy0) parameters.cpTdy else 1

structure FromOrigin (parameters : TileParameters) : Prop where
  tileSizeOn : parameters.tileSizeOn = true
  cpTx0 : parameters.cpTx0 = 0
  cpTy0 : parameters.cpTy0 = 0
  cpTdx_pos : 0 < parameters.cpTdx
  cpTdy_pos : 0 < parameters.cpTdy

def grid (parameters : TileParameters) (width height : Int) : Finset (Nat × Nat) :=
  tileGrid parameters.cpTdx.toNat parameters.cpTdy.toNat width.toNat height.toNat

theorem opjIntCeildiv_eq {a b : Int} (nonneg : 0 ≤ a) (positive : 0 < b) :
    opjIntCeildiv a b = (a.toNat ⌈/⌉ b.toNat : Nat) := by
  obtain ⟨m, rfl⟩ := Int.eq_ofNat_of_zero_le nonneg
  obtain ⟨n, rfl⟩ := Int.eq_ofNat_of_zero_le positive.le
  have rounded : (m : Int) + n - 1 = (m + n - 1 : Nat) := by omega
  rw [opjIntCeildiv, rounded, Int.toNat_natCast, Int.toNat_natCast, Nat.ceilDiv_eq_add_pred_div]
  rfl

variable {parameters : TileParameters}

theorem tw_eq (laid : parameters.FromOrigin) {width : Int} (nonneg : 0 ≤ width) :
    parameters.tw width = (width.toNat ⌈/⌉ parameters.cpTdx.toNat : Nat) := by
  rw [tw, if_pos laid.tileSizeOn, laid.cpTx0, Int.sub_zero, opjIntCeildiv_eq nonneg laid.cpTdx_pos]

theorem th_eq (laid : parameters.FromOrigin) {height : Int} (nonneg : 0 ≤ height) :
    parameters.th height = (height.toNat ⌈/⌉ parameters.cpTdy.toNat : Nat) := by
  rw [th, if_pos laid.tileSizeOn, laid.cpTy0, Int.sub_zero, opjIntCeildiv_eq nonneg laid.cpTdy_pos]

theorem card_grid (laid : parameters.FromOrigin) {width height : Int} (wide : 0 ≤ width)
    (high : 0 ≤ height) :
    ((parameters.grid width height).card : Int) = parameters.tw width * parameters.th height := by
  have columns := laid.cpTdx_pos
  have rows := laid.cpTdy_pos
  rw [tw_eq laid wide, th_eq laid high, grid, card_tileGrid (by omega) (by omega)]
  exact Nat.cast_mul _ _

theorem pixel_in_tile (laid : parameters.FromOrigin) {width height : Int} (wide : 0 ≤ width)
    (high : 0 ≤ height) {x y : Nat} (column : x < width.toNat) (row : y < height.toNat) :
    (x / parameters.cpTdx.toNat : Nat) < parameters.tw width ∧
      (y / parameters.cpTdy.toNat : Nat) < parameters.th height := by
  have columns : 0 < parameters.cpTdx.toNat := by
    have positive := laid.cpTdx_pos
    omega
  have rows : 0 < parameters.cpTdy.toNat := by
    have positive := laid.cpTdy_pos
    omega
  have inside := exists_tile columns rows column row
  rw [tileGrid_eq columns rows, Finset.mem_product, Finset.mem_range, Finset.mem_range] at inside
  rw [tw_eq laid wide, th_eq laid high]
  exact ⟨by exact_mod_cast inside.1, by exact_mod_cast inside.2⟩

end TileParameters

/-- A product that has to be an `int`. -/
def intProduct (a b : Int) : Option Int := checked (fun n => -2 ^ 31 ≤ n ∧ n ≤ INT_MAX) (a * b)

/-- `av_image_check_size` -/
def avImageCheckSize (w h : Int) : Bool := 0 < w ∧ 0 < h ∧ (w + 128) * (h + 128) < INT_MAX / 8

namespace J2KEncoder

variable (encoder : J2KEncoder)

/-- `SetBroadcastProfile`: the tiles it chooses. -/
def tileParameters : Except EncoderError TileParameters :=
  if 1 ≤ encoder.profile ∧ encoder.profile ≤ 5 then
    if encoder.useTiles then
      .error (.runtimeError "[J2K] single tile broadcast profile cant be used with tiles")
    else .ok ⟨false, 0, 0, 1, 1⟩
  else if encoder.profile = 6 ∨ encoder.profile = 7 then
    if encoder.useTiles then
      .ok ⟨true, 0, 0, encoder.widthUsed.tdiv 2, encoder.heightUsed.tdiv 2⟩
    else .ok ⟨false, 0, 0, 1, 1⟩
  else .error (.runtimeError "undefined broadcast profile")

/-- The argument of `SetRates`, unless one of the products is no `int`. -/
def frameSize : Option Int := do
  let n ← intProduct 3 encoder.widthUsed
  let n ← intProduct n encoder.heightUsed
  intProduct n encoder.targetBitDepth.bits

/-- `InitEncoder` throws no exception. -/
def Accepted : Prop := ∀ message, encoder.initEncoder ≠ .error (.runtimeError message)

structure ParametersRight : Prop where
  frameSize : encoder.frameSize =
    some (3 * encoder.widthUsed * encoder.heightUsed * encoder.targetBitDepth.bits)
  fourTiles : encoder.useTiles = true → encoder.profile = 6 ∨ encoder.profile = 7 →
    ∃ parameters, encoder.tileParameters = .ok parameters ∧
      0 < parameters.cpTdx ∧ 0 < parameters.cpTdy ∧
      (parameters.grid encoder.widthUsed encoder.heightUsed).card = 4

variable {encoder}

theorem tileParameters_ok_iff : (∃ parameters, encoder.tileParameters = .ok parameters) ↔
    ∃ subsampling, encoder.setBroadcastProfile = .ok subsampling := by
  unfold tileParameters setBroadcastProfile
  split_ifs <;> simp

/-- What `InitEncoder` does when none of its checks throws. -/
theorem initEncoder_of_profile {subsampling : Nat × Nat} (width : 0 < encoder.widthUsed)
    (height : 0 < encoder.heightUsed) (rate : encoder.fps.num ≠ 0)
    (profile : encoder.setBroadcastProfile = .ok subsampling) :
    (∃ params, encoder.initEncoder = .ok params) ∧
        3 * encoder.widthUsed * encoder.heightUsed * encoder.targetBitDepth.bits ≤ INT_MAX ∨
      encoder.initEncoder = .error .intOverflow ∧
        INT_MAX < 3 * encoder.widthUsed * encoder.heightUsed * encoder.targetBitDepth.bits := by
  have size : ¬ (encoder.widthUsed ≤ 0 ∨ encoder.heightUsed ≤ 0) := by omega
  unfold initEncoder
  rw [if_neg size, if_neg rate, profile]
  simp only [bind, Except.bind]
  split
  · rename_i large
    exact Or.inr ⟨rfl, large⟩
  · rename_i fits
    exact Or.inl ⟨⟨_, rfl⟩, not_lt.mp fits⟩

theorem setBroadcastProfile_ne_overflow (encoder : J2KEncoder) :
    encoder.setBroadcastProfile ≠ .error .intOverflow := by
  unfold setBroadcastProfile
  dsimp only
  split_ifs <;> nofun

theorem accepted_iff : encoder.Accepted ↔ 0 < encoder.widthUsed ∧ 0 < encoder.heightUsed ∧
    encoder.fps.num ≠ 0 ∧ ∃ subsampling, encoder.setBroadcastProfile = .ok subsampling := by
  constructor
  · intro accepted
    unfold Accepted initEncoder at accepted
    split at accepted
    · exact absurd rfl (accepted _)
    rename_i size
    split at accepted
    · exact absurd rfl (accepted _)
    rename_i rate
    refine ⟨by omega, by omega, rate, ?_⟩
    cases profile : encoder.setBroadcastProfile with
    | ok subsampling => exact ⟨subsampling, rfl⟩
    | error error =>
        cases error with
        | runtimeError message =>
            rw [profile] at accepted
            exact absurd rfl (accepted message)
        | intOverflow => exact absurd profile (setBroadcastProfile_ne_overflow encoder)
  · rintro ⟨width, height, rate, subsampling, profile⟩ message
    rcases initEncoder_of_profile width height rate profile with ⟨⟨params, init⟩, -⟩ | ⟨init, -⟩ <;>
      rw [init] <;> nofun

theorem bits_pos (depth : BitRate) : (0 : Int) < depth.bits := by cases depth <;> decide

theorem intProduct_of_pos {a b : Int} (first : 0 < a) (second : 0 < b) :
    intProduct a b = checked (· ≤ INT_MAX) (a * b) := by
  have product : 0 < a * b := Int.mul_pos first second
  unfold intProduct checked
  congr 1
  simp only [eq_iff_iff, and_iff_right_iff_imp]
  omega

theorem checked_bind {a b : Int} {next : Int → Option Int} (least : a ≤ b)
    (continues : next a = checked (· ≤ INT_MAX) b) :
    (checked (· ≤ INT_MAX) a >>= next) = checked (· ≤ INT_MAX) b := by
  by_cases fits : a ≤ INT_MAX
  · rw [checked, if_pos fits]
    exact continues
  · have large : ¬ b ≤ INT_MAX := fun small => fits (least.trans small)
    rw [checked, checked, if_neg fits, if_neg large]
    rfl

/-- For a picture none of the products is out of range unless the last one is. -/
theorem frameSize_eq (width : 0 < encoder.widthUsed) (height : 0 < encoder.heightUsed) :
    encoder.frameSize =
      checked (· ≤ INT_MAX)
        (3 * encoder.widthUsed * encoder.heightUsed * encoder.targetBitDepth.bits) := by
  have depth := bits_pos encoder.targetBitDepth
  have row : 0 < 3 * encoder.widthUsed := by omega
  have picture : 0 < 3 * encoder.widthUsed * encoder.heightUsed := Int.mul_pos row height
  have rows : 3 * encoder.widthUsed ≤ 3 * encoder.widthUsed * encoder.heightUsed :=
    le_mul_of_one_le_right row.le height
  have bits : 3 * encoder.widthUsed * encoder.heightUsed ≤
      3 * encoder.widthUsed * encoder.heightUsed * encoder.targetBitDepth.bits :=
    le_mul_of_one_le_right picture.le depth
  unfold frameSize
  rw [intProduct_of_pos (by decide) width]
  apply checked_bind (rows.trans bits)
  rw [intProduct_of_pos row height]
  apply checked_bind bits
  exact intProduct_of_pos picture depth

theorem frameSize_iff (width : 0 < encoder.widthUsed) (height : 0 < encoder.heightUsed) :
    encoder.frameSize =
        some (3 * encoder.widthUsed * encoder.heightUsed * encoder.targetBitDepth.bits) ↔
      encoder.widthUsed * encoder.heightUsed ≤ INT_MAX / (3 * encoder.targetBitDepth.bits) := by
  have depth : (0 : Int) < 3 * encoder.targetBitDepth.bits :=
    Int.mul_pos (by decide) (bits_pos encoder.targetBitDepth)
  have product : 3 * encoder.widthUsed * encoder.heightUsed * encoder.targetBitDepth.bits =
      encoder.widthUsed * encoder.heightUsed * (3 * encoder.targetBitDepth.bits) := by ring
  rw [frameSize_eq width height, checked_eq_some_iff, and_iff_left rfl, product,
    Int.le_ediv_iff_mul_le depth]

theorem profile_of_tiles (accepted : encoder.Accepted) (tiles : encoder.useTiles = true) :
    encoder.profile = 6 ∨ encoder.profile = 7 := by
  obtain ⟨-, -, -, profile⟩ := accepted_iff.mp accepted
  obtain ⟨parameters, chosen⟩ := tileParameters_ok_iff.mpr profile
  unfold tileParameters at chosen
  by_cases single : 1 ≤ encoder.profile ∧ encoder.profile ≤ 5
  · rw [if_pos single, if_pos tiles] at chosen
    cases chosen
  · rw [if_neg single] at chosen
    by_contra other
    rw [if_neg other] at chosen
    cases chosen

theorem tileParameters_of_tiles (tiles : encoder.useTiles = true)
    (profile : encoder.profile = 6 ∨ encoder.profile = 7) :
    encoder.tileParameters =
      .ok ⟨true, 0, 0, encoder.widthUsed.tdiv 2, encoder.heightUsed.tdiv 2⟩ := by
  have multi : ¬ (1 ≤ encoder.profile ∧ encoder.profile ≤ 5) := by omega
  rw [tileParameters, if_neg multi, if_pos profile, if_pos tiles]

theorem toNat_half {length : Int} (nonneg : 0 ≤ length) :
    (length.tdiv 2).toNat = length.toNat / 2 := by
  obtain ⟨n, rfl⟩ := Int.eq_ofNat_of_zero_le nonneg
  rfl

/-- Half the size makes four tiles if both sides are even. Else it makes six or nine, or is
nothing. -/
theorem four_tiles_iff {width height : Int} (wide : 0 < width) (high : 0 < height) :
    (0 < width.tdiv 2 ∧ 0 < height.tdiv 2 ∧
        (tileGrid (width.tdiv 2).toNat (height.tdiv 2).toNat width.toNat height.toNat).card = 4) ↔
      Even width ∧ Even height := by
  have columns := toNat_half wide.le
  have rows := toNat_half high.le
  have sides : Even width ∧ Even height ↔ Even width.toNat ∧ Even height.toNat := by
    simp only [Int.even_iff, Nat.even_iff]
    omega
  rw [columns, rows, sides]
  constructor
  · rintro ⟨someWidth, someHeight, four⟩
    exact (card_halves (by omega) (by omega)).mp four
  · intro even
    have halves : 0 < width.toNat / 2 ∧ 0 < height.toNat / 2 := by
      rw [Nat.even_iff, Nat.even_iff] at even
      omega
    exact ⟨by omega, by omega, (card_halves halves.1 halves.2).mpr even⟩

/-- The parameters are right for every picture whose size is an `int` in bits, and that has even
sides if there are tiles. -/
theorem parametersRight_iff (accepted : encoder.Accepted) :
    encoder.ParametersRight ↔
      encoder.widthUsed * encoder.heightUsed ≤ INT_MAX / (3 * encoder.targetBitDepth.bits) ∧
        (encoder.useTiles = true → Even encoder.widthUsed ∧ Even encoder.heightUsed) := by
  obtain ⟨width, height, -⟩ := accepted_iff.mp accepted
  constructor
  · intro right
    refine ⟨(frameSize_iff width height).mp right.frameSize, fun tiles => ?_⟩
    have profile := profile_of_tiles accepted tiles
    obtain ⟨parameters, chosen, four⟩ := right.fourTiles tiles profile
    rw [tileParameters_of_tiles tiles profile] at chosen
    cases chosen
    exact (four_tiles_iff width height).mp four
  · rintro ⟨pixels, even⟩
    refine
      { frameSize := (frameSize_iff width height).mpr pixels
        fourTiles := fun tiles profile => ?_ }
    exact ⟨_, tileParameters_of_tiles tiles profile, (four_tiles_iff width height).mpr (even tiles)⟩

/-- What right parameters lead to: the codec makes four tiles, which cover the picture. -/
theorem codec_makes_four (accepted : encoder.Accepted) (tiles : encoder.useTiles = true)
    (right : encoder.ParametersRight) :
    ∃ parameters, encoder.tileParameters = .ok parameters ∧
      parameters.tw encoder.widthUsed * parameters.th encoder.heightUsed = 4 ∧
      ∀ x < encoder.widthUsed.toNat, ∀ y < encoder.heightUsed.toNat,
        (x / parameters.cpTdx.toNat : Nat) < parameters.tw encoder.widthUsed ∧
          (y / parameters.cpTdy.toNat : Nat) < parameters.th encoder.heightUsed := by
  obtain ⟨width, height, -⟩ := accepted_iff.mp accepted
  have profile := profile_of_tiles accepted tiles
  have chosen := tileParameters_of_tiles tiles profile
  obtain ⟨parameters, same, columns, rows, four⟩ := right.fourTiles tiles profile
  cases Except.ok.inj (chosen.symm.trans same)
  have laid : TileParameters.FromOrigin
      ⟨true, 0, 0, encoder.widthUsed.tdiv 2, encoder.heightUsed.tdiv 2⟩ :=
    ⟨rfl, rfl, rfl, columns, rows⟩
  refine ⟨_, chosen, ?_, fun x column y row => ?_⟩
  · rw [← TileParameters.card_grid laid width.le height.le, four]
    rfl
  · exact TileParameters.pixel_in_tile laid width.le height.le column row

namespace Sample

def tiled : J2KEncoder where
  targetBitDepth := .br10bit
  profile := 6
  useTiles := true
  fps := ⟨24, 1⟩
  widthUsed := 3840
  heightUsed := 2160
  subsampledChroma := false

def oddWidth : J2KEncoder := { tiled with widthUsed := 853, heightUsed := 480 }

def large : J2KEncoder :=
  { tiled with targetBitDepth := .br12bit, useTiles := false, widthUsed := 10000, heightUsed := 10000 }

theorem accepted_tiled : tiled.Accepted :=
  accepted_iff.mpr ⟨by decide, by decide, by decide, ⟨_, rfl⟩⟩

theorem accepted_oddWidth : oddWidth.Accepted :=
  accepted_iff.mpr ⟨by decide, by decide, by decide, ⟨_, rfl⟩⟩

theorem accepted_large : large.Accepted :=
  accepted_iff.mpr ⟨by decide, by decide, by decide, ⟨_, rfl⟩⟩

end Sample

theorem parametersRight_tiled : Sample.tiled.ParametersRight :=
  (parametersRight_iff Sample.accepted_tiled).mpr ⟨by decide, fun _ => ⟨by decide, by decide⟩⟩

/-- A column of single pixels is left over by two tiles, and a hundred million pixels of 12 bits
are too many. -/
theorem parameters_go_wrong :
    (Sample.oddWidth.Accepted ∧
        avImageCheckSize Sample.oddWidth.widthUsed Sample.oddWidth.heightUsed = true ∧
        (tileGrid 426 240 853 480).card = 6 ∧ ¬ Sample.oddWidth.ParametersRight) ∧
      Sample.large.Accepted ∧
        avImageCheckSize Sample.large.widthUsed Sample.large.heightUsed = true ∧
        Sample.large.frameSize = none ∧ ¬ Sample.large.ParametersRight := by
  have six : (tileGrid 426 240 853 480).card = 6 := by
    rw [card_tileGrid (by decide) (by decide)]
    decide
  have none : Sample.large.frameSize = none := by decide
  refine ⟨⟨Sample.accepted_oddWidth, by decide, six, ?_⟩, Sample.accepted_large, by decide, none, ?_⟩
  · rintro ⟨-, fourTiles⟩
    obtain ⟨parameters, chosen, -, -, four⟩ := fourTiles rfl (Or.inl rfl)
    have tiles : Sample.oddWidth.tileParameters = .ok ⟨true, 0, 0, 426, 240⟩ := rfl
    rw [tiles] at chosen
    cases chosen
    exact absurd (six.symm.trans four) (by decide)
  · rintro ⟨size, -⟩
    rw [none] at size
    cases size

end J2KEncoder

end Imflib.Encoder
