import Imflib.Base.ClockTime
import Imflib.Package.Durations

/-! The durations of tracks that the table of the package shows. Single precision is read as exact
arithmetic here. -/

namespace Imflib.View

open Imflib.Package BinaryFloat

/-- `RationalNumber::AsFloat`. -/
def asFloat (r : RationalNumber) : ℚ := if r.denum = 0 then 0 else r.value

/-- `IMFPackageModel::GetItemDurationString`, unless it converts to `int` what does not fit. -/
def getItemDurationString (track : IMFTrack) : Option String :=
  let rate := asFloat track.editRate
  if rate = 0 then
    -- The quotient is an infinity or not a number. A zero is negative only over a negative number.
    if track.duration < 0 ∧ 0 ≤ track.editRate.denum ∨
        0 < track.duration ∧ track.editRate.denum < 0 then some "N/A"
    else none
  else
    let duration := track.duration.toInt / rate
    if duration ≤ 0 then some "N/A"
    else do
      let whole ← checked FitsInt ⌊duration⌋
      let temp := whole.toNat
      let seconds := temp % 60
      let temp := temp / 60
      let minutes := temp % 60
      let temp := temp / 60
      let hours := temp % 24
      let mantissa := duration - ⌊duration⌋
      let hundredths := ⌊(roundAway (mantissa * 100) : ℚ) / 100 * 100⌋
      some (String.ofList (ClockTime.print hours minutes seconds hundredths.toNat))

def playingSeconds (track : IMFTrack) : ℚ := track.duration.toInt / track.editRate.value

/-- The hundredths that the fraction of a duration is rounded to, up to a whole second. -/
def roundedHundredths (seconds : ℚ) : Nat := (roundAway (100 * Int.fract seconds)).toNat

/-- The text is that of a time, which is the duration rounded to hundredths of a second. -/
def ShowsDuration (track : IMFTrack) : Prop :=
  ∃ time : ClockTime, getItemDurationString track = some (String.ofList time.text) ∧
    time.value = roundAway (100 * playingSeconds track) / 100

variable {track : IMFTrack}

theorem playingSeconds_pos (plays : 1 ≤ track.duration) (rate : track.editRate.Positive) :
    0 < playingSeconds track := by
  rw [Int32.le_iff_toInt_le] at plays
  have duration : 0 < track.duration.toInt := plays
  exact div_pos (by exact_mod_cast duration) rate.value_pos

theorem asFloat_of_positive {r : RationalNumber} (positive : r.Positive) : asFloat r = r.value := by
  have nonzero : r.denum ≠ 0 := by
    intro zero
    exact absurd positive.2 (by rw [zero]; decide)
  rw [asFloat, if_neg nonzero]

theorem getItemDurationString_eq (plays : 1 ≤ track.duration) (rate : track.editRate.Positive) :
    getItemDurationString track =
      (checked FitsInt ⌊playingSeconds track⌋).map fun whole =>
        String.ofList (ClockTime.print (whole.toNat / 3600 % 24) (whole.toNat / 60 % 60)
          (whole.toNat % 60) (roundedHundredths (playingSeconds track))) := by
  have positive := playingSeconds_pos plays rate
  have rounded (n : ℤ) : ⌊(n : ℚ) / 100 * 100⌋ = n := by
    rw [div_mul_cancel₀ _ (by norm_num), Int.floor_intCast]
  have hundredths : roundedHundredths (playingSeconds track) =
      (roundAway ((playingSeconds track - ⌊playingSeconds track⌋) * 100)).toNat := by
    rw [roundedHundredths, Int.fract, mul_comm]
  unfold getItemDurationString
  simp only [asFloat_of_positive rate, rate.value_pos.ne', if_false]
  rw [← playingSeconds, if_neg positive.not_ge]
  cases checked FitsInt ⌊playingSeconds track⌋ with
  | none => rfl
  | some whole =>
      simp only [Option.bind_eq_bind, Option.bind_some, Option.map_some, rounded, hundredths,
        Nat.div_div_eq_div_mul]

theorem roundAway_hundredths {seconds : ℚ} (positive : 0 < seconds) :
    roundAway (100 * seconds) = 100 * ⌊seconds⌋ + roundedHundredths seconds := by
  have fraction : (0 : ℚ) ≤ 100 * Int.fract seconds :=
    mul_nonneg (by norm_num) (Int.fract_nonneg seconds)
  have whole : 0 ≤ 100 * ⌊seconds⌋ := mul_nonneg (by norm_num) (Int.floor_nonneg.mpr positive.le)
  have rounded : 0 ≤ roundAway (100 * Int.fract seconds) := by
    rw [roundAway, if_pos fraction, Int.floor_nonneg]
    linarith
  have parts : 100 * seconds = ((100 * ⌊seconds⌋ : ℤ) : ℚ) + 100 * Int.fract seconds := by
    rw [Int.fract]
    push_cast
    ring
  rw [parts, roundAway_add whole fraction, roundedHundredths, Int.toNat_of_nonneg rounded]

/-- There are two digits for the fraction exactly if it is not rounded up to a second. -/
theorem roundedHundredths_lt_iff (seconds : ℚ) :
    roundedHundredths seconds < 100 ↔ Int.fract seconds < 199 / 200 := by
  have carries := lt_roundAway_iff 99 (100 * Int.fract seconds)
  rw [← not_le, ← not_le (b := Int.fract seconds)]
  apply not_congr
  calc 100 ≤ roundedHundredths seconds
      ↔ ((99 : ℕ) : ℤ) < roundAway (100 * Int.fract seconds) := by
        rw [roundedHundredths]
        omega
    _ ↔ ((99 : ℕ) : ℚ) + 1 / 2 ≤ 100 * Int.fract seconds := carries
    _ ↔ 199 / 200 ≤ Int.fract seconds := by
        push_cast
        constructor <;> intro bound <;> linarith

def wholeSeconds (track : IMFTrack) : Nat := ⌊playingSeconds track⌋.toNat

theorem cast_wholeSeconds (plays : 1 ≤ track.duration) (rate : track.editRate.Positive) :
    (wholeSeconds track : ℤ) = ⌊playingSeconds track⌋ :=
  Int.toNat_of_nonneg (Int.floor_nonneg.mpr (playingSeconds_pos plays rate).le)

theorem shown_iff (plays : 1 ≤ track.duration) (rate : track.editRate.Positive) (time : ClockTime) :
    getItemDurationString track = some (String.ofList time.text) ↔
      FitsInt ⌊playingSeconds track⌋ ∧ time.hours = wholeSeconds track / 3600 % 24 ∧
        time.minutes = wholeSeconds track / 60 % 60 ∧ time.seconds = wholeSeconds track % 60 ∧
        time.hundredths = roundedHundredths (playingSeconds track) := by
  rw [getItemDurationString_eq plays rate, Option.map_eq_some_iff]
  simp only [checked_eq_some_iff, wholeSeconds]
  constructor
  · rintro ⟨whole, ⟨fits, rfl⟩, same⟩
    obtain ⟨hours, minutes, seconds, hundredths⟩ :=
      ClockTime.print_injective (String.ofList_injective same)
    exact ⟨fits, hours.symm, minutes.symm, seconds.symm, hundredths.symm⟩
  · rintro ⟨fits, hours, minutes, seconds, hundredths⟩
    refine ⟨_, ⟨fits, rfl⟩, ?_⟩
    rw [ClockTime.text, hours, minutes, seconds, hundredths]

theorem rounded_eq (plays : 1 ≤ track.duration) (rate : track.editRate.Positive) :
    (roundAway (100 * playingSeconds track) : ℚ) / 100 =
      wholeSeconds track + roundedHundredths (playingSeconds track) / 100 := by
  have whole : (wholeSeconds track : ℚ) = ⌊playingSeconds track⌋ := by
    exact_mod_cast cast_wholeSeconds plays rate
  rw [roundAway_hundredths (playingSeconds_pos plays rate), whole]
  push_cast
  ring

theorem lt_day_iff (plays : 1 ≤ track.duration) (rate : track.editRate.Positive) :
    playingSeconds track < 86400 ↔ wholeSeconds track / 3600 < 24 := by
  have whole := cast_wholeSeconds plays rate
  calc playingSeconds track < 86400
      ↔ ⌊playingSeconds track⌋ < 86400 := by
        rw [Int.floor_lt]
        norm_num
    _ ↔ wholeSeconds track / 3600 < 24 := by omega

/-- The duration is right for every track of less than a day whose fraction of a second is not
rounded up to a whole one, and for no other. -/
theorem showsDuration_iff (plays : 1 ≤ track.duration) (rate : track.editRate.Positive) :
    ShowsDuration track ↔
      playingSeconds track < 86400 ∧ Int.fract (playingSeconds track) < 199 / 200 := by
  rw [lt_day_iff plays rate, ← roundedHundredths_lt_iff]
  constructor
  · rintro ⟨time, shown, value⟩
    obtain ⟨-, hours, minutes, seconds, hundredths⟩ := (shown_iff plays rate time).mp shown
    rw [rounded_eq plays rate, ClockTime.value, hundredths, add_left_inj] at value
    have sum : 3600 * time.hours + 60 * time.minutes + time.seconds = wholeSeconds track := by
      exact_mod_cast value
    rw [minutes, seconds, ClockTime.seconds_add] at sum
    refine ⟨?_, hundredths ▸ time.hundredths_lt⟩
    rw [← sum, hours]
    exact Nat.mod_lt _ (by decide)
  · rintro ⟨day, fits⟩
    refine ⟨.ofSeconds (wholeSeconds track) _ fits, (shown_iff plays rate _).mpr ?_, ?_⟩
    · have whole := cast_wholeSeconds plays rate
      refine ⟨⟨by omega, by omega⟩, (Nat.mod_eq_of_lt day).symm, rfl, rfl, rfl⟩
    · rw [ClockTime.value_ofSeconds, rounded_eq plays rate]

theorem showsDuration_video : ShowsDuration Sample.video :=
  (showsDuration_iff (by decide) (by decide)).mpr (by decide +kernel)

def Sample.almostASecond : IMFTrack := { Package.Sample.audio with duration := 47999 }

def Sample.moreThanADay : IMFTrack :=
  { Package.Sample.audio with duration := 90000, editRate := ⟨1, 1⟩ }

/-- Hours are counted from the last midnight. -/
example : getItemDurationString Sample.moreThanADay = some "01:00:00.00" := by decide +kernel

/-- The fraction gets three digits, and is not carried. -/
theorem hundredths_not_carried :
    (1 ≤ Sample.almostASecond.duration ∧ Sample.almostASecond.editRate.Positive) ∧
      getItemDurationString Sample.almostASecond = some "00:00:00.100" ∧
      ¬ ShowsDuration Sample.almostASecond := by
  refine ⟨by decide, by decide +kernel, ?_⟩
  rintro ⟨time, shown, -⟩
  have rounded := ((shown_iff (by decide) (by decide) time).mp shown).2.2.2.2
  have carried : roundedHundredths (playingSeconds Sample.almostASecond) = 100 := by decide +kernel
  have fits := time.hundredths_lt
  omega

end Imflib.View
