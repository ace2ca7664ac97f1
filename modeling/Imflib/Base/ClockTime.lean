import Imflib.Base.Text
import Mathlib.Data.Rat.Floor

/-! Times in hours, minutes, seconds and hundredths of a second, and their texts. -/

namespace Imflib

structure ClockTime where
  hours : Nat
  minutes : Nat
  seconds : Nat
  hundredths : Nat
  minutes_lt : minutes < 60
  seconds_lt : seconds < 60
  hundredths_lt : hundredths < 100

namespace ClockTime

def twoDigits (n : Nat) : List Char := Text.padLeft 2 '0' (Text.digits n)

/-- The numbers in this order, each with at least two digits. -/
def print (hours minutes seconds hundredths : Nat) : List Char :=
  twoDigits hours ++ ':' :: (twoDigits minutes ++ ':' ::
    (twoDigits seconds ++ '.' :: twoDigits hundredths))

def text (time : ClockTime) : List Char :=
  print time.hours time.minutes time.seconds time.hundredths

def value (time : ClockTime) : ℚ :=
  3600 * time.hours + 60 * time.minutes + time.seconds + time.hundredths / 100

theorem not_mem_twoDigits {separator : Char} (plain : separator.isDigit = false) (n : Nat) :
    separator ∉ twoDigits n := by
  intro member
  rw [Text.isDigit_of_mem_padLeft member] at plain
  cases plain

theorem print_injective {hours minutes seconds hundredths hours' minutes' seconds' hundredths' : Nat}
    (same : print hours minutes seconds hundredths = print hours' minutes' seconds' hundredths') :
    hours = hours' ∧ minutes = minutes' ∧ seconds = seconds' ∧ hundredths = hundredths' := by
  have digits : Function.Injective twoDigits := Text.padLeft_digits_injective 2
  obtain ⟨first, same⟩ := Text.append_separator_inj (not_mem_twoDigits (by decide) hours)
    (not_mem_twoDigits (by decide) hours') same
  obtain ⟨second, same⟩ := Text.append_separator_inj (not_mem_twoDigits (by decide) minutes)
    (not_mem_twoDigits (by decide) minutes') same
  obtain ⟨third, last⟩ := Text.append_separator_inj (not_mem_twoDigits (by decide) seconds)
    (not_mem_twoDigits (by decide) seconds') same
  exact ⟨digits first, digits second, digits third, digits last⟩

def ofSeconds (whole hundredths : Nat) (fits : hundredths < 100) : ClockTime :=
  { hours := whole / 3600
    minutes := whole / 60 % 60
    seconds := whole % 60
    hundredths := hundredths
    minutes_lt := Nat.mod_lt _ (by decide)
    seconds_lt := Nat.mod_lt _ (by decide)
    hundredths_lt := fits }

/-- Hours, minutes and seconds add up to the seconds they are taken from, as long as the hours are
all of them. -/
theorem seconds_add (whole hours : Nat) :
    3600 * hours + 60 * (whole / 60 % 60) + whole % 60 = whole ↔ hours = whole / 3600 := by
  omega

theorem value_ofSeconds (whole hundredths : Nat) (fits : hundredths < 100) :
    (ofSeconds whole hundredths fits).value = whole + hundredths / 100 := by
  have sum := (seconds_add whole (whole / 3600)).mpr rfl
  have cast : (3600 * (whole / 3600 : Nat) + 60 * (whole / 60 % 60 : Nat) + (whole % 60 : Nat) : ℚ) =
      whole := by
    exact_mod_cast sum
  rw [value, ofSeconds, cast]

end ClockTime

end Imflib
