import Imflib.Base.BinaryFloat
import Imflib.Base.CheckedSum
import Imflib.Package.PlaylistReading

/-! How long resources, sequences, segments and playlists play, and when the durations that
are computed are right. -/

namespace Imflib.Package

open BinaryFloat

/-- What an `int` holds. -/
def FitsInt (n : Int) : Prop := -2 ^ 31 ≤ n ∧ n < 2 ^ 31

instance : DecidablePred FitsInt := fun _ => inferInstanceAs (Decidable (_ ∧ _))

theorem totalsFit_of_nonneg {amounts : List Int} {total : Int} (start : 0 ≤ total)
    (nonneg : ∀ n ∈ amounts, 0 ≤ n) (short : total + amounts.sum < 2 ^ 31) :
    TotalsFit FitsInt total amounts := by
  induction amounts generalizing total with
  | nil => trivial
  | cons n rest ih =>
      have first := nonneg n List.mem_cons_self
      have others : ∀ n ∈ rest, 0 ≤ n := fun n member => nonneg n (List.mem_cons_of_mem _ member)
      have remaining := List.sum_nonneg others
      rw [List.sum_cons] at short
      exact ⟨⟨by omega, by omega⟩, ih (by omega) others (by omega)⟩

namespace RationalNumber

def value (r : RationalNumber) : ℚ := r.num.toInt / r.denum.toInt

/-- A `double` holds both numbers, so only the division rounds. -/
def asDouble (r : RationalNumber) : ℚ :=
  if r.denum = 0 then 0 else toNearest 53 (r.num.toInt / r.denum.toInt)

def Positive (r : RationalNumber) : Prop := 0 < r.num ∧ 0 < r.denum

instance : DecidablePred Positive := fun _ => inferInstanceAs (Decidable (_ ∧ _))

theorem Positive.value_pos {r : RationalNumber} (positive : r.Positive) : 0 < r.value := by
  obtain ⟨num, denum⟩ := positive
  rw [Int32.lt_iff_toInt_lt, Int32.toInt_zero] at num denum
  exact div_pos (by exact_mod_cast num) (by exact_mod_cast denum)

theorem Positive.relative_asDouble {r : RationalNumber} (positive : r.Positive) :
    Relative (2 ^ (-53 : ℤ)) r.value r.asDouble := by
  have nonzero : r.denum ≠ 0 := by
    intro zero
    exact absurd positive.2 (by rw [zero]; decide)
  rw [asDouble, if_neg nonzero]
  exact relative_toNearest 53 _

end RationalNumber

namespace CPLResource

/-- The source duration of audio in units of the playlist, converted to `float` for `roundf`. -/
def convertedDuration (resource : CPLResource) : ℚ :=
  let seconds := toNearest 53 (resource.sourceDuration.toInt / resource.track.editRate.asDouble)
  toNearest 24 (toNearest 53 (seconds * resource.playlistEditRate.asDouble))

def getNormalizedSourceDuration (resource : CPLResource) : Option Int :=
  match resource.track.type with
  | .video => some resource.sourceDuration.toInt
  | .audio =>
      -- What a division by zero leaves cannot be converted to `int`.
      if resource.track.editRate.asDouble = 0 then none
      else checked FitsInt (roundAway resource.convertedDuration)

end CPLResource

def CPLSequence.getDuration (sequence : CPLSequence) : Option Int :=
  addUp FitsInt CPLResource.getNormalizedSourceDuration 0 sequence.items

namespace IMFCompositionPlaylist

variable (playlist : IMFCompositionPlaylist)

/-- `CPLSegment::GetDuration` -/
def getSegmentDuration (address : Nat) : Option Int :=
  longest (fun sequence => (playlist.sequence sequence).getDuration) 0
    (playlist.segment address).items

def getDurationInFrames : Option Int :=
  addUp FitsInt playlist.getSegmentDuration 0 playlist.segments

end IMFCompositionPlaylist

section Playing

variable (editRate : RationalNumber)

/-- How many units of the composition a part of the source takes, before it is rounded. -/
def CPLResource.exactUnits (resource : CPLResource) (repeatCount : Int) : ℚ :=
  repeatCount * resource.sourceDuration.toInt / resource.track.editRate.value * editRate.value

def CPLResource.playingTime (resource : CPLResource) : Int :=
  match resource.track.type with
  | .video => resource.repeatCount.toInt * resource.sourceDuration.toInt
  | .audio => roundAway (resource.exactUnits editRate resource.repeatCount.toInt)

end Playing

namespace IMFCompositionPlaylist

variable (playlist : IMFCompositionPlaylist)

def sequenceTime (address : Nat) : Int :=
  ((playlist.sequence address).items.map (CPLResource.playingTime playlist.editRate)).sum

def segmentTime (address : Nat) : Int :=
  ((playlist.segment address).items.map playlist.sequenceTime).max?.getD 0

structure Durations : Prop where
  sequences : ∀ address ∈ playlist.sequences,
    (playlist.sequence address).getDuration = some (playlist.sequenceTime address)
  segments : ∀ address ∈ playlist.segments,
    playlist.getSegmentDuration address = some (playlist.segmentTime address)
  frames : playlist.getDurationInFrames = some (playlist.segments.map playlist.segmentTime).sum

/-- Positive edit rates. Video runs at the edit rate of the playlist. -/
structure Rated : Prop where
  composition : playlist.editRate.Positive
  tracks : ∀ resource ∈ playlist.resources, resource.track.editRate.Positive
  video : ∀ resource ∈ playlist.resources, resource.track.type = .video →
    resource.track.editRate.value = playlist.editRate.value

end IMFCompositionPlaylist

/-- Played once, audio lasts so far from every half of a unit that `float`, with its seven
digits, does not cross one. -/
structure CPLResource.Clear (editRate : RationalNumber) (resource : CPLResource) : Prop where
  playlistEditRate : resource.playlistEditRate = editRate
  apart : ∀ n : ℤ, 2 ^ (-23 : ℤ) * |resource.exactUnits editRate 1| <
    |resource.exactUnits editRate 1 - (n + 1 / 2)|

/-- Nothing is lost with repetitions or by rounding. -/
def CPLResource.CountedInFull (editRate : RationalNumber) (resource : CPLResource) : Prop :=
  match resource.track.type with
  | .video => resource.repeatCount = 1 ∨ resource.sourceDuration = 0
  | .audio => resource.Clear editRate ∧
      SameSide (resource.exactUnits editRate resource.repeatCount.toInt)
        (resource.exactUnits editRate 1) ∧
      FitsInt (resource.playingTime editRate)

/-- The numbers of a resource as they should be. -/
structure CPLResource.Ordinary (editRate : RationalNumber) (resource : CPLResource) : Prop where
  repeatCount : 0 < resource.repeatCount
  sourceDuration : 0 ≤ resource.sourceDuration
  clear : resource.track.type = .audio → resource.Clear editRate

/-- Every resource is counted in full, and nothing overflows on the way. The segments count
from zero, so one of their sequences should reach it. -/
structure IMFCompositionPlaylist.CountedInFull (playlist : IMFCompositionPlaylist) : Prop where
  resources : ∀ resource ∈ playlist.resources, resource.CountedInFull playlist.editRate
  sequences : ∀ address ∈ playlist.sequences, TotalsFit FitsInt 0
    ((playlist.sequence address).items.map (CPLResource.playingTime playlist.editRate))
  segments : ∀ address ∈ playlist.segments, (playlist.segment address).items ≠ [] →
    ∃ sequence ∈ (playlist.segment address).items, 0 ≤ playlist.sequenceTime sequence
  frames : TotalsFit FitsInt 0 (playlist.segments.map playlist.segmentTime)

namespace CPLResource

variable {editRate : RationalNumber} {resource : CPLResource}

/-- The division is never by zero. -/
theorem getNormalizedSourceDuration_audio (rate : resource.track.editRate.Positive)
    (audio : resource.track.type = .audio) : resource.getNormalizedSourceDuration =
      checked FitsInt (roundAway resource.convertedDuration) := by
  have nonzero := rate.relative_asDouble.ne_zero (by norm_num) rate.value_pos.ne'
  simp only [getNormalizedSourceDuration, audio, if_neg nonzero]

theorem getNormalizedSourceDuration_video (video : resource.track.type = .video) :
    resource.getNormalizedSourceDuration = some resource.sourceDuration.toInt := by
  simp only [getNormalizedSourceDuration, video]

theorem getNormalizedSourceDuration_eq_none_iff :
    resource.getNormalizedSourceDuration = none ↔ resource.track.type = .audio ∧
      (resource.track.editRate.asDouble = 0 ∨
        ¬FitsInt (roundAway resource.convertedDuration)) := by
  cases type : resource.track.type with
  | video =>
      rw [getNormalizedSourceDuration_video type]
      exact ⟨nofun, nofun⟩
  | audio =>
      simp only [getNormalizedSourceDuration, type]
      split_ifs with zero
      · exact ⟨fun _ => ⟨trivial, .inl zero⟩, fun _ => rfl⟩
      · rw [checked_eq_none_iff]
        exact ⟨fun large => ⟨trivial, .inr large⟩, fun both => both.2.resolve_left zero⟩

theorem relative_convertedDuration (rate : resource.track.editRate.Positive)
    (positive : resource.playlistEditRate.Positive) :
    Relative (2 ^ (-23 : ℤ)) (resource.exactUnits resource.playlistEditRate 1)
      resource.convertedDuration := by
  have source := Relative.refl resource.sourceDuration.toInt
  have seconds := (source.mul (rate.relative_asDouble.inv (by norm_num))).trans
    (relative_toNearest 53 _)
  have units := (seconds.mul positive.relative_asDouble).trans (relative_toNearest 53 _)
  have converted := units.trans (relative_toNearest 24 _)
  have exact : resource.exactUnits resource.playlistEditRate 1 =
      resource.sourceDuration.toInt * resource.track.editRate.value⁻¹ *
        resource.playlistEditRate.value := by
    rw [exactUnits, Int.cast_one, one_mul, div_eq_mul_inv]
  rw [exact]
  exact converted.mono (by norm_num)

theorem Clear.sameSide (clear : resource.Clear editRate) (positive : editRate.Positive)
    (rate : resource.track.editRate.Positive) :
    SameSide (resource.exactUnits editRate 1) resource.convertedDuration := by
  have converted : Relative (2 ^ (-23 : ℤ)) (resource.exactUnits editRate 1)
      resource.convertedDuration :=
    clear.playlistEditRate ▸ relative_convertedDuration rate (clear.playlistEditRate ▸ positive)
  exact sameSide_of_apart fun n => converted.abs_sub_le.trans_lt (clear.apart n)

/-- One resource is counted right in exactly these cases, as far as the `float` is clear. -/
theorem countedInFull_iff (positive : editRate.Positive)
    (rate : resource.track.editRate.Positive)
    (clear : resource.track.type = .audio → resource.Clear editRate) :
    resource.getNormalizedSourceDuration = some (resource.playingTime editRate) ↔
      resource.CountedInFull editRate := by
  cases type : resource.track.type with
  | video =>
      have one : (1 : Int32).toInt = 1 := rfl
      rw [getNormalizedSourceDuration_video type, Option.some.injEq]
      simp only [playingTime, CountedInFull, type]
      rw [eq_comm, mul_left_eq_self₀, ← Int32.toInt_inj, ← Int32.toInt_inj, one,
        Int32.toInt_zero]
  | audio =>
      have converted := roundAway_eq_iff.mpr ((clear type).sameSide positive rate)
      rw [getNormalizedSourceDuration_audio rate type, checked_eq_some_iff, ← converted]
      simp only [playingTime, CountedInFull, type]
      rw [← roundAway_eq_iff]
      constructor
      · intro both
        obtain ⟨fit, same⟩ := both
        exact ⟨clear type, same.symm, same ▸ fit⟩
      · intro full
        obtain ⟨-, same, fit⟩ := full
        exact ⟨same ▸ fit, same.symm⟩

theorem CountedInFull.clear (full : resource.CountedInFull editRate)
    (audio : resource.track.type = .audio) : resource.Clear editRate := by
  simp only [CountedInFull, audio] at full
  exact full.1

/-- What is counted of a resource with ordinary numbers is never too much. -/
theorem le_playingTime (positive : editRate.Positive) (rate : resource.track.editRate.Positive)
    (ordinary : resource.Ordinary editRate) {counted : Int}
    (normalized : resource.getNormalizedSourceDuration = some counted) :
    counted ≤ resource.playingTime editRate := by
  have once : (1 : ℤ) ≤ resource.repeatCount.toInt :=
    Int32.lt_iff_toInt_lt.mp ordinary.repeatCount
  have nonneg : (0 : ℤ) ≤ resource.sourceDuration.toInt :=
    Int32.le_iff_toInt_le.mp ordinary.sourceDuration
  cases type : resource.track.type with
  | video =>
      rw [getNormalizedSourceDuration_video type] at normalized
      rw [← Option.some.inj normalized]
      simp only [playingTime, type]
      exact le_mul_of_one_le_left nonneg once
  | audio =>
      rw [getNormalizedSourceDuration_audio rate type, checked_eq_some_iff] at normalized
      rw [← normalized.2,
        ← roundAway_eq_iff.mpr ((ordinary.clear type).sameSide positive rate)]
      simp only [playingTime, type]
      apply roundAway_mono
      have track := rate.value_pos
      have composition := positive.value_pos
      have source : (0 : ℚ) ≤ resource.sourceDuration.toInt := by exact_mod_cast nonneg
      have repeats : (1 : ℚ) ≤ resource.repeatCount.toInt := by exact_mod_cast once
      unfold exactUnits
      push_cast
      gcongr

/-- Numbers with which a resource is counted in full: it plays once, and audio lasts a whole
number of units, less than a day at any frame rate in use. -/
structure Whole (editRate : RationalNumber) (resource : CPLResource) : Prop where
  playlistEditRate : resource.playlistEditRate = editRate
  rate : resource.track.editRate.Positive
  repeatCount : resource.repeatCount = 1
  sourceDuration : 0 ≤ resource.sourceDuration
  audio : resource.track.type = .audio →
    ∃ units : ℕ, resource.exactUnits editRate 1 = units ∧ units < 2 ^ 22

theorem Whole.clear (whole : resource.Whole editRate) (audio : resource.track.type = .audio) :
    resource.Clear editRate := by
  obtain ⟨units, exact, short⟩ := whole.audio audio
  refine ⟨whole.playlistEditRate, fun n => ?_⟩
  have bound : (units : ℚ) < 2 ^ 22 := by exact_mod_cast short
  have odd : (1 : ℚ) ≤ 2 * |(units - (n + 1 / 2) : ℚ)| := by
    have whole : (1 : ℤ) ≤ |2 * (units - n) - 1| := Int.one_le_abs (by omega)
    calc (1 : ℚ) ≤ |((2 * (units - n) - 1 : ℤ) : ℚ)| := by exact_mod_cast whole
      _ = |2 * (units - (n + 1 / 2) : ℚ)| := by push_cast; ring_nf
      _ = 2 * |(units - (n + 1 / 2) : ℚ)| := by rw [abs_mul, abs_two]
  rw [exact, Nat.abs_cast]
  calc 2 ^ (-23 : ℤ) * (units : ℚ)
      < 2 ^ (-23 : ℤ) * 2 ^ 22 := mul_lt_mul_of_pos_left bound (zpow_pos two_pos _)
    _ = 1 / 2 := by norm_num
    _ ≤ |(units - (n + 1 / 2) : ℚ)| := by linarith

theorem Whole.countedInFull (whole : resource.Whole editRate) :
    resource.CountedInFull editRate := by
  have one : (1 : Int32).toInt = 1 := rfl
  cases type : resource.track.type with
  | video =>
      simp only [CountedInFull, type]
      exact .inl whole.repeatCount
  | audio =>
      obtain ⟨units, exact, short⟩ := whole.audio type
      have rounded : roundAway (resource.exactUnits editRate 1) = units := by
        rw [exact]
        exact roundAway_of_close (by simp)
      simp only [CountedInFull, playingTime, type, whole.repeatCount, one]
      refine ⟨whole.clear type, roundAway_eq_iff.mp rfl, ?_⟩
      rw [rounded]
      exact ⟨by omega, by omega⟩

theorem Whole.playingTime_nonneg (whole : resource.Whole editRate) :
    0 ≤ resource.playingTime editRate := by
  have one : (1 : Int32).toInt = 1 := rfl
  cases type : resource.track.type with
  | video =>
      simp only [playingTime, type, whole.repeatCount, one, one_mul]
      exact Int32.le_iff_toInt_le.mp whole.sourceDuration
  | audio =>
      obtain ⟨units, exact, -⟩ := whole.audio type
      simp only [playingTime, type, whole.repeatCount, one, exact]
      rw [roundAway_of_close (n := units) (by simp)]
      exact Int.natCast_nonneg units

end CPLResource

namespace IMFCompositionPlaylist

variable {playlist : IMFCompositionPlaylist}

theorem mem_resources_of_mem {address : Nat} {resource : CPLResource}
    (member : address ∈ playlist.sequences) (inside : resource ∈ (playlist.sequence address).items) :
    resource ∈ playlist.resources :=
  List.mem_flatMap.mpr ⟨address, member, inside⟩

theorem durations_of_countedInFull (positive : playlist.editRate.Positive)
    (rates : ∀ resource ∈ playlist.resources, resource.track.editRate.Positive)
    (full : playlist.CountedInFull) : playlist.Durations := by
  have sequences : ∀ address ∈ playlist.sequences,
      (playlist.sequence address).getDuration = some (playlist.sequenceTime address) := by
    intro address member
    have counted : ∀ resource ∈ (playlist.sequence address).items,
        resource.getNormalizedSourceDuration =
          some (resource.playingTime playlist.editRate) := by
      intro resource inside
      have listed := mem_resources_of_mem member inside
      exact (CPLResource.countedInFull_iff positive (rates resource listed)
        (full.resources resource listed).clear).mpr (full.resources resource listed)
    exact (addUp_eq_some_iff counted).mpr ⟨full.sequences address member, (zero_add _).symm⟩
  have segments : ∀ address ∈ playlist.segments,
      playlist.getSegmentDuration address = some (playlist.segmentTime address) := by
    intro address member
    have start : (((playlist.segment address).items.map playlist.sequenceTime).foldl max 0) =
        playlist.segmentTime address := by
      refine foldl_max_eq_iff.mpr fun nonempty => ?_
      obtain ⟨sequence, inside, reached⟩ :=
        full.segments address member (fun empty => nonempty (List.map_eq_nil_iff.mpr empty))
      exact ⟨_, List.mem_map_of_mem inside, reached⟩
    rw [← start]
    exact longest_eq fun sequence inside => sequences sequence (mem_sequences_of_mem member inside)
  exact ⟨sequences, segments, (addUp_eq_some_iff segments).mpr ⟨full.frames, (zero_add _).symm⟩⟩

theorem countedInFull_of_durations (rated : playlist.Rated)
    (ordinary : ∀ resource ∈ playlist.resources, resource.Ordinary playlist.editRate)
    (right : playlist.Durations) : playlist.CountedInFull := by
  -- Nothing is counted too long, so that equal sums leave nothing that is counted too short.
  have counted : ∀ address ∈ playlist.sequences, ∀ resource ∈ (playlist.sequence address).items,
      resource.getNormalizedSourceDuration =
        some (resource.playingTime playlist.editRate) := by
    intro address member resource inside
    have added := right.sequences address member
    have known : ∀ resource ∈ (playlist.sequence address).items,
        resource.getNormalizedSourceDuration =
          some (resource.getNormalizedSourceDuration.getD 0) := by
      intro resource inside
      obtain ⟨n, normalized⟩ := some_of_addUp added resource inside
      rw [normalized, Option.getD_some]
    have same := ((addUp_eq_some_iff known).mp added).2
    rw [zero_add] at same
    have equal := eq_of_sum_eq (fun resource inside =>
      CPLResource.le_playingTime rated.composition
        (rated.tracks resource (mem_resources_of_mem member inside))
        (ordinary resource (mem_resources_of_mem member inside)) (known resource inside)) same.symm
    rw [known resource inside, equal resource inside]
  refine ⟨?_, ?_, ?_, ?_⟩
  · intro resource listed
    obtain ⟨address, member, inside⟩ := List.mem_flatMap.mp listed
    exact (CPLResource.countedInFull_iff rated.composition (rated.tracks resource listed)
      (ordinary resource listed).clear).mp (counted address member resource inside)
  · intro address member
    exact ((addUp_eq_some_iff (counted address member)).mp (right.sequences address member)).1
  · intro address member nonempty
    have known : ∀ sequence ∈ (playlist.segment address).items,
        (playlist.sequence sequence).getDuration = some (playlist.sequenceTime sequence) :=
      fun sequence inside => right.sequences sequence (mem_sequences_of_mem member inside)
    have found := (longest_eq known).symm.trans (right.segments address member)
    obtain ⟨n, inside, reached⟩ := foldl_max_eq_iff.mp (Option.some.inj found)
      (fun empty => nonempty (List.map_eq_nil_iff.mp empty))
    obtain ⟨sequence, member, rfl⟩ := List.mem_map.mp inside
    exact ⟨sequence, member, reached⟩
  · exact ((addUp_eq_some_iff right.segments).mp right.frames).1

theorem countedInFull_of_whole
    (whole : ∀ resource ∈ playlist.resources, resource.Whole playlist.editRate)
    (short : (playlist.segments.map playlist.segmentTime).sum < 2 ^ 31) :
    playlist.CountedInFull := by
  have times : ∀ address ∈ playlist.sequences, ∀ n ∈ (playlist.sequence address).items.map
      (CPLResource.playingTime playlist.editRate), 0 ≤ n := by
    intro address member n inside
    obtain ⟨resource, held, rfl⟩ := List.mem_map.mp inside
    exact (whole resource (mem_resources_of_mem member held)).playingTime_nonneg
  have sequenceTimes : ∀ address ∈ playlist.sequences, 0 ≤ playlist.sequenceTime address :=
    fun address member => List.sum_nonneg (times address member)
  have within : ∀ segment ∈ playlist.segments, ∀ sequence ∈ (playlist.segment segment).items,
      playlist.sequenceTime sequence ≤ playlist.segmentTime segment :=
    fun segment _ sequence inside => le_getD_max (List.mem_map_of_mem inside) 0
  have segmentTimes : ∀ n ∈ playlist.segments.map playlist.segmentTime, 0 ≤ n := by
    intro n listed
    obtain ⟨segment, member, rfl⟩ := List.mem_map.mp listed
    by_cases empty : (playlist.segment segment).items = []
    · rw [segmentTime, empty]
      exact le_rfl
    · obtain ⟨sequence, inside⟩ := List.exists_mem_of_ne_nil _ empty
      exact (sequenceTimes sequence (mem_sequences_of_mem member inside)).trans
        (within segment member sequence inside)
  refine ⟨fun resource listed => (whole resource listed).countedInFull, ?_, ?_, ?_⟩
  · intro address member
    refine totalsFit_of_nonneg le_rfl (times address member) ?_
    obtain ⟨segment, listed, inside⟩ := List.mem_flatMap.mp member
    have longest := within segment listed address inside
    have sum := List.single_le_sum segmentTimes _ (List.mem_map_of_mem listed)
    rw [zero_add]
    exact lt_of_le_of_lt (longest.trans sum) short
  · intro segment member nonempty
    obtain ⟨sequence, inside⟩ := List.exists_mem_of_ne_nil _ nonempty
    exact ⟨sequence, inside, sequenceTimes sequence (mem_sequences_of_mem member inside)⟩
  · exact totalsFit_of_nonneg le_rfl segmentTimes (by rwa [zero_add])

/-- The durations are right if every resource is counted in full and nothing overflows. For
ordinary resources there is no other case: without them what is counted too short in one place
may be made up for in another. -/
theorem durations_iff (rated : playlist.Rated) :
    (playlist.CountedInFull → playlist.Durations) ∧
      ((∀ resource ∈ playlist.resources, resource.Ordinary playlist.editRate) →
        (playlist.Durations ↔ playlist.CountedInFull)) :=
  ⟨durations_of_countedInFull rated.composition rated.tracks, fun ordinary =>
    ⟨countedInFull_of_durations rated ordinary,
      durations_of_countedInFull rated.composition rated.tracks⟩⟩

section Sample

def film : IMFCompositionPlaylist :=
  build "cpl.xml"
    { uuid := "cpl"
      header := .standard
      editRate := ⟨25, 1⟩
      segments := [⟨"segment", [
        ⟨"image", "v1", [standardResource "first" Sample.video ⟨25, 1⟩]⟩,
        ⟨"sound", "a1", [standardResource "second" Sample.audio ⟨25, 1⟩]⟩]⟩] }

theorem film_durations : film.Rated ∧ film.CountedInFull ∧ film.Durations := by
  have rated : film.Rated := by
    constructor
    · decide
    · decide
    · decide +kernel
  have full : film.CountedInFull := by
    constructor
    · intro resource listed
      apply CPLResource.Whole.countedInFull
      have resources : film.resources = [standardResource "first" Sample.video ⟨25, 1⟩,
          standardResource "second" Sample.audio ⟨25, 1⟩] := by decide
      rw [resources] at listed
      rcases List.mem_pair.mp listed with rfl | rfl
      · exact ⟨rfl, by decide, rfl, by decide, nofun⟩
      · exact ⟨rfl, by decide, rfl, by decide, fun _ => ⟨25, by decide +kernel, by decide⟩⟩
    · decide +kernel
    · decide +kernel
    · decide +kernel
  exact ⟨rated, full, (durations_iff rated).1 full⟩

def repeatTree : PTree :=
  let node (children : List (String × PTree)) := PTree.node "" children
  let leaf (text : String) := PTree.node text []
  let image := node
    [("<xmlattr>", node [("xsi:type", leaf "TrackFileResourceType")]),
      ("Id", leaf "urn:uuid:first"), ("IntrinsicDuration", leaf "50"), ("RepeatCount", leaf "2"),
      ("SourceEncoding", leaf "urn:uuid:video-descriptor"), ("TrackFileId", leaf "urn:uuid:video")]
  let sequenceNode := node [("Id", leaf "urn:uuid:image"), ("TrackId", leaf "urn:uuid:v1"),
    ("ResourceList", node [("Resource", image)])]
  let segment := node [("Id", leaf "urn:uuid:segment"),
    ("SequenceList", node [("imf:MainImageSequence", sequenceNode)])]
  node [("CompositionPlaylist", node
    [("Id", leaf "urn:uuid:cpl"), ("IssueDate", leaf "2017-03-01T21:56:47Z"),
      ("ContentTitle", leaf "title"), ("EditRate", leaf "25 1"),
      ("SegmentList", node [("Segment", segment)])])]

def repeated : PlaylistValue :=
  { uuid := "cpl"
    header := ⟨"", "", "", "", "", "2017-03-01T21:56:47Z", "title"⟩
    editRate := ⟨25, 1⟩
    segments := [⟨"segment", [⟨"image", "v1",
      [{ standardResource "first" Sample.video ⟨25, 1⟩ with repeatCount := 2 }]⟩]⟩] }

/-- The second time is not counted. -/
theorem repetition_lost : ∃ playlist,
    load "cpl.xml" repeatTree [Sample.video] = .ok playlist ∧ playlist.Rated ∧
      ¬playlist.Durations := by
  have read : readPlaylist repeatTree [Sample.video] = .ok repeated := by decide +kernel
  refine ⟨build "cpl.xml" repeated, ?_, ?_, ?_⟩
  · rw [load_eq, read, map_ok]
  · constructor
    · decide
    · decide
    · decide +kernel
  · intro right
    exact absurd right.frames (by decide)

/-- Audio is counted a unit too long where `float` has no digit left for the difference. -/
example : roundAway (toNearest 24 (toNearest 53
    (toNearest 53 (32768999 / (⟨48000, 1⟩ : RationalNumber).asDouble) *
      (⟨24, 1⟩ : RationalNumber).asDouble))) = 16385 ∧
    roundAway (32768999 / 48000 * 24) = 16384 := by decide +kernel

end Sample

end IMFCompositionPlaylist

end Imflib.Package
