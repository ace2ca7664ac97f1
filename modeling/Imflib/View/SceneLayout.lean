import Imflib.View.Scene
import Imflib.View.WellFormed

/-! The rectangles of the timeline do not get in each other's way, as long as rounding does not push
resources over the end of their segment. -/

namespace Imflib.View

open Imflib.Package BinaryFloat Placement

section Members

variable {segmentDuration : CPLSegmentRect → Int} {resourceDuration : CPLResource → Int}
  {viewHeight : Int} {scene : List CPLSegmentRect} {item : SceneItem}

theorem mem_mapIdx_iff {α β : Type} {f : Nat → α → β} {items : List α} {b : β} :
    b ∈ items.mapIdx f ↔ ∃ (i : Nat) (a : α), items[i]? = some a ∧ f i a = b := by
  rw [List.mem_mapIdx]
  constructor
  · rintro ⟨i, inside, same⟩
    exact ⟨i, items[i], List.getElem?_eq_getElem inside, same⟩
  · rintro ⟨i, a, found, same⟩
    rcases List.getElem?_eq_some_iff.mp found with ⟨inside, rfl⟩
    exact ⟨i, inside, same⟩

theorem getElem?_of_place {α : Type} {size : α → Int} {start : Int} {items : List α} {i : Nat}
    {placed : Int × α} (found : (place size start items)[i]? = some placed) :
    items[i]? = some placed.2 := by
  have mapped := congrArg (·[i]?) (@map_place α size start items)
  simp only [List.getElem?_map, found, Option.map_some] at mapped
  exact mapped.symm

theorem mem_sequenceItems {segment sequence : Nat} {x : Int} {sequenceRect : CPLSequenceRect} :
    item ∈ sequenceItems resourceDuration segment x sequence sequenceRect ↔
      ∃ (index : Nat) (placed : Int × CPLResource),
        (place (fun resource => pixels (resourceDuration resource)) 0
          sequenceRect.resources)[index]? = some placed ∧
        resourceItem resourceDuration segment sequence x sequenceRect.trackIndex index placed = item :=
  mem_mapIdx_iff

theorem mem_segmentItems {segment : Nat} {placed : Int × CPLSegmentRect} :
    item ∈ segmentItems segmentDuration resourceDuration viewHeight segment placed ↔
      item = ⟨.segment segment, ⟨placed.1, 0, pixels (segmentDuration placed.2), viewHeight⟩⟩ ∨
        ∃ (sequence : Nat) (sequenceRect : CPLSequenceRect),
          placed.2.sequences[sequence]? = some sequenceRect ∧
          item ∈ sequenceItems resourceDuration segment placed.1 sequence sequenceRect := by
  rw [segmentItems, List.mem_cons, List.mem_flatten]
  refine or_congr_right ⟨?_, ?_⟩
  · rintro ⟨items, member, inside⟩
    rcases mem_mapIdx_iff.mp member with ⟨sequence, sequenceRect, found, rfl⟩
    exact ⟨sequence, sequenceRect, found, inside⟩
  · rintro ⟨sequence, sequenceRect, found, inside⟩
    exact ⟨_, mem_mapIdx_iff.mpr ⟨sequence, sequenceRect, found, rfl⟩, inside⟩

theorem mem_sceneItems :
    item ∈ sceneItems segmentDuration resourceDuration viewHeight scene ↔
      ∃ (segment : Nat) (placed : Int × CPLSegmentRect),
        (place (fun segment => pixels (segmentDuration segment) + 1) 0 scene)[segment]? = some placed ∧
        item ∈ segmentItems segmentDuration resourceDuration viewHeight segment placed := by
  rw [sceneItems, List.mem_reverse, paintedItems, List.mem_flatten]
  constructor
  · rintro ⟨items, member, inside⟩
    rcases mem_mapIdx_iff.mp member with ⟨segment, placed, found, rfl⟩
    exact ⟨segment, placed, found, inside⟩
  · rintro ⟨segment, placed, found, inside⟩
    exact ⟨_, mem_mapIdx_iff.mpr ⟨segment, placed, found, rfl⟩, inside⟩

end Members

section Pixels

/-- Durations that a `float` holds exactly. -/
def Short (duration : Int) : Prop := 0 ≤ duration ∧ duration < 2 ^ 24

theorem toNearest_intCast {n : Int} (nonneg : 0 ≤ n) (small : n < 2 ^ 24) :
    toNearest 24 (n : ℚ) = n := by
  have exact_ := @toNearest_of_grid 24 0 n (by
    rw [zpow_zero, mul_one, add_zero, abs_of_nonneg (by exact_mod_cast nonneg)]
    exact_mod_cast small)
  rwa [zpow_zero, mul_one] at exact_

theorem pixels_eq {duration : Int} (short : Short duration) : pixels duration = (duration + 4) / 8 := by
  rw [pixels, toNearest_intCast short.1 short.2, zoomFactor, roundAway, if_pos (by
    have nonneg : (0 : ℚ) ≤ duration := by exact_mod_cast short.1
    positivity)]
  have sum : (duration : ℚ) / 8 + 1 / 2 = ((duration + 4 : ℤ) : ℚ) / ((8 : ℕ) : ℚ) := by
    push_cast
    ring
  rw [sum, Rat.floor_intCast_div_natCast]
  rfl

theorem single_quarters {n : Int} (nonneg : 0 ≤ n) (small : n < 2 ^ 24) :
    single ((n : ℚ) / 4) = n / 4 := by
  have wide : (n : ℚ) < 2 ^ 24 := by exact_mod_cast small
  have positive : (0 : ℚ) ≤ n := by exact_mod_cast nonneg
  have grid : (n : ℚ) / 4 = n * 2 ^ (-2 : ℤ) := by
    rw [zpow_neg]
    ring
  have exact_ : toNearest 24 ((n : ℚ) / 4) = n / 4 := by
    rw [grid]
    apply toNearest_of_grid
    rw [← grid, abs_of_nonneg (by positivity)]
    calc (n : ℚ) / 4 < 2 ^ 22 := by linarith
      _ = 2 ^ (((24 : ℕ) : ℤ) + -2) := by norm_num
  rw [single, exact_, truncate, if_pos (by positivity)]
  exact Rat.floor_intCast_div_natCast n 4

theorem single_intCast {n : Int} (nonneg : 0 ≤ n) (small : n < 2 ^ 24) : single (n : ℚ) = n := by
  rw [single, toNearest_intCast nonneg small, truncate, if_pos (by exact_mod_cast nonneg),
    Int.floor_intCast]

theorem single_minus {n : Int} (least : -4 < n) (most : n < 0) : single ((n : ℚ) / 4) = 0 := by
  have negative : (n : ℚ) < 0 := by exact_mod_cast most
  have close : (-4 : ℚ) < n := by exact_mod_cast least
  have grid : (n : ℚ) / 4 = n * 2 ^ (-2 : ℤ) := by
    rw [zpow_neg]
    ring
  have exact_ : toNearest 24 ((n : ℚ) / 4) = n / 4 := by
    rw [grid]
    apply toNearest_of_grid
    rw [← grid, abs_of_neg (by linarith)]
    calc -((n : ℚ) / 4) < 1 := by linarith
      _ ≤ 2 ^ (((24 : ℕ) : ℤ) + -2) := by norm_num
  rw [single, exact_, truncate, if_neg (by linarith)]
  apply Int.ceil_eq_zero_iff.mpr
  constructor
  · linarith
  · linarith

/-- Widths of which a `float` holds each quarter. -/
def Narrow (width : Int) : Prop := -1 ≤ width ∧ width < 2 ^ 22

theorem rightStart {width : Int} (narrow : Narrow width) :
    single (intersectWidth * width) = if width < 0 then 0 else 3 * width / 4 := by
  have quarters : intersectWidth * (width : ℚ) = ((3 * width : ℤ) : ℚ) / 4 := by
    rw [intersectWidth]
    push_cast
    ring
  have bounds := narrow
  unfold Narrow at bounds
  rw [quarters]
  split
  · exact single_minus (by omega) (by omega)
  · exact single_quarters (by omega) (by omega)

theorem areaWidth {width : Int} (narrow : Narrow width) :
    single ((1 - intersectWidth) * width) = if width < 0 then 0 else width / 4 := by
  have quarters : (1 - intersectWidth) * (width : ℚ) = (width : ℚ) / 4 := by
    rw [intersectWidth]
    ring
  have bounds := narrow
  unfold Narrow at bounds
  rw [quarters]
  split
  · exact single_minus (by omega) (by omega)
  · exact single_quarters (by omega) (by omega)

theorem spans_iff {start extent at_ : Int} (forwards : 0 ≤ extent) :
    spans start extent at_ = true ↔ extent ≠ 0 ∧ start ≤ at_ ∧ at_ ≤ start + extent := by
  rw [spans, if_neg (by omega), decide_eq_true_iff]

end Pixels

namespace SceneItem

variable {item : SceneItem} {x y : Int}

theorem right_bounds (narrow : Narrow item.rect.width) (inside : item.inRight x y = true) :
    4 ≤ item.rect.width ∧ item.rect.x + 3 * item.rect.width / 4 ≤ x ∧
      x ≤ item.rect.x + item.rect.width ∧
      spans item.rect.y (single item.rect.height) y = true := by
  unfold inRight mapToScene rightIntersectionRect SceneRect.moveBy SceneRect.contains at inside
  rw [Bool.and_eq_true, rightStart narrow, areaWidth narrow, Int.zero_add] at inside
  obtain ⟨across, down⟩ := inside
  dsimp only at across down
  split at across
  · rw [spans_iff (by omega)] at across
    omega
  · rw [spans_iff (by omega)] at across
    refine ⟨?_, ?_, ?_, down⟩ <;> omega

theorem left_bounds (narrow : Narrow item.rect.width) (inside : item.inLeft x y = true) :
    4 ≤ item.rect.width ∧ item.rect.x ≤ x ∧ x < item.rect.x + 3 * item.rect.width / 4 ∧
      spans item.rect.y (single item.rect.height) y = true := by
  unfold inLeft mapToScene leftIntersectionRect SceneRect.moveBy SceneRect.contains at inside
  rw [Bool.and_eq_true, areaWidth narrow, Int.zero_add, Int.zero_add] at inside
  obtain ⟨across, down⟩ := inside
  dsimp only at across down
  split at across
  · rw [spans_iff (by omega)] at across
    omega
  · rw [spans_iff (by omega)] at across
    refine ⟨?_, ?_, ?_, down⟩ <;> omega

end SceneItem

def SceneItem.inArea (item : SceneItem) (x y : Int) : Prop :=
  item.inRight x y = true ∨ item.inLeft x y = true

theorem SceneItem.area_bounds {item : SceneItem} {x y : Int} (narrow : Narrow item.rect.width)
    (inside : item.inArea x y) : item.rect.x ≤ x ∧ x ≤ item.rect.x + item.rect.width ∧
      spans item.rect.y (single item.rect.height) y = true := by
  rcases inside with right | left
  · obtain ⟨wide, start, stop, down⟩ := right_bounds narrow right
    refine ⟨?_, stop, down⟩
    omega
  · obtain ⟨wide, start, stop, down⟩ := left_bounds narrow left
    refine ⟨start, ?_, down⟩
    omega

/-- What the rectangles of the timeline need: durations that a `float` holds, segments as wide as
their sequences, up to a pixel, and in a segment one sequence for each track. -/
structure RoomInScene (segmentDuration : CPLSegmentRect → Int) (resourceDuration : CPLResource → Int)
    (scene : List CPLSegmentRect) : Prop where
  segments : ∀ segment ∈ scene, Short (segmentDuration segment)
  resources : ∀ segment ∈ scene, ∀ sequence ∈ segment.sequences, ∀ resource ∈ sequence.resources,
    Short (resourceDuration resource)
  room : ∀ segment ∈ scene, ∀ sequence ∈ segment.sequences,
    total (fun resource => pixels (resourceDuration resource)) sequence.resources ≤
      pixels (segmentDuration segment) + 1
  rows : ∀ segment ∈ scene, (segment.sequences.map CPLSequenceRect.trackIndex).Nodup

theorem pixels_bounds {duration : Int} (short : Short duration) :
    0 ≤ pixels duration ∧ pixels duration < 2 ^ 22 := by
  rw [pixels_eq short]
  unfold Short at short
  omega

namespace RoomInScene

variable {segmentDuration : CPLSegmentRect → Int} {resourceDuration : CPLResource → Int}
  {viewHeight : Int} {scene : List CPLSegmentRect} {x y : Int}

theorem nonneg_segments (room : RoomInScene segmentDuration resourceDuration scene) :
    ∀ segment ∈ scene, 0 ≤ pixels (segmentDuration segment) + 1 := by
  intro segment member
  have bounds := pixels_bounds (room.segments segment member)
  omega

theorem segment_inside (room : RoomInScene segmentDuration resourceDuration scene)
    {segment : Nat} {placed : Int × CPLSegmentRect}
    (found : (place (fun segment => pixels (segmentDuration segment) + 1) 0 scene)[segment]? =
      some placed)
    (inside : SceneItem.inArea ⟨.segment segment,
      ⟨placed.1, 0, pixels (segmentDuration placed.2), viewHeight⟩⟩ x y) :
    placed.1 ≤ x ∧ x < placed.1 + (pixels (segmentDuration placed.2) + 1) := by
  have member := List.mem_of_getElem? (getElem?_of_place found)
  have bounds := pixels_bounds (room.segments placed.2 member)
  have narrow : Narrow (pixels (segmentDuration placed.2)) := ⟨by omega, bounds.2⟩
  have within := SceneItem.area_bounds narrow inside
  dsimp only at within
  omega

theorem nonneg_resources (room : RoomInScene segmentDuration resourceDuration scene)
    {segment : CPLSegmentRect} (member : segment ∈ scene) {sequence : CPLSequenceRect}
    (inside : sequence ∈ segment.sequences) :
    ∀ resource ∈ sequence.resources, 0 ≤ pixels (resourceDuration resource) :=
  fun resource among => (pixels_bounds (room.resources segment member sequence inside resource among)).1

theorem resource_inside (room : RoomInScene segmentDuration resourceDuration scene)
    {segment sequence index : Nat} {start : Int} {segmentRect : CPLSegmentRect}
    {sequenceRect : CPLSequenceRect} {placed : Int × CPLResource}
    (member : segmentRect ∈ scene) (listed : sequenceRect ∈ segmentRect.sequences)
    (found : (place (fun resource => pixels (resourceDuration resource)) 0
      sequenceRect.resources)[index]? = some placed)
    (inside : (resourceItem resourceDuration segment sequence start sequenceRect.trackIndex index
      placed).inArea x y) :
    (start ≤ x ∧ x < start + (pixels (segmentDuration segmentRect) + 1)) ∧
      (placed.1 ≤ x - start ∧ x - start < placed.1 + pixels (resourceDuration placed.2)) ∧
      y / heightPerTrack = sequenceRect.trackIndex := by
  have nonneg := room.nonneg_resources member listed
  have short := room.resources segmentRect member sequenceRect listed placed.2
    (List.mem_of_getElem? (getElem?_of_place found))
  have bounds := pixels_bounds short
  have narrow : Narrow (pixels (resourceDuration placed.2) - 1) := ⟨by omega, by omega⟩
  obtain ⟨left, right, down⟩ := SceneItem.area_bounds narrow inside
  have placedInside := inside_of_mem nonneg (List.mem_of_getElem? found)
  have fits := room.room segmentRect member sequenceRect listed
  have height : single ((heightPerTrack - 5 : ℤ) : ℚ) = 31 := single_intCast (by decide) (by decide)
  unfold resourceItem at left right down
  dsimp only at left right down
  rw [height, spans_iff (by decide)] at down
  have row : heightPerTrack = 36 := rfl
  rw [row] at down ⊢
  refine ⟨?_, ?_, ?_⟩ <;> omega

end RoomInScene

/-- Of each kind there is at most one item to which a track can be attached at a point. -/
theorem eq_of_inArea {segmentDuration : CPLSegmentRect → Int} {resourceDuration : CPLResource → Int}
    {viewHeight : Int} {scene : List CPLSegmentRect} {x y : Int}
    (room : RoomInScene segmentDuration resourceDuration scene) {item other : SceneItem}
    (member : item ∈ sceneItems segmentDuration resourceDuration viewHeight scene)
    (otherMember : other ∈ sceneItems segmentDuration resourceDuration viewHeight scene)
    (kind : item.key.isSegment = other.key.isSegment) (inside : item.inArea x y)
    (otherInside : other.inArea x y) : item = other := by
  rcases mem_sceneItems.mp member with ⟨s, placed, found, inSegment⟩
  rcases mem_sceneItems.mp otherMember with ⟨s', placed', found', inSegment'⟩
  have inScene := List.mem_of_getElem? (getElem?_of_place found)
  have inScene' := List.mem_of_getElem? (getElem?_of_place found')
  rcases mem_segmentItems.mp inSegment with rfl | ⟨q, sequenceRect, listed, inSequence⟩
  · rcases mem_segmentItems.mp inSegment' with rfl | ⟨q', sequenceRect', listed', inSequence'⟩
    · have same := eq_of_inside room.nonneg_segments found found' (room.segment_inside found inside)
        (room.segment_inside found' otherInside)
      subst same
      cases Option.some.inj (found.symm.trans found')
      rfl
    · rcases mem_sequenceItems.mp inSequence' with ⟨r', placedResource', foundResource', rfl⟩
      cases kind
  · rcases mem_sequenceItems.mp inSequence with ⟨r, placedResource, foundResource, rfl⟩
    rcases mem_segmentItems.mp inSegment' with rfl | ⟨q', sequenceRect', listed', inSequence'⟩
    · cases kind
    · rcases mem_sequenceItems.mp inSequence' with ⟨r', placedResource', foundResource', rfl⟩
      have among := List.mem_of_getElem? listed
      have among' := List.mem_of_getElem? listed'
      obtain ⟨across, place, row⟩ := room.resource_inside inScene among foundResource inside
      obtain ⟨across', place', row'⟩ := room.resource_inside inScene' among' foundResource' otherInside
      have sameSegment := eq_of_inside room.nonneg_segments found found' across across'
      subst sameSegment
      cases Option.some.inj (found.symm.trans found')
      have sameRow : sequenceRect.trackIndex = sequenceRect'.trackIndex := row.symm.trans row'
      have sameSequence : q = q' := by
        have unique := room.rows placed.2 inScene
        have mapped (i : Nat) (rect : CPLSequenceRect) (here : placed.2.sequences[i]? = some rect) :
            (placed.2.sequences.map CPLSequenceRect.trackIndex)[i]? = some rect.trackIndex := by
          rw [List.getElem?_map, here, Option.map_some]
        have first := mapped q sequenceRect listed
        rw [sameRow, ← mapped q' sequenceRect' listed'] at first
        have bound := (List.getElem?_eq_some_iff.mp (mapped q sequenceRect listed)).1
        exact (List.getElem?_inj bound unique).mp first
      subst sameSequence
      cases Option.some.inj (listed.symm.trans listed')
      have sameResource := eq_of_inside (room.nonneg_resources inScene among) foundResource
        foundResource' place place'
      subst sameResource
      cases Option.some.inj (foundResource.symm.trans foundResource')
      rfl

end Imflib.View
