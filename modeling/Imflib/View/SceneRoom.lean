import Imflib.View.Timeline

/-! The rectangles of a timeline have room as long as few resources are rounded up. -/

namespace Imflib.View

open Imflib.Package IMFCompositionPlaylist Placement

namespace CPLSequenceView

variable {view : CPLSequenceView}

theorem mem_scene (shown : view.Shown) {segmentRect : CPLSegmentRect}
    (member : segmentRect ∈ view.scene) :
    segmentRect.item ∈ view.compositionPlaylist.segments ∧
      segmentRect = appendSegment view.compositionPlaylist view.virtualTrackMap segmentRect.item := by
  rcases List.mem_iff_getElem?.mp member with ⟨position, found⟩
  exact shown.drawn found

theorem mem_sequences_scene (shown : view.Shown) {segmentRect : CPLSegmentRect}
    (member : segmentRect ∈ view.scene) {sequenceRect : CPLSequenceRect}
    (inside : sequenceRect ∈ segmentRect.sequences) :
    sequenceRect.sequence ∈ (view.compositionPlaylist.segment segmentRect.item).items ∧
      sequenceRect.resources = (view.compositionPlaylist.sequence sequenceRect.sequence).items := by
  rw [(mem_scene shown member).2] at inside
  rcases List.mem_map.mp inside with ⟨sequence, listed, rfl⟩
  exact ⟨listed, rfl⟩

theorem rows_nodup (shown : view.Shown) (sound : Sound view.compositionPlaylist)
    {segmentRect : CPLSegmentRect} (member : segmentRect ∈ view.scene) :
    (segmentRect.sequences.map CPLSequenceRect.trackIndex).Nodup := by
  obtain ⟨listed, drawn⟩ := mem_scene shown member
  have tracks : ((view.compositionPlaylist.segment segmentRect.item).items.map fun sequence =>
      (view.compositionPlaylist.sequence sequence).virtualTrackId).Nodup :=
    sound.onePerTrack segmentRect.item listed
  have rows : segmentRect.sequences.map CPLSequenceRect.trackIndex =
      ((view.compositionPlaylist.segment segmentRect.item).items.map fun sequence =>
        (view.compositionPlaylist.sequence sequence).virtualTrackId).map view.virtualTrackMap := by
    rw [drawn, appendSegment, List.map_map, List.map_map]
    rfl
  rw [rows]
  refine List.Nodup.map_on ?_ tracks
  intro first firstMember second secondMember same
  rcases List.mem_map.mp firstMember with ⟨sequence, inside, rfl⟩
  rcases List.mem_map.mp secondMember with ⟨other, otherInside, rfl⟩
  obtain ⟨track, found, -, carried⟩ := shown.track sound.indexed listed inside
  obtain ⟨otherTrack, otherFound, -, otherCarried⟩ := shown.track sound.indexed listed otherInside
  rw [same, otherFound] at found
  rw [carried, otherCarried, Option.some.inj found]

end CPLSequenceView

section Rounding

variable {resourceDuration : CPLResource → Int}

/-- A resource that is drawn longer than it is. -/
def RoundedUp (duration : Int) : Prop := 4 ≤ duration % 8

instance : DecidablePred RoundedUp := fun _ => inferInstanceAs (Decidable (_ ≤ _))

theorem pixels_rounded {duration : Int} (short : Short duration) :
    8 * pixels duration ≤ duration + if RoundedUp duration then 4 else 0 := by
  rw [pixels_eq short]
  unfold RoundedUp
  split_ifs <;> omega

/-- A sequence is drawn at most half a pixel longer for each resource that is rounded up. -/
theorem total_rounded {resources : List CPLResource}
    (short : ∀ resource ∈ resources, Short (resourceDuration resource)) :
    8 * total (fun resource => pixels (resourceDuration resource)) resources ≤
      (resources.map resourceDuration).sum +
        4 * resources.countP fun resource => RoundedUp (resourceDuration resource) := by
  induction resources with
  | nil => simp [total]
  | cons resource rest ih =>
      have first := pixels_rounded (short resource List.mem_cons_self)
      have others := ih fun other member => short other (List.mem_cons_of_mem _ member)
      rw [List.countP_cons, List.map_cons, List.sum_cons]
      have split : total (fun resource => pixels (resourceDuration resource)) (resource :: rest) =
          pixels (resourceDuration resource) +
            total (fun resource => pixels (resourceDuration resource)) rest := List.sum_cons
      rw [split]
      simp only [decide_eq_true_eq] at others ⊢
      split_ifs at first ⊢ <;> push_cast <;> omega

end Rounding

namespace CPLSequenceView

/-- A playlist that a `float` can measure. None of its resources runs backwards, and of each sequence
at most three are rounded up. -/
structure Measured (view : CPLSequenceView) : Prop where
  frames : ∃ frames, view.compositionPlaylist.getDurationInFrames = some frames ∧ frames < 2 ^ 24
  forwards : ∀ resource ∈ view.compositionPlaylist.resources, 0 ≤ resourceDuration resource
  rounded : ∀ address ∈ view.compositionPlaylist.sequences,
    ((view.compositionPlaylist.sequence address).items.countP fun resource =>
      RoundedUp (resourceDuration resource)) ≤ 3

namespace Measured

variable {view : CPLSequenceView}

theorem segment (measured : view.Measured) {address : Nat}
    (member : address ∈ view.compositionPlaylist.segments) :
    ∃ duration, view.compositionPlaylist.getSegmentDuration address = some duration ∧
      Short duration := by
  rcases measured.frames with ⟨frames, added, short⟩
  have nonneg : ∀ duration ∈ view.compositionPlaylist.segments.map fun address =>
      (view.compositionPlaylist.getSegmentDuration address).getD 0, 0 ≤ duration := by
    intro duration inside
    rcases List.mem_map.mp inside with ⟨other, listed, rfl⟩
    rcases some_of_addUp added other listed with ⟨duration, found⟩
    rw [found, Option.getD_some]
    exact (le_longest found).1
  rcases some_of_addUp added address member with ⟨duration, found⟩
  have bound := List.single_le_sum nonneg _ (List.mem_map_of_mem member)
  have sum := sum_of_addUp added 0
  rw [found, Option.getD_some] at bound
  have start := (le_longest found).1
  exact ⟨duration, found, start, by omega⟩

theorem sequence (measured : view.Measured) {segment address : Nat} {duration : Int}
    (member : segment ∈ view.compositionPlaylist.segments)
    (inside : address ∈ (view.compositionPlaylist.segment segment).items)
    (found : view.compositionPlaylist.getSegmentDuration segment = some duration) :
    ((view.compositionPlaylist.sequence address).items.map resourceDuration).sum ≤ duration ∧
      ∀ resource ∈ (view.compositionPlaylist.sequence address).items,
        0 ≤ resourceDuration resource ∧ resourceDuration resource ≤ duration := by
  rcases (le_longest found).2 address inside with ⟨length, added, bound⟩
  have sum : length = 0 +
      ((view.compositionPlaylist.sequence address).items.map resourceDuration).sum :=
    sum_of_addUp added 0
  have nonneg : ∀ resource ∈ (view.compositionPlaylist.sequence address).items,
      0 ≤ resourceDuration resource := fun resource among =>
    measured.forwards resource (mem_resources_of_mem (mem_sequences_of_mem member inside) among)
  refine ⟨by omega, fun resource among => ⟨nonneg resource among, ?_⟩⟩
  have part : resourceDuration resource ≤
      ((view.compositionPlaylist.sequence address).items.map resourceDuration).sum := by
    apply List.single_le_sum
    · intro amount listed
      rcases List.mem_map.mp listed with ⟨other, otherAmong, rfl⟩
      exact nonneg other otherAmong
    · exact List.mem_map_of_mem among
  omega

theorem roomInScene (measured : view.Measured) (shown : view.Shown)
    (sound : Sound view.compositionPlaylist) :
    RoomInScene view.segmentDuration resourceDuration view.scene := by
  have segments : ∀ segmentRect ∈ view.scene, Short (view.segmentDuration segmentRect) := by
    intro segmentRect member
    rcases measured.segment (mem_scene shown member).1 with ⟨duration, found, short⟩
    rwa [segmentDuration, found]
  have resources : ∀ segmentRect ∈ view.scene, ∀ sequenceRect ∈ segmentRect.sequences,
      ∀ resource ∈ sequenceRect.resources, Short (resourceDuration resource) := by
    intro segmentRect member sequenceRect inside resource among
    obtain ⟨listed, same⟩ := mem_sequences_scene shown member inside
    rcases measured.segment (mem_scene shown member).1 with ⟨duration, found, short⟩
    rw [same] at among
    obtain ⟨nonneg, bound⟩ :=
      (measured.sequence (mem_scene shown member).1 listed found).2 resource among
    exact ⟨nonneg, bound.trans_lt short.2⟩
  refine ⟨segments, resources, ?_, fun segmentRect member => rows_nodup shown sound member⟩
  intro segmentRect member sequenceRect inside
  obtain ⟨listed, same⟩ := mem_sequences_scene shown member inside
  have segmentMember := (mem_scene shown member).1
  rcases measured.segment segmentMember with ⟨duration, found, short⟩
  have rounding := total_rounded (resources segmentRect member sequenceRect inside)
  have few := measured.rounded sequenceRect.sequence (mem_sequences_of_mem segmentMember listed)
  have fits := (measured.sequence segmentMember listed found).1
  rw [same] at rounding ⊢
  have drawn : view.segmentDuration segmentRect = duration := by
    rw [segmentDuration, found, Option.getD_some]
  rw [drawn, pixels_eq short]
  omega

end Measured

end CPLSequenceView

namespace Timeline

/-- Whatever the user has done, a track can be attached to at most one resource, and to at most one
segment, at each point. -/
theorem target_unique {start timeline : Timeline} (started : start.Started)
    (reached : Transition.Reachable Step start timeline) (measured : timeline.view.Measured)
    {r other : RenderRect} (member : r ∈ timeline.drag.rects)
    (otherMember : other ∈ timeline.drag.rects) (kind : r.key.isSegment = other.key.isSegment)
    {x y : Int} (inside : r.inArea x y)
    (otherInside : other.inArea x y) : r.toSceneItem = other.toSceneItem := by
  obtain ⟨⟨height, same⟩, edited⟩ := drawn_and_edited started reached
  obtain ⟨shown, sound⟩ := CPLSequenceView.shown_and_sound started.view edited
  have item {r : RenderRect} (member : r ∈ timeline.drag.rects) :
      r.toSceneItem ∈ timeline.view.items height := by
    rw [← same]
    exact List.mem_map_of_mem member
  exact eq_of_inArea (measured.roomInScene shown sound) (item member) (item otherMember) kind inside
    otherInside

theorem measured_firstView : CPLSequenceView.firstView.Measured :=
  ⟨⟨50, rfl, by decide⟩, by decide, by decide⟩

theorem target_unique_video : ∃ r ∈ firstTimeline.drag.rects, r.inArea 4 10 ∧
    ∀ other ∈ firstTimeline.drag.rects, r.key.isSegment = other.key.isSegment →
      other.inArea 4 10 → r.toSceneItem = other.toSceneItem := by
  have member : RenderRect.painted ⟨.resource 0 0 0, ⟨0, 3, 5, 31⟩⟩ ∈ firstTimeline.drag.rects := by
    decide +kernel
  have inside : SceneItem.inArea ⟨.resource 0 0 0, ⟨0, 3, 5, 31⟩⟩ 4 10 := .inl (by decide +kernel)
  exact ⟨_, member, inside, fun other otherMember kind otherInside =>
    target_unique started_newTimeline reached_firstTimeline measured_firstView member otherMember
      kind inside otherInside⟩

end Timeline

end Imflib.View
