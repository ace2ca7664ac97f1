import Imflib.View.DropTarget
import Imflib.View.SceneLayout

/-! The timeline as the user sees it: a view, what is drawn of it, and the drag that goes on over
it. Everything the pointer does to it is an action of the view. -/

namespace Imflib.View

open Imflib.Package BinaryFloat

namespace CPLSequenceView

variable (view : CPLSequenceView)

/-- A duration that is not defined is not drawn, see `painted`. -/
def segmentDuration (segmentRect : CPLSegmentRect) : Int :=
  (view.compositionPlaylist.getSegmentDuration segmentRect.item).getD 0

def resourceDuration (resource : CPLResource) : Int := resource.getNormalizedSourceDuration.getD 0

def items (height : Int) : List SceneItem :=
  sceneItems view.segmentDuration resourceDuration height view.scene

/-- What is drawn of a playlist, on a widget of some height. All durations are computed first. -/
def painted (height : Int) : Option (List RenderRect) :=
  if view.compositionPlaylist.getDurationInFrames.isSome then
    some ((view.items height).map RenderRect.painted)
  else none

end CPLSequenceView

structure Timeline where
  view : CPLSequenceView
  drag : DragState
  height : Int

/-- What the user does. A drop makes identifiers, and the menu of a resource can delete it. -/
inductive TimelineEvent where
  | drag (event : DragEvent)
  | scroll (x y : Int)
  | resize (height : Int)
  | drop (pointer : Pointer) (made : MadeUUIDs)
  | delete (segment sequence resource : Nat)

namespace Timeline

variable (timeline : Timeline)

/-- `CompositionPlaylistChanged`, for a playlist that the view shows already. -/
def repaint (view : CPLSequenceView) : Option Timeline :=
  (view.painted timeline.height).map fun rects =>
    { timeline with view := view, drag := { timeline.drag with rects := rects, dragged := none } }

def handle : TimelineEvent → Option Timeline
  | .drag event =>
      (timeline.drag.handle timeline.view.compositionPlaylist.editRate event).map fun drag =>
        { timeline with drag := drag }
  | .scroll x y => some { timeline with drag := { timeline.drag with scrollX := x, scrollY := y } }
  | .resize height => some { timeline with height := height }
  | .drop pointer made =>
      match timeline.drag.drop timeline.view.compositionPlaylist pointer made with
      | none => some { timeline with drag := { timeline.drag with dragged := none } }
      | some action => (timeline.view.perform action).bind timeline.repaint
  | .delete segment sequence resource =>
      (timeline.view.perform (.deleteResource segment sequence resource)).bind timeline.repaint

def Possible : TimelineEvent → Prop
  | .drop _ made => Fresh timeline.view.compositionPlaylist made
  | .delete segment sequence resource =>
      timeline.drag.dragged = none ∧
        (timeline.view.resourceAt segment sequence resource).isSome = true
  | _ => True

def Step (timeline : Timeline) (event : TimelineEvent) (next : Timeline) : Prop :=
  timeline.Possible event ∧ timeline.handle event = some next

structure Started : Prop where
  view : CPLSequenceView.Started timeline.view
  painted : timeline.view.painted timeline.height = some timeline.drag.rects
  idle : timeline.drag.dragged = none

/-- The rectangles are those of the view. -/
def Drawn : Prop :=
  ∃ height, timeline.drag.rects.map RenderRect.toSceneItem = timeline.view.items height

end Timeline

namespace CPLSequenceView

variable {view : CPLSequenceView}

def Shows (view : CPLSequenceView) : ItemKey → Prop
  | .segment segment => segment < view.scene.length
  | .resource segment sequence resource =>
      (view.resourceAt segment sequence resource).isSome = true

theorem shows_of_mem {height : Int} {item : SceneItem} (member : item ∈ view.items height) :
    view.Shows item.key := by
  rcases mem_sceneItems.mp member with ⟨segment, placed, found, inSegment⟩
  have inScene := getElem?_of_place found
  rcases mem_segmentItems.mp inSegment with rfl | ⟨sequence, sequenceRect, listed, inSequence⟩
  · exact (List.getElem?_eq_some_iff.mp inScene).1
  · rcases mem_sequenceItems.mp inSequence with ⟨resource, placedResource, foundResource, rfl⟩
    have shown : view.resourceAt segment sequence resource =
        some (placed.2, sequenceRect, placedResource.2) := by
      simp only [resourceAt, inScene, listed, getElem?_of_place foundResource,
        Option.bind_eq_bind, Option.bind_some, Option.pure_def]
    exact Option.isSome_iff_exists.mpr ⟨_, shown⟩

variable {r : RenderRect} {pointer : Pointer} {track : IMFTrack} {made : MadeUUIDs} {action : Action}

theorem enabled_of_beside (shows : view.Shows r.key) (fresh : Fresh view.compositionPlaylist made)
    {append : Bool} (found : r.beside pointer track made append = some action) :
    view.Enabled action := by
  unfold RenderRect.beside at found
  cases key : r.key with
  | segment segment =>
      rw [key] at shows found
      dsimp only at found
      split_ifs at found
      cases found
      exact ⟨shows, fresh⟩
  | resource segment sequence resource =>
      rw [key] at shows found
      dsimp only at found
      split_ifs at found
      cases found
      exact shows

theorem enabled_of_attach (shows : view.Shows r.key) (fresh : Fresh view.compositionPlaylist made)
    (found : r.attach pointer track made = some action) : view.Enabled action := by
  unfold RenderRect.attach at found
  split_ifs at found
  · exact enabled_of_beside shows fresh found
  · exact enabled_of_beside shows fresh found

theorem enabled_of_addInside (shows : view.Shows r.key)
    (fresh : Fresh view.compositionPlaylist made) {x y : Int}
    (found : r.addInside pointer x y track made = some action) : view.Enabled action := by
  unfold RenderRect.addInside at found
  cases key : r.key with
  | segment segment =>
      rw [key] at shows found
      dsimp only at found
      split_ifs at found
      cases found
      exact ⟨shows, fresh⟩
  | resource segment sequence resource =>
      rw [key] at found
      cases found

end CPLSequenceView

namespace Timeline

variable {timeline next : Timeline}

theorem Drawn.shows (drawn : timeline.Drawn) {r : RenderRect} (member : r ∈ timeline.drag.rects) :
    timeline.view.Shows r.key := by
  rcases drawn with ⟨height, same⟩
  have inside : r.toSceneItem ∈ timeline.view.items height := by
    rw [← same]
    exact List.mem_map_of_mem member
  exact CPLSequenceView.shows_of_mem inside

theorem Drawn.enabled_of_drop (drawn : timeline.Drawn) {pointer : Pointer} {made : MadeUUIDs}
    (fresh : Fresh timeline.view.compositionPlaylist made) {action : Action}
    (dropped : timeline.drag.drop timeline.view.compositionPlaylist pointer made = some action) :
    timeline.view.Enabled action := by
  unfold DragState.drop at dropped
  cases dragged : timeline.drag.dragged with
  | none =>
      rw [dragged] at dropped
      cases dropped
  | some track =>
      rw [dragged] at dropped
      dsimp only at dropped
      split_ifs at dropped with empty
      · cases dropped
        exact ⟨List.isEmpty_iff.mp empty, fresh⟩
      · rcases Option.or_eq_some_iff.mp dropped with attached | ⟨-, added⟩
        · rcases List.exists_of_findSome?_eq_some attached with ⟨r, member, found⟩
          exact CPLSequenceView.enabled_of_attach (drawn.shows member) fresh found
        · rcases List.exists_of_findSome?_eq_some added with ⟨r, member, found⟩
          exact CPLSequenceView.enabled_of_addInside (drawn.shows member) fresh found

theorem drawn_of_painted (height : Int) (painted : timeline.view.painted height =
    some timeline.drag.rects) : timeline.Drawn := by
  unfold CPLSequenceView.painted at painted
  split_ifs at painted
  refine ⟨height, ?_⟩
  rw [← Option.some.inj painted, List.map_map]
  exact List.map_id _

theorem toSceneItem_handle {drag entered : DragState} {editRate : RationalNumber}
    {event : DragEvent} (handled : drag.handle editRate event = some entered) :
    entered.rects.map RenderRect.toSceneItem = drag.rects.map RenderRect.toSceneItem := by
  cases event with
  | enter track =>
      obtain ⟨_, -, rfl⟩ := Option.map_eq_some_iff.mp handled
      rfl
  | move pointer =>
      cases Option.some.inj handled
      rw [DragState.dragMove]
      cases drag.dragged with
      | none => rfl
      | some track =>
          rw [List.map_map]
          exact List.map_congr_left fun r _ => RenderRect.toSceneItem_moved
  | leave =>
      cases Option.some.inj handled
      rw [DragState.dragLeave, List.map_map]
      refine List.map_congr_left fun r _ => ?_
      rw [Function.comp_apply, RenderRect.left]
      split_ifs <;> rfl

theorem repaint_spec {view : CPLSequenceView} (repainted : timeline.repaint view = some next) :
    next.view = view ∧ next.Drawn := by
  rcases Option.map_eq_some_iff.mp repainted with ⟨rects, painted, rfl⟩
  exact ⟨rfl, drawn_of_painted timeline.height painted⟩

/-- One step is nothing for the view, or one of its actions. -/
theorem step_spec (drawn : timeline.Drawn) {event : TimelineEvent} (step : timeline.Step event next) :
    next.Drawn ∧ (next.view = timeline.view ∨
      ∃ action, CPLSequenceView.Step timeline.view action next.view) := by
  obtain ⟨possible, handled⟩ := step
  cases event with
  | drag event =>
      obtain ⟨drag, entered, rfl⟩ := Option.map_eq_some_iff.mp handled
      rcases drawn with ⟨height, same⟩
      exact ⟨⟨height, (toSceneItem_handle entered).trans same⟩, .inl rfl⟩
  | scroll x y =>
      cases Option.some.inj handled
      exact ⟨drawn, .inl rfl⟩
  | resize height =>
      cases Option.some.inj handled
      exact ⟨drawn, .inl rfl⟩
  | drop pointer made =>
      cases dropped : timeline.drag.drop timeline.view.compositionPlaylist pointer made with
      | none =>
          rw [handle, dropped] at handled
          cases Option.some.inj handled
          exact ⟨drawn, .inl rfl⟩
      | some action =>
          rw [handle, dropped] at handled
          rcases Option.bind_eq_some_iff.mp handled with ⟨view, performed, repainted⟩
          obtain ⟨shown, drawnNext⟩ := repaint_spec repainted
          refine ⟨drawnNext, .inr ⟨action, drawn.enabled_of_drop possible dropped, ?_⟩⟩
          rw [shown]
          exact performed
  | delete segment sequence resource =>
      rcases Option.bind_eq_some_iff.mp handled with ⟨view, performed, repainted⟩
      obtain ⟨shown, drawnNext⟩ := repaint_spec repainted
      refine ⟨drawnNext, .inr ⟨.deleteResource segment sequence resource, possible.2, ?_⟩⟩
      rw [shown]
      exact performed

theorem drawn_and_edited {start : Timeline} (started : start.Started)
    (reached : Transition.Reachable Step start timeline) :
    timeline.Drawn ∧ Transition.Reachable CPLSequenceView.Step start.view timeline.view :=
  reached.simulates Timeline.view Timeline.Drawn (drawn_of_painted start.height started.painted)
    (fun _ _ _ drawn step => (step_spec drawn step).1)
    (fun _ _ _ drawn step => (step_spec drawn step).2)

/-- After an action that is enabled only the durations may be undefined. -/
theorem undefined_of_enabled (shown : timeline.view.Shown)
    (sound : Sound timeline.view.compositionPlaylist) {action : Action}
    (enabled : timeline.view.Enabled action)
    (undefined : (timeline.view.perform action).bind timeline.repaint = none) :
    ∃ next, CPLSequenceView.Step timeline.view action next ∧
      next.compositionPlaylist.getDurationInFrames = none := by
  obtain ⟨playlist, acted, -⟩ := CPLSequenceView.act_sound shown sound enabled
  have performed : timeline.view.perform action =
      some (timeline.view.compositionPlaylistChanged playlist) := by
    rw [CPLSequenceView.perform, acted, Option.map_some]
  refine ⟨_, ⟨enabled, performed⟩, ?_⟩
  rw [performed, Option.bind_some, repaint, Option.map_eq_none_iff,
    CPLSequenceView.painted] at undefined
  split_ifs at undefined with known
  exact Option.not_isSome_iff_eq_none.mp known

/-- Whatever the user does with the pointer, the rectangles are those of the view, and the view has
been edited by its actions only. An event is undefined only if it edits the playlist into one whose
durations are undefined, or drags in audio whose length is undefined. -/
theorem pointer_edits {start : Timeline} (started : start.Started)
    (reached : Transition.Reachable Step start timeline) :
    timeline.Drawn ∧ Transition.Reachable CPLSequenceView.Step start.view timeline.view ∧
      ∀ event, timeline.Possible event → timeline.handle event = none →
        (∃ action next, CPLSequenceView.Step timeline.view action next ∧
          next.compositionPlaylist.getDurationInFrames = none) ∨
        ∃ track, event = .drag (.enter track) ∧ track.type = .audio ∧
          (track.editRate.asDouble = 0 ∨ ¬FitsInt (roundAway (standardResource "" track
            timeline.view.compositionPlaylist.editRate).convertedDuration)) := by
  obtain ⟨drawn, edited⟩ := drawn_and_edited started reached
  obtain ⟨shown, sound⟩ := CPLSequenceView.shown_and_sound started.view edited
  refine ⟨drawn, edited, fun event possible undefined => ?_⟩
  cases event with
  | drag event =>
      cases event with
      | enter track =>
          have unknown : DragState.draggedLength
              timeline.view.compositionPlaylist.editRate track = none :=
            Option.map_eq_none_iff.mp (Option.map_eq_none_iff.mp undefined)
          exact .inr ⟨track, rfl, CPLResource.getNormalizedSourceDuration_eq_none_iff.mp
            (Option.map_eq_none_iff.mp unknown)⟩
      | move pointer => cases undefined
      | leave => cases undefined
  | scroll x y => cases undefined
  | resize height => cases undefined
  | drop pointer made =>
      cases dropped : timeline.drag.drop timeline.view.compositionPlaylist pointer made with
      | none =>
          rw [handle, dropped] at undefined
          cases undefined
      | some action =>
          rw [handle, dropped] at undefined
          exact .inl ⟨action, undefined_of_enabled shown sound
            (drawn.enabled_of_drop possible dropped) undefined⟩
  | delete segment sequence resource =>
      have enabled : timeline.view.Enabled (.deleteResource segment sequence resource) := possible.2
      exact .inl ⟨_, undefined_of_enabled shown sound enabled undefined⟩

section Sample

open CPLSequenceView

def newTimeline : Timeline := ⟨newView, ⟨[], none, 0, 0⟩, 256⟩

def firstTimeline : Timeline :=
  ⟨firstView, ⟨(firstView.items 256).map RenderRect.painted, some Package.Sample.video, 0, 0⟩, 256⟩

theorem started_newTimeline : newTimeline.Started :=
  ⟨⟨_, _, .empty rfl rfl, rfl⟩, rfl, rfl⟩

theorem reached_firstTimeline : Transition.Reachable Step newTimeline firstTimeline := by
  have entered : Step newTimeline (.drag (.enter Package.Sample.video))
      ⟨newView, { newTimeline.drag with dragged := some Package.Sample.video }, 256⟩ := ⟨trivial, rfl⟩
  have dropped : Step ⟨newView, { newTimeline.drag with dragged := some Package.Sample.video }, 256⟩
      (.drop ⟨4, 10, false⟩ ⟨"s1", "q1", "t1", "r1"⟩)
      ⟨firstView, ⟨(firstView.items 256).map RenderRect.painted, none, 0, 0⟩, 256⟩ :=
    ⟨⟨by decide, by decide, by decide⟩, rfl⟩
  have again : Step ⟨firstView, ⟨(firstView.items 256).map RenderRect.painted, none, 0, 0⟩, 256⟩
      (.drag (.enter Package.Sample.video)) firstTimeline := ⟨trivial, rfl⟩
  exact ((Transition.Reachable.refl.tail entered).tail dropped).tail again

theorem moved_firstTimeline :
    (firstTimeline.drag.dragMove ⟨4, 10, false⟩).rects =
      [⟨⟨.resource 0 0 0, ⟨0, 3, 5, 31⟩⟩, false, true⟩,
        ⟨⟨.segment 0, ⟨0, 0, 6, 256⟩⟩, false, false⟩] := by
  decide +kernel

theorem pointer_edits_dropped : ∃ timeline, Transition.Reachable Step newTimeline timeline ∧
    timeline.view.compositionPlaylist.resources.map CPLResource.uuid = ["r1", "r2"] ∧
    timeline.Drawn ∧ Transition.Reachable CPLSequenceView.Step newView timeline.view ∧
    ∀ event, timeline.Possible event → timeline.handle event = none →
      (∃ action next, CPLSequenceView.Step timeline.view action next ∧
        next.compositionPlaylist.getDurationInFrames = none) ∨
      ∃ track, event = .drag (.enter track) ∧ track.type = .audio ∧
        (track.editRate.asDouble = 0 ∨ ¬FitsInt (roundAway (standardResource "" track
          timeline.view.compositionPlaylist.editRate).convertedDuration)) := by
  have moved : Step firstTimeline (.drag (.move ⟨4, 10, false⟩))
      ⟨firstView, firstTimeline.drag.dragMove ⟨4, 10, false⟩, 256⟩ := ⟨trivial, rfl⟩
  have decided : (firstTimeline.drag.dragMove ⟨4, 10, false⟩).drop firstView.compositionPlaylist
      ⟨4, 10, false⟩ ⟨"s2", "q2", "t2", "r2"⟩ =
        some (.insertResource 0 0 0 Package.Sample.video true ⟨"s2", "q2", "t2", "r2"⟩) := by
    rw [DragState.drop, moved_firstTimeline]
    rfl
  have dropped : Step ⟨firstView, firstTimeline.drag.dragMove ⟨4, 10, false⟩, 256⟩
      (.drop ⟨4, 10, false⟩ ⟨"s2", "q2", "t2", "r2"⟩) _ :=
    ⟨⟨by decide, by decide, by decide⟩, by rw [handle, decided]; rfl⟩
  have reached := (reached_firstTimeline.tail moved).tail dropped
  exact ⟨_, reached, by decide, pointer_edits started_newTimeline reached⟩

end Sample

end Timeline

end Imflib.View
