import Imflib.View.EditEffects
import Imflib.View.EditInverses

/-! Deleting the resource that an action inserted leads back to the playlist before. -/

namespace Imflib.View

open Imflib.Package IMFCompositionPlaylist ListEdits

variable {playlist : IMFCompositionPlaylist} {made : MadeUUIDs}

namespace Regular

theorem link (regular : Regular playlist) {segment track : Nat} {sequence : CPLSequence}
    (segmentMember : segment ∈ playlist.segments) (trackMember : track ∈ playlist.virtualTracks)
    (carried : sequence.virtualTrackId = playlist.trackUUID track)
    (newUUID : sequence.uuid ∉ playlist.sequences.map playlist.sequenceUUID)
    (nodup : (sequence.items.map CPLResource.uuid).Nodup) :
    Regular (playlist.link segment track sequence) :=
  { indexed := regular.indexed.link segmentMember trackMember carried
    distinct := regular.distinct.link regular.indexed segmentMember carried newUUID
    resources := regular.indexed.each_link segmentMember track carried
      (fun sequence => (sequence.items.map CPLResource.uuid).Nodup) regular.resources nodup }

theorem modifySequence (regular : Regular playlist) {address : Nat}
    (present : address ∈ playlist.sequences) (items : List CPLResource → List CPLResource)
    {new : CPLResource}
    (inserted : (items (playlist.sequence address).items).Perm
      (new :: (playlist.sequence address).items))
    (fresh : ∀ resource ∈ playlist.resources, resource.uuid ≠ new.uuid) :
    Regular (playlist.modifySequence address (Contents.withItems items)) := by
  have uuids := inserted.map CPLResource.uuid
  have absent : new.uuid ∉ (playlist.sequence address).items.map CPLResource.uuid := by
    intro member
    obtain ⟨resource, inside, same⟩ := List.mem_map.mp member
    exact fresh resource (List.mem_flatMap.mpr ⟨address, present, inside⟩) same
  have nodup : ((items (playlist.sequence address).items).map CPLResource.uuid).Nodup :=
    uuids.nodup_iff.mpr (List.nodup_cons.mpr ⟨absent, regular.resources address present⟩)
  exact
    { indexed := regular.indexed.modifySequence rfl
      distinct := regular.distinct.modifySequence rfl
      resources := Indexed.each_modifySequence
        (fun sequence => (sequence.items.map CPLResource.uuid).Nodup) regular.resources nodup }

theorem ready (regular : Regular playlist) {after : IMFCompositionPlaylist} {track : Nat}
    (ready : TrackReady playlist after track) : Regular after := by
  have indexed := ready.indexed
  have distinct := ready.distinct regular.distinct
  obtain ⟨_, _, rfl⟩ := ready.same
  exact ⟨indexed, distinct, regular.resources⟩

theorem insertEmptySegment (regular : Regular playlist) {uuid : String}
    (newUUID : uuid ∉ playlist.segments.map playlist.segmentUUID) {segments : List Nat}
    (inserted : segments.Perm (playlist.segmentStore.size :: playlist.segments)) :
    Regular (playlist.insertEmptySegment uuid segments) := by
  have sequences := regular.indexed.sequences_insertEmptySegment_perm uuid inserted
  exact
    { indexed := regular.indexed.insertEmptySegment uuid inserted
      distinct := regular.distinct.insertEmptySegment regular.indexed newUUID inserted
      resources := fun address member => regular.resources address (sequences.mem_iff.mp member) }

theorem newSegment (regular : Regular playlist) {after : IMFCompositionPlaylist} {track : Nat}
    (ready : TrackReady playlist after track) (fresh : Fresh playlist made) {segments : List Nat}
    (inserted : segments.Perm (playlist.segmentStore.size :: playlist.segments))
    (resource : CPLResource) :
    Regular ((after.insertEmptySegment made.segment segments).link playlist.segmentStore.size track
      ⟨made.sequence, after.trackUUID track, [resource]⟩) := by
  have stillRegular := regular.ready ready
  have trackMember := ready.member
  have uuids := ready.sequenceUUIDs
  obtain ⟨virtualTracks, trackStore, rfl⟩ := ready.same
  have sequences := stillRegular.indexed.sequenceUUIDs_insertEmptySegment_perm made.segment inserted
  refine (stillRegular.insertEmptySegment fresh.segment inserted).link
    (inserted.mem_iff.mpr List.mem_cons_self) trackMember rfl ?_ (List.nodup_singleton _)
  rw [sequences.mem_iff, uuids]
  exact fresh.sequence

theorem createFirstSegment (regular : Regular playlist) (track : IMFTrack)
    (fresh : Fresh playlist made) : Regular (createFirstSegmentAction playlist track made) := by
  have ready := TrackReady.added regular.indexed fresh.track
  have uuid := playlist.trackUUID_addEmptyTrack made.track
  have placed := regular.newSegment ready fresh (List.perm_append_singleton _ _)
    (standardResource made.resource track playlist.editRate)
  rw [uuid] at placed
  rw [createFirstSegmentAction_eq]
  exact placed

theorem insertSegment (regular : Regular playlist) (segmentRect : CPLSegmentRect)
    (track : IMFTrack) (y : Int) (append : Bool) (fresh : Fresh playlist made) :
    Regular (insertSegmentAction playlist segmentRect track y append made) := by
  have ready := virtualTrackAt_ready regular.indexed y fresh.track
  obtain ⟨segments, inserted, same⟩ := insertSegmentAction_eq playlist segmentRect track y append made
  rw [same]
  exact regular.newSegment ready fresh inserted _

theorem insertResource (regular : Regular playlist) {sequenceRect : CPLSequenceRect}
    (present : sequenceRect.sequence ∈ playlist.sequences) (resource : CPLResource)
    (track : IMFTrack) (append : Bool)
    (fresh : ∀ resource ∈ playlist.resources, resource.uuid ≠ made.resource) :
    Regular (insertResourceAction playlist sequenceRect resource track append made) := by
  cases append with
  | true =>
      exact regular.modifySequence present _
        (KeyedList.insertAfter_perm CPLResource.uuid resource.uuid _ _) fresh
  | false =>
      exact regular.modifySequence present _
        (KeyedList.insertBefore_perm CPLResource.uuid resource.uuid _ _) fresh

theorem addResource (regular : Regular playlist) {segmentRect : CPLSegmentRect}
    (drawn : segmentRect.item ∈ playlist.segments) (track : IMFTrack) (y : Int)
    (fresh : Fresh playlist made)
    (freshResource : ∀ resource ∈ playlist.resources, resource.uuid ≠ made.resource) :
    Regular (addResourceAction playlist segmentRect track y made) := by
  rcases addResourceAction_eq playlist segmentRect track y made with
    ⟨virtualTrack, sequence, onTrack, searched, same⟩ | ⟨-, same⟩
  · rw [findSequence_eq regular drawn (getVirtualTrackFromY_mem virtualTrack onTrack)] at searched
    have present := mem_sequences_of_mem drawn (List.mem_of_find?_eq_some searched)
    have inserted := List.perm_append_singleton
      (standardResource made.resource track playlist.editRate) (playlist.sequence sequence).items
    rw [same]
    exact regular.modifySequence present (· ++ [_]) inserted freshResource
  · have ready := virtualTrackAt_ready regular.indexed y fresh.track
    rw [same]
    refine (regular.ready ready).link (ready.segments.symm ▸ drawn) ready.member rfl ?_
      (List.nodup_singleton _)
    rw [ready.sequenceUUIDs]
    exact fresh.sequence

end Regular

section Contents

structure NothingEmpty (playlist : IMFCompositionPlaylist) : Prop where
  segments : ∀ segment ∈ playlist.segments, (playlist.segment segment).items ≠ []
  sequences : ∀ sequence ∈ playlist.sequences, (playlist.sequence sequence).items ≠ []
  tracks : ∀ track ∈ playlist.virtualTracks, (playlist.virtualTrack track).items ≠ []

theorem map_uuid_trackValues (playlist : IMFCompositionPlaylist) :
    (trackValues playlist).map TrackValue.uuid = playlist.virtualTracks.map playlist.trackUUID :=
  List.map_map

theorem contents_filled (regular : Regular playlist) (nothingEmpty : NothingEmpty playlist) :
    (contents playlist).Filled := by
  constructor
  · intro segment member
    obtain ⟨address, listed, rfl⟩ := List.mem_map.mp member
    intro empty
    exact nothingEmpty.segments address listed (List.map_eq_nil_iff.mp empty)
  · intro segment member sequence inside
    obtain ⟨address, listed, rfl⟩ := List.mem_map.mp member
    obtain ⟨item, inSegment, rfl⟩ := List.mem_map.mp inside
    exact nothingEmpty.sequences item (mem_sequences_of_mem listed inSegment)
  · intro track member
    obtain ⟨address, listed, rfl⟩ := List.mem_map.mp member
    intro empty
    exact nothingEmpty.tracks address listed (List.map_eq_nil_iff.mp empty)
  · exact (map_uuid_trackValues playlist).symm ▸ regular.indexed.consistent.keys_nodup

theorem contents_newSequence (regular : Regular playlist) (fresh : Fresh playlist made) :
    (contents playlist).NewSequence made := by
  constructor
  · exact (map_uuid_trackValues playlist).symm ▸ fresh.track
  · intro track member listed
    obtain ⟨address, trackMember, rfl⟩ := List.mem_map.mp member
    obtain ⟨item, inside, same⟩ := List.mem_map.mp listed
    have present := ((regular.indexed.consistent.listed address trackMember item).mp inside).1
    exact fresh.sequence (same ▸ List.mem_map_of_mem present)

theorem mem_resources_of_resourceAt {segment sequence resource : Nat} {item : CPLResource}
    (found : (contents playlist).resourceAt segment sequence resource = some item) :
    item ∈ playlist.resources := by
  obtain ⟨target, shown, inContents, inSegment, present⟩ := Contents.resourceAt_eq_some.mp found
  obtain ⟨address, listed, rfl⟩ := List.mem_map.mp (List.mem_of_getElem? inContents)
  obtain ⟨other, inside, rfl⟩ := List.mem_map.mp (List.mem_of_getElem? inSegment)
  exact List.mem_flatMap.mpr ⟨other, mem_sequences_of_mem listed inside,
    List.mem_of_getElem? present⟩

end Contents

namespace CPLSequenceView

variable {view : CPLSequenceView}

theorem Shown.resourceAt_contents (shown : view.Shown) (segment sequence resource : Nat) :
    (view.resourceAt segment sequence resource).map (fun rects => rects.2.2) =
      (contents view.compositionPlaylist).resourceAt segment sequence resource := by
  have scene : view.scene[segment]? = view.compositionPlaylist.segments[segment]?.map
      (appendSegment view.compositionPlaylist view.virtualTrackMap) := by
    rw [shown.scene]
    exact List.getElem?_map
  have timeline : (contents view.compositionPlaylist).segments[segment]? =
      view.compositionPlaylist.segments[segment]?.map view.compositionPlaylist.segmentValue :=
    List.getElem?_map
  unfold CPLSequenceView.resourceAt Contents.resourceAt
  rw [scene, timeline]
  cases view.compositionPlaylist.segments[segment]? with
  | none => rfl
  | some address =>
      have drawn : (appendSegment view.compositionPlaylist view.virtualTrackMap
          address).sequences[sequence]? =
          (view.compositionPlaylist.segment address).items[sequence]?.map
            (addSequence view.compositionPlaylist view.virtualTrackMap) := List.getElem?_map
      have held : (view.compositionPlaylist.segmentValue address).sequences[sequence]? =
          (view.compositionPlaylist.segment address).items[sequence]?.map
            view.compositionPlaylist.sequence := List.getElem?_map
      simp only [Option.map_some, Option.bind_eq_bind, Option.bind_some, drawn, held]
      cases (view.compositionPlaylist.segment address).items[sequence]? with
      | none => rfl
      | some item =>
          have same : (addSequence view.compositionPlaylist view.virtualTrackMap
              item).resources[resource]? =
              (view.compositionPlaylist.sequence item).items[resource]? := rfl
          simp only [Option.map_some, Option.bind_some, same]
          cases (view.compositionPlaylist.sequence item).items[resource]? <;> rfl

theorem applies_of_enabled (shown : view.Shown) (regular : Regular view.compositionPlaylist)
    {action : Action} (enabled : view.Enabled action) :
    (contents view.compositionPlaylist).Applies action := by
  have length : view.scene.length = (contents view.compositionPlaylist).segments.length := by
    rw [shown.scene, paintScene, List.length_map]
    exact (List.length_map _).symm
  have drawn {segment sequence resource : Nat}
      (found : (view.resourceAt segment sequence resource).isSome) :
      ((contents view.compositionPlaylist).resourceAt segment sequence resource).isSome := by
    rw [← shown.resourceAt_contents, Option.isSome_map]
    exact found
  cases action with
  | createFirstSegment track made => exact contents_newSequence regular enabled.2
  | insertSegment segment track y append made =>
      exact ⟨length ▸ enabled.1, contents_newSequence regular enabled.2⟩
  | insertResource segment sequence resource track append made => exact drawn enabled
  | addResource segment track y made =>
      exact ⟨length ▸ enabled.1, contents_newSequence regular enabled.2⟩
  | deleteResource segment sequence resource => exact drawn enabled

theorem regular_of_act (shown : view.Shown) (regular : Regular view.compositionPlaylist)
    {action : Action} (enabled : view.Enabled action) {track : IMFTrack} {madeUUID : String}
    (dropped : action.dropped = some (track, madeUUID))
    (fresh : ∀ resource ∈ view.compositionPlaylist.resources, resource.uuid ≠ madeUUID)
    {after : IMFCompositionPlaylist} (acted : view.act action = some after) : Regular after := by
  cases action with
  | createFirstSegment track made =>
      obtain ⟨empty, freshMade⟩ := enabled
      rw [act, empty] at acted
      cases Option.some.inj acted
      exact regular.createFirstSegment track freshMade
  | insertSegment segment track y append made =>
      obtain ⟨segmentRect, -, rfl⟩ := Option.map_eq_some_iff.mp acted
      exact regular.insertSegment segmentRect track y append enabled.2
  | insertResource segment sequence resource track append made =>
      cases Option.some.inj dropped
      obtain ⟨⟨segmentRect, sequenceRect, item⟩, found, rfl⟩ := Option.map_eq_some_iff.mp acted
      obtain ⟨member, inside, -⟩ := shown.inside found
      exact regular.insertResource (mem_sequences_of_mem member inside) item track append fresh
  | addResource segment track y made =>
      cases Option.some.inj dropped
      obtain ⟨segmentRect, found, rfl⟩ := Option.map_eq_some_iff.mp acted
      exact regular.addResource (shown.drawn found).1 track y enabled.2 fresh
  | deleteResource segment sequence resource => cases dropped

/-- After an action that inserts a resource, and after the view is rebuilt, the resource is drawn.
Deleting it, wherever it is drawn, leads back to the playlist before. -/
theorem delete_undoes_insert (before : CPLSequenceView) (regular : Regular playlist)
    (nothingEmpty : NothingEmpty playlist) {action : Action}
    (enabled : (before.compositionPlaylistChanged playlist).Enabled action)
    {track : IMFTrack} {madeUUID : String} (dropped : action.dropped = some (track, madeUUID))
    (fresh : ∀ resource ∈ playlist.resources, resource.uuid ≠ madeUUID) :
    ∃ rebuilt, (before.compositionPlaylistChanged playlist).perform action = some rebuilt ∧
      (∃ segment sequence resource rects,
        rebuilt.resourceAt segment sequence resource = some rects ∧ rects.2.2.uuid = madeUUID) ∧
      ∀ segment sequence resource rects,
        rebuilt.resourceAt segment sequence resource = some rects → rects.2.2.uuid = madeUUID →
        ∃ restored, rebuilt.act (.deleteResource segment sequence resource) = some restored ∧
          restored.details = playlist.details ∧ contents restored = contents playlist := by
  have shown := before.shown_of_changed regular.indexed.consistent.keys_nodup
  obtain ⟨after, acted, edited⟩ := before.act_contents regular enabled
  have stillRegular := regular_of_act shown regular enabled dropped fresh acted
  have stillShown := (before.compositionPlaylistChanged playlist).shown_of_changed
    stillRegular.indexed.consistent.keys_nodup
  obtain ⟨segment, sequence, resource, inserts⟩ := Contents.inserts_edit
    (contents_filled regular nothingEmpty) playlist.editRate
    (applies_of_enabled shown regular enabled) dropped
  rw [← edited] at inserts
  refine ⟨(before.compositionPlaylistChanged playlist).compositionPlaylistChanged after, ?_, ?_, ?_⟩
  · rw [perform, acted]
    rfl
  · have drawn := (stillShown.resourceAt_contents segment sequence resource).trans inserts.shown
    obtain ⟨rects, found, same⟩ := Option.map_eq_some_iff.mp drawn
    exact ⟨segment, sequence, resource, rects, found, congrArg CPLResource.uuid same⟩
  · intro otherSegment otherSequence otherResource rects found made
    have drawn := (stillShown.resourceAt_contents otherSegment otherSequence otherResource).symm.trans
      (congrArg (Option.map fun rects => rects.2.2) found)
    -- A resource with the new identifier can only be the new one.
    have here : (otherSegment, otherSequence, otherResource) = (segment, sequence, resource) := by
      rcases inserts.others _ _ _ _ drawn with here | ⟨oldSegment, oldSequence, oldResource, old⟩
      · exact here
      · exact absurd made (fresh _ (mem_resources_of_resourceAt old))
    obtain ⟨sameSegment, others⟩ := Prod.mk.inj here
    obtain ⟨sameSequence, sameResource⟩ := Prod.mk.inj others
    subst sameSegment sameSequence sameResource
    have deletable : ((before.compositionPlaylistChanged playlist).compositionPlaylistChanged
        after).Enabled (.deleteResource otherSegment otherSequence otherResource) :=
      Option.isSome_iff_exists.mpr ⟨rects, found⟩
    obtain ⟨restored, deleted, deletion⟩ :=
      (before.compositionPlaylistChanged playlist).act_contents stillRegular deletable
    exact ⟨restored, deleted, (details_act deleted).trans (details_act acted),
      deletion.trans inserts.undone⟩

section Sample

/-- Audio is dropped into a new segment behind the first one, and deleted again. -/
theorem delete_undoes_insert_segment : ∃ rebuilt restored segment sequence resource,
    secondView.perform (.insertSegment 0 Sample.audio 40 true ⟨"s3", "q3", "t3", "r3"⟩) =
      some rebuilt ∧
    rebuilt.act (.deleteResource segment sequence resource) = some restored ∧
    contents restored = contents secondView.compositionPlaylist := by
  have reached := (Transition.Reachable.refl.tail step_firstView).tail step_secondView
  have sound := (shown_and_sound ⟨_, _, .empty rfl rfl, rfl⟩ reached).2
  have nothingEmpty : NothingEmpty secondView.compositionPlaylist :=
    ⟨sound.filled.groups, sound.resources, sound.filled.tracks⟩
  have enabled : secondView.Enabled
      (.insertSegment 0 Sample.audio 40 true ⟨"s3", "q3", "t3", "r3"⟩) :=
    ⟨by decide, by decide, by decide, by decide⟩
  obtain ⟨rebuilt, performed, shown, deleted⟩ := delete_undoes_insert firstView regular_secondView
    nothingEmpty enabled rfl (by decide)
  obtain ⟨segment, sequence, resource, rects, found, made⟩ := shown
  obtain ⟨restored, acted, -, same⟩ := deleted segment sequence resource rects found made
  exact ⟨rebuilt, restored, segment, sequence, resource, performed, acted, same⟩

end Sample

end CPLSequenceView

end Imflib.View
