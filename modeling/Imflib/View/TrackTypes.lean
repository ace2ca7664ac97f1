import Imflib.View.WellFormed

/-! Which runs of the view's actions keep video and audio apart, so that the playlist can be
saved. -/

namespace Imflib.View

open Imflib.Package IMFCompositionPlaylist

/-- Some resource of a virtual track, given by its identifier, has a type. -/
def HasType (playlist : IMFCompositionPlaylist) (trackId : String) (type : TrackType) : Prop :=
  ∃ address ∈ playlist.sequences, (playlist.sequence address).virtualTrackId = trackId ∧
    ∃ resource ∈ (playlist.sequence address).items, resource.track.type = type

def sequenceName : TrackType → String
  | .video => "imf:MainImageSequence"
  | .audio => "imf:MainAudioSequence"

def OneTypePerTrack (playlist : IMFCompositionPlaylist) : Prop :=
  ∀ trackId first second, HasType playlist trackId first → HasType playlist trackId second →
    first = second

/-- The writer takes the playlist: sequences and virtual tracks are all video or all audio. -/
structure Savable (playlist : IMFCompositionPlaylist) : Prop where
  sequences : ∀ address ∈ playlist.sequences, (playlist.sequence address).Homogeneous
  tracks : ∀ track ∈ playlist.virtualTracks, ∃ type,
    ∀ address ∈ (playlist.virtualTrack track).items,
    ∀ resource ∈ (playlist.sequence address).items, resource.track.type = type
  written : ∀ what, playlist.write ≠ .error (.compositionPlaylistException what)
  /-- The sequences of a virtual track are written under one name in all segments. -/
  names : ∀ track ∈ playlist.virtualTracks, ∃ name,
    ∀ address ∈ (playlist.virtualTrack track).items,
    ∀ entry ∈ (playlist.sequence address).nodes, entry.1 = name

section Types

variable {playlist : IMFCompositionPlaylist}

theorem OneTypePerTrack.type (oneType : OneTypePerTrack playlist) (indexed : playlist.Indexed)
    {track : Nat} (member : track ∈ playlist.virtualTracks) :
    ∃ type, ∀ address ∈ (playlist.virtualTrack track).items,
      ∀ resource ∈ (playlist.sequence address).items, resource.track.type = type := by
  have held (address : Nat) (listed : address ∈ (playlist.virtualTrack track).items)
      (resource : CPLResource) (inside : resource ∈ (playlist.sequence address).items) :
      HasType playlist (playlist.trackUUID track) resource.track.type := by
    obtain ⟨present, carried⟩ := (indexed.consistent.listed track member address).mp listed
    exact ⟨address, present, carried, resource, inside, rfl⟩
  by_cases some : ∃ type, HasType playlist (playlist.trackUUID track) type
  · obtain ⟨type, first⟩ := some
    exact ⟨type, fun address listed resource inside =>
      oneType _ _ _ (held address listed resource inside) first⟩
  · exact ⟨.video, fun address listed resource inside =>
      absurd ⟨_, held address listed resource inside⟩ some⟩

theorem name_of_type {sequence : CPLSequence} {type : TrackType}
    (same : ∀ resource ∈ sequence.items, resource.track.type = type) :
    ∀ entry ∈ sequence.nodes, entry.1 = sequenceName type := by
  intro entry member
  by_cases empty : sequence.items = []
  · rw [CPLSequence.nodes, if_pos empty] at member
    exact absurd member List.not_mem_nil
  · obtain ⟨resource, inside⟩ := List.exists_mem_of_ne_nil _ empty
    rw [CPLSequence.nodes, if_neg empty] at member
    cases type with
    | audio =>
        have allAudio : sequence.allAudio = true := by
          refine Bool.eq_true_of_not_eq_false fun someVideo => ?_
          obtain ⟨other, otherInside, video⟩ := CPLSequence.allAudio_eq_false.mp someVideo
          rw [same other otherInside] at video
          cases video
        rw [if_pos allAudio] at member
        exact congrArg Prod.fst (List.mem_singleton.mp member)
    | video =>
        have notAudio : ¬ sequence.allAudio = true := by
          rw [CPLSequence.allAudio_eq_false.mpr ⟨resource, inside, same resource inside⟩]
          exact Bool.false_ne_true
        rw [if_neg notAudio] at member
        exact congrArg Prod.fst (List.mem_singleton.mp member)

theorem savable_iff (sound : Sound playlist) : Savable playlist ↔ OneTypePerTrack playlist := by
  have consistent := sound.indexed.consistent
  constructor
  · intro savable trackId first second firstHeld secondHeld
    obtain ⟨address, member, carried, resource, inside, rfl⟩ := firstHeld
    obtain ⟨other, otherMember, otherCarried, otherResource, otherInside, rfl⟩ := secondHeld
    obtain ⟨track, listed, uuid⟩ := List.mem_map.mp (consistent.owned address member)
    obtain ⟨type, same⟩ := savable.tracks track listed
    have atFirst := (consistent.listed track listed address).mpr ⟨member, uuid.symm⟩
    have atSecond := (consistent.listed track listed other).mpr
      ⟨otherMember, (otherCarried.trans carried.symm).trans uuid.symm⟩
    rw [same address atFirst resource inside, same other atSecond otherResource otherInside]
  · intro oneType
    have homogeneous : ∀ address ∈ playlist.sequences, (playlist.sequence address).Homogeneous := by
      intro address member
      obtain ⟨track, listed, uuid⟩ := List.mem_map.mp (consistent.owned address member)
      obtain ⟨type, same⟩ := oneType.type sound.indexed listed
      exact ⟨type, same address ((consistent.listed track listed address).mpr ⟨member, uuid.symm⟩)⟩
    refine
      { sequences := homogeneous
        tracks := fun track member => oneType.type sound.indexed member
        written := ?_
        names := ?_ }
    · intro what failed
      cases playlist.write_eq_error homogeneous failed
    · intro track member
      obtain ⟨type, same⟩ := oneType.type sound.indexed member
      exact ⟨_, fun address listed => name_of_type (same address listed)⟩

theorem HasType.mono {after : IMFCompositionPlaylist}
    (sequences : ∀ address ∈ after.sequences, address ∈ playlist.sequences)
    (carried : ∀ address ∈ after.sequences,
      (after.sequence address).virtualTrackId = (playlist.sequence address).virtualTrackId)
    (items : ∀ address ∈ after.sequences,
      (after.sequence address).items ⊆ (playlist.sequence address).items)
    {trackId : String} {type : TrackType} (held : HasType after trackId type) :
    HasType playlist trackId type := by
  obtain ⟨address, member, same, resource, inside, typed⟩ := held
  exact ⟨address, sequences address member, (carried address member).symm.trans same, resource,
    items address member inside, typed⟩

theorem hasType_congr {after : IMFCompositionPlaylist}
    (sequences : ∀ address, address ∈ after.sequences ↔ address ∈ playlist.sequences)
    (same : ∀ address ∈ playlist.sequences, after.sequence address = playlist.sequence address)
    (trackId : String) (type : TrackType) :
    HasType after trackId type ↔ HasType playlist trackId type := by
  constructor
  · intro held
    refine held.mono (fun address member => (sequences address).mp member) ?_ ?_
    · intro address member
      rw [same address ((sequences address).mp member)]
    · intro address member
      rw [same address ((sequences address).mp member)]
      exact List.Subset.refl _
  · intro held
    refine held.mono (fun address member => (sequences address).mpr member) ?_ ?_
    · intro address member
      rw [same address member]
    · intro address member
      rw [same address member]
      exact List.Subset.refl _

theorem hasType_modifySequence {address : Nat} (member : address ∈ playlist.sequences)
    {change : CPLSequence → CPLSequence}
    (carried : (change (playlist.sequence address)).virtualTrackId =
      (playlist.sequence address).virtualTrackId)
    (resource : CPLResource) (items : (change (playlist.sequence address)).items.Perm
      (resource :: (playlist.sequence address).items)) (trackId : String) (type : TrackType) :
    HasType (playlist.modifySequence address change) trackId type ↔
      HasType playlist trackId type ∨
        (trackId = (playlist.sequence address).virtualTrackId ∧ type = resource.track.type) := by
  have changed := playlist.sequence_modifySequence_self address change
  constructor
  · intro held
    obtain ⟨other, listed, same, shown, inside, typed⟩ := held
    by_cases here : other = address
    · subst here
      rw [changed] at same inside
      rcases List.mem_cons.mp (items.mem_iff.mp inside) with new | old
      · exact Or.inr ⟨same.symm.trans carried, typed.symm.trans (congrArg (·.track.type) new)⟩
      · exact Or.inl ⟨other, member, carried.symm.trans same, shown, old, typed⟩
    · rw [playlist.sequence_modifySequence_of_ne change here] at same inside
      exact Or.inl ⟨other, listed, same, shown, inside, typed⟩
  · intro held
    rcases held with ⟨other, listed, same, shown, inside, typed⟩ | ⟨rfl, rfl⟩
    · by_cases here : other = address
      · subst here
        refine ⟨other, member, ?_, shown, ?_, typed⟩
        · rw [changed]
          exact carried.trans same
        · rw [changed]
          exact items.mem_iff.mpr (List.mem_cons_of_mem _ inside)
      · rw [← playlist.sequence_modifySequence_of_ne change here] at same inside
        exact ⟨other, listed, same, shown, inside, typed⟩
    · refine ⟨address, member, ?_, resource, ?_, rfl⟩
      · rw [changed]
        exact carried
      · rw [changed]
        exact items.mem_iff.mpr List.mem_cons_self

theorem hasType_link (indexed : playlist.Indexed) {segment track : Nat}
    (segmentMember : segment ∈ playlist.segments) (sequence : CPLSequence)
    (carried : sequence.virtualTrackId = playlist.trackUUID track) {resource : CPLResource}
    (items : sequence.items = [resource]) (trackId : String) (type : TrackType) :
    HasType (playlist.link segment track sequence) trackId type ↔
      HasType playlist trackId type ∨
        (trackId = playlist.trackUUID track ∧ type = resource.track.type) := by
  have sequences := indexed.sequences_link_perm segmentMember track carried
  have added : (playlist.link segment track sequence).sequence playlist.sequenceStore.size =
      sequence := playlist.sequenceStore.cell_alloc_size sequence
  have kept (address : Nat) (old : address ∈ playlist.sequences) :
      (playlist.link segment track sequence).sequence address = playlist.sequence address :=
    playlist.sequenceStore.cell_alloc_of_lt sequence (indexed.sequences address old)
  constructor
  · intro held
    obtain ⟨address, listed, same, shown, inside, typed⟩ := held
    rcases List.mem_cons.mp (sequences.mem_iff.mp listed) with rfl | old
    · rw [added] at same inside
      rw [items] at inside
      have new := List.mem_singleton.mp inside
      exact Or.inr ⟨same.symm.trans carried, typed.symm.trans (congrArg (·.track.type) new)⟩
    · rw [kept address old] at same inside
      exact Or.inl ⟨address, old, same, shown, inside, typed⟩
  · intro held
    rcases held with ⟨address, listed, same, shown, inside, typed⟩ | ⟨rfl, rfl⟩
    · rw [← kept address listed] at same inside
      exact ⟨address, sequences.mem_iff.mpr (List.mem_cons_of_mem _ listed), same, shown, inside,
        typed⟩
    · refine ⟨_, sequences.mem_iff.mpr List.mem_cons_self, ?_, resource, ?_, rfl⟩
      · rw [added]
        exact carried
      · rw [added, items]
        exact List.mem_cons_self

theorem hasType_insertEmptySegment (indexed : playlist.Indexed) (uuid : String)
    {segments : List Nat}
    (inserted : segments.Perm (playlist.segmentStore.size :: playlist.segments))
    (trackId : String) (type : TrackType) :
    HasType (playlist.insertEmptySegment uuid segments) trackId type ↔
      HasType playlist trackId type :=
  hasType_congr (fun _ => (indexed.sequences_insertEmptySegment_perm uuid inserted).mem_iff)
    (fun _ _ => rfl) trackId type

theorem hasType_ready {after : IMFCompositionPlaylist} {track : Nat}
    (ready : TrackReady playlist after track) (trackId : String) (type : TrackType) :
    HasType after trackId type ↔ HasType playlist trackId type := by
  obtain ⟨_, _, rfl⟩ := ready.same
  exact hasType_congr (fun _ => Iff.rfl) (fun _ _ => rfl) trackId type

end Types

namespace CPLSequenceView

/-- The virtual track that a dropped track goes into, with the type of the dropped track. -/
def dropTarget (view : CPLSequenceView) : Action → Option (String × TrackType)
  | .createFirstSegment track made => some (made.track, track.type)
  | .insertSegment _ track y _ made =>
      let virtualTrack := virtualTrackAt view.compositionPlaylist y made.track
      some (virtualTrack.1.trackUUID virtualTrack.2, track.type)
  | .insertResource inSegment inSequence position track _ _ =>
      (view.resourceAt inSegment inSequence position).map fun (_, sequenceRect, _) =>
        ((view.compositionPlaylist.sequence sequenceRect.sequence).virtualTrackId, track.type)
  | .addResource _ track y made =>
      let virtualTrack := virtualTrackAt view.compositionPlaylist y made.track
      some (virtualTrack.1.trackUUID virtualTrack.2, track.type)
  | .deleteResource .. => none

/-- A track is dropped where there are resources of its own type only. -/
def TypesFit (view : CPLSequenceView) (action : Action) : Prop :=
  ∀ target ∈ view.dropTarget action, ∀ other,
    HasType view.compositionPlaylist target.1 other → other = target.2

end CPLSequenceView

section Actions

variable {playlist : IMFCompositionPlaylist}

theorem hasType_newSegment (sound : Sound playlist) {after : IMFCompositionPlaylist} {track : Nat}
    (ready : TrackReady playlist after track) {made : MadeUUIDs} (fresh : Fresh playlist made)
    {segments : List Nat}
    (inserted : segments.Perm (playlist.segmentStore.size :: playlist.segments))
    (resource : CPLResource) (trackId : String) (type : TrackType) :
    HasType ((after.insertEmptySegment made.segment segments).link playlist.segmentStore.size track
        ⟨made.sequence, after.trackUUID track, [resource]⟩) trackId type ↔
      HasType playlist trackId type ∨
        (trackId = after.trackUUID track ∧ type = resource.track.type) := by
  have linkable := Linkable.of_new_segment sound ready fresh.segment inserted
  have size : playlist.segmentStore.size = after.segmentStore.size := by
    obtain ⟨_, _, rfl⟩ := ready.same
    rfl
  have grown := hasType_link linkable.indexed linkable.segmentMember
    ⟨made.sequence, after.trackUUID track, [resource]⟩ rfl rfl trackId type
  rw [hasType_insertEmptySegment ready.indexed made.segment
    (size ▸ ready.segments.symm ▸ inserted), hasType_ready ready] at grown
  exact grown

theorem hasType_createFirstSegment (sound : Sound playlist) (track : IMFTrack) {made : MadeUUIDs}
    (fresh : Fresh playlist made) (trackId : String) (type : TrackType) :
    HasType (createFirstSegmentAction playlist track made) trackId type ↔
      HasType playlist trackId type ∨ (trackId = made.track ∧ type = track.type) := by
  have ready := TrackReady.added sound.indexed fresh.track
  have inserted : (playlist.segments ++ [playlist.segmentStore.size]).Perm
      (playlist.segmentStore.size :: playlist.segments) := List.perm_append_singleton _ _
  have grown := hasType_newSegment sound ready fresh inserted
    (standardResource made.resource track playlist.editRate) trackId type
  rw [playlist.trackUUID_addEmptyTrack made.track] at grown
  rw [createFirstSegmentAction_eq]
  exact grown

theorem hasType_insertSegment (sound : Sound playlist) (segmentRect : CPLSegmentRect)
    (track : IMFTrack) (y : Int) (append : Bool) {made : MadeUUIDs} (fresh : Fresh playlist made) (trackId : String)
    (type : TrackType) :
    HasType (insertSegmentAction playlist segmentRect track y append made) trackId type ↔
      HasType playlist trackId type ∨
        (trackId = (virtualTrackAt playlist y made.track).1.trackUUID
          (virtualTrackAt playlist y made.track).2 ∧ type = track.type) := by
  have ready := virtualTrackAt_ready sound.indexed y fresh.track
  obtain ⟨segments, inserted, same⟩ := insertSegmentAction_eq playlist segmentRect track y append made
  rw [same]
  exact hasType_newSegment sound ready fresh inserted _ trackId type

theorem hasType_insertResource {sequenceRect : CPLSequenceRect}
    (drawn : sequenceRect.sequence ∈ playlist.sequences) (resource : CPLResource)
    (track : IMFTrack) (append : Bool) (made : MadeUUIDs) (trackId : String) (type : TrackType) :
    HasType (insertResourceAction playlist sequenceRect resource track append made) trackId type ↔
      HasType playlist trackId type ∨
        (trackId = (playlist.sequence sequenceRect.sequence).virtualTrackId ∧
          type = track.type) := by
  refine hasType_modifySequence drawn rfl (standardResource made.resource track playlist.editRate) ?_
    trackId type
  cases append with
  | true => exact KeyedList.insertAfter_perm CPLResource.uuid _ _ _
  | false => exact KeyedList.insertBefore_perm CPLResource.uuid _ _ _

theorem hasType_addResource (sound : Sound playlist) {segmentRect : CPLSegmentRect}
    (drawn : segmentRect.item ∈ playlist.segments) (track : IMFTrack) (y : Int) {made : MadeUUIDs}
    (fresh : Fresh playlist made) (trackId : String) (type : TrackType) :
    HasType (addResourceAction playlist segmentRect track y made) trackId type ↔
      HasType playlist trackId type ∨
        (trackId = (virtualTrackAt playlist y made.track).1.trackUUID
          (virtualTrackAt playlist y made.track).2 ∧ type = track.type) := by
  rcases addResourceAction_eq playlist segmentRect track y made with
    ⟨virtualTrack, sequence, found, searched, same⟩ | ⟨_, same⟩
  · -- The sequence that is found belongs to the virtual track at the height.
    have atHeight : virtualTrackAt playlist y made.track = (playlist, virtualTrack) := by
      rw [virtualTrackAt, found]
      rfl
    obtain ⟨other, _, listed⟩ := List.exists_of_findSome?_eq_some searched
    have inTrack := (KeyedList.find_eq_some playlist.sequenceUUID listed).1
    obtain ⟨present, carried⟩ := (sound.indexed.consistent.listed virtualTrack
      (List.mem_of_getElem? found) sequence).mp inTrack
    have uuid : (playlist.sequence sequence).virtualTrackId = playlist.trackUUID virtualTrack :=
      carried
    rw [same, atHeight, ← uuid]
    exact hasType_modifySequence present rfl
      (standardResource made.resource track playlist.editRate)
      (List.perm_append_singleton _ _) trackId type
  · have ready := virtualTrackAt_ready sound.indexed y fresh.track
    have grown := hasType_link ready.indexed (ready.segments.symm ▸ drawn)
      ⟨made.sequence, (virtualTrackAt playlist y made.track).1.trackUUID
          (virtualTrackAt playlist y made.track).2,
        [standardResource made.resource track playlist.editRate]⟩
      rfl rfl trackId type
    rw [hasType_ready ready] at grown
    rw [same]
    exact grown

theorem hasType_deleteResource (sound : Sound playlist) {segmentRect : CPLSegmentRect}
    {sequenceRect : CPLSequenceRect} (resource : CPLResource) (drawn : segmentRect.item ∈ playlist.segments)
    (inside : sequenceRect.sequence ∈ (playlist.segment segmentRect.item).items) {track : Nat}
    (index : nextVirtualTrack playlist sequenceRect.trackIndex = some track)
    (trackMember : track ∈ playlist.virtualTracks)
    (carried : (playlist.sequence sequenceRect.sequence).virtualTrackId = playlist.trackUUID track)
    {after : IMFCompositionPlaylist}
    (deleted : deleteResourceAction playlist segmentRect sequenceRect resource = some after)
    {trackId : String} {type : TrackType} (held : HasType after trackId type) :
    HasType playlist trackId type := by
  rw [deleteResourceAction_eq playlist segmentRect resource index] at deleted
  cases Option.some.inj deleted
  split at held
  · have left {address : Nat} (member : address ∈ ((playlist.deleteFromSequence
        sequenceRect.sequence resource).deleteSequence segmentRect.item track
        sequenceRect.sequence).sequences) :=
      sound.mem_sequences_deleteSequence resource drawn inside trackMember carried member
    refine held.mono (fun address member => (left member).1) ?_ ?_
    · intro address member
      rw [(left member).2]
    · intro address member
      rw [(left member).2]
      exact List.Subset.refl _
  · have sequences : (playlist.deleteFromSequence sequenceRect.sequence resource).sequences =
        playlist.sequences := rfl
    refine held.mono (fun address member => sequences ▸ member) ?_ ?_
    · intro address _
      by_cases here : address = sequenceRect.sequence
      · rw [here, deleteFromSequence, playlist.sequence_modifySequence_self]
      · rw [deleteFromSequence, playlist.sequence_modifySequence_of_ne _ here]
    · intro address _
      by_cases here : address = sequenceRect.sequence
      · rw [here, deleteFromSequence, playlist.sequence_modifySequence_self]
        exact (KeyedList.delete_sublist CPLResource.uuid _ _).subset
      · rw [deleteFromSequence, playlist.sequence_modifySequence_of_ne _ here]
        exact List.Subset.refl _

end Actions

namespace CPLSequenceView

variable {view next : CPLSequenceView} {action : Action}

theorem step_hasType (shown : view.Shown) (sound : Sound view.compositionPlaylist)
    (taken : Step view action next) :
    (∀ trackId type, HasType next.compositionPlaylist trackId type →
      HasType view.compositionPlaylist trackId type ∨
        view.dropTarget action = some (trackId, type)) ∧
    ∀ target, view.dropTarget action = some target →
      HasType next.compositionPlaylist target.1 target.2 ∧
      ∀ trackId type, HasType view.compositionPlaylist trackId type →
        HasType next.compositionPlaylist trackId type := by
  obtain ⟨enabled, performed⟩ := taken
  obtain ⟨playlist, acted, rfl⟩ := Option.map_eq_some_iff.mp performed
  -- Every drop adds one type to one virtual track.
  have of_drop {target : String × TrackType} (dropped : view.dropTarget action = some target)
      (grown : ∀ trackId type, HasType playlist trackId type ↔
        HasType view.compositionPlaylist trackId type ∨ (trackId = target.1 ∧ type = target.2)) :
      (∀ trackId type, HasType playlist trackId type →
        HasType view.compositionPlaylist trackId type ∨
          view.dropTarget action = some (trackId, type)) ∧
      ∀ target, view.dropTarget action = some target →
        HasType playlist target.1 target.2 ∧
        ∀ trackId type, HasType view.compositionPlaylist trackId type →
          HasType playlist trackId type := by
    refine ⟨fun trackId type held => ?_, fun other same => ?_⟩
    · refine ((grown trackId type).mp held).imp_right fun new => ?_
      rw [dropped, new.1, new.2]
    · cases Option.some.inj (dropped.symm.trans same)
      exact ⟨(grown _ _).mpr (Or.inr ⟨rfl, rfl⟩), fun _ _ held => (grown _ _).mpr (Or.inl held)⟩
  cases action with
  | createFirstSegment track made =>
      obtain ⟨empty, fresh⟩ := enabled
      rw [act, empty] at acted
      cases Option.some.inj acted
      exact of_drop rfl (hasType_createFirstSegment sound track fresh)
  | insertSegment drawnSegment track y append made =>
      obtain ⟨drawn, fresh⟩ := enabled
      obtain ⟨segmentRect, found, rfl⟩ := Option.map_eq_some_iff.mp acted
      exact of_drop rfl (hasType_insertSegment sound segmentRect track y append fresh)
  | insertResource drawnSegment drawnSequence position track append made =>
      obtain ⟨⟨segmentRect, sequenceRect, item⟩, found, inserted⟩ := Option.map_eq_some_iff.mp acted
      cases inserted
      obtain ⟨member, inside, -⟩ := shown.inside found
      have drawn := mem_sequences_of_mem member inside
      have dropped : view.dropTarget
          (.insertResource drawnSegment drawnSequence position track append made) =
          some ((view.compositionPlaylist.sequence sequenceRect.sequence).virtualTrackId,
            track.type) := by
        rw [dropTarget, found]
        rfl
      exact of_drop dropped (hasType_insertResource drawn item track append made)
  | addResource drawnSegment track y made =>
      obtain ⟨drawn, fresh⟩ := enabled
      obtain ⟨segmentRect, found, rfl⟩ := Option.map_eq_some_iff.mp acted
      exact of_drop rfl (hasType_addResource sound (shown.drawn found).1 track y fresh)
  | deleteResource drawnSegment drawnSequence position =>
      obtain ⟨⟨segmentRect, sequenceRect, item⟩, found, deleted⟩ := Option.bind_eq_some_iff.mp acted
      obtain ⟨member, inside, index⟩ := shown.inside found
      obtain ⟨track, next, trackMember, carried⟩ := shown.track sound.indexed member inside
      rw [← index] at next
      refine ⟨fun trackId type held => Or.inl ?_, fun target dropped => by cases dropped⟩
      exact hasType_deleteResource sound item member inside next trackMember carried deleted held

/-- From a playlist with one type in each virtual track, exactly the steps that fit lead to one. -/
theorem step_oneType_iff (shown : view.Shown) (sound : Sound view.compositionPlaylist)
    (oneType : OneTypePerTrack view.compositionPlaylist) (taken : Step view action next) :
    OneTypePerTrack next.compositionPlaylist ↔ view.TypesFit action := by
  obtain ⟨atMost, atLeast⟩ := step_hasType shown sound taken
  constructor
  · intro after target dropped other held
    obtain ⟨added, kept⟩ := atLeast target dropped
    exact after target.1 other target.2 (kept target.1 other held) added
  · intro fits trackId first second firstHeld secondHeld
    rcases atMost trackId first firstHeld with firstOld | firstNew <;>
      rcases atMost trackId second secondHeld with secondOld | secondNew
    · exact oneType trackId first second firstOld secondOld
    · exact fits (trackId, second) secondNew first firstOld
    · exact (fits (trackId, first) firstNew second secondOld).symm
    · cases Option.some.inj (firstNew.symm.trans secondNew)
      rfl

/-- A view that has just been given a playlist without segments. -/
def StartedEmpty (view : CPLSequenceView) : Prop :=
  ∃ (before : CPLSequenceView) (playlist : IMFCompositionPlaylist), playlist.segments = [] ∧
    playlist.virtualTracks = [] ∧ view = before.compositionPlaylistChanged playlist

theorem StartedEmpty.started (empty : StartedEmpty view) : Started view := by
  obtain ⟨before, playlist, segments, virtualTracks, rfl⟩ := empty
  exact ⟨before, playlist, .empty segments virtualTracks, rfl⟩

theorem StartedEmpty.oneType (empty : StartedEmpty view) :
    OneTypePerTrack view.compositionPlaylist := by
  obtain ⟨before, playlist, segments, virtualTracks, rfl⟩ := empty
  intro trackId first second held
  obtain ⟨address, member, -⟩ := held
  obtain ⟨segment, listed, -⟩ := List.mem_flatMap.mp member
  exact absurd (segments ▸ listed) List.not_mem_nil

/-- Every playlist of a run can be saved if and only if no track is dropped into a virtual track
with resources of the other type. -/
theorem playlists_savable_iff {start : CPLSequenceView} (empty : StartedEmpty start)
    {trace : List (CPLSequenceView × Action)} (run : Transition.Run Step start trace view) :
    ((∀ visited ∈ trace, Savable visited.1.compositionPlaylist) ∧
      Savable view.compositionPlaylist) ↔ Transition.Guarded TypesFit trace := by
  have sound := (shown_and_sound empty.started .refl).2
  refine run.always_iff (fun view => Savable view.compositionPlaylist)
    ((savable_iff sound).mpr empty.oneType) ?_
  intro state action next reached taken savable
  obtain ⟨shown, sound⟩ := shown_and_sound empty.started reached
  have nextSound := (shown_and_sound empty.started (reached.tail taken)).2
  exact (savable_iff nextSound).trans
    (step_oneType_iff shown sound ((savable_iff sound).mp savable) taken)

section Sample

theorem newView_empty : StartedEmpty newView := ⟨_, _, rfl, rfl, rfl⟩

/-- Audio is dropped behind the video, into the same sequence. -/
def mixedView : CPLSequenceView :=
  firstView.compositionPlaylistChanged (insertResourceAction firstView.compositionPlaylist
    ⟨0, 0, []⟩ (standardResource "r1" Sample.video ⟨0, 0⟩) Sample.audio true
    ⟨"s2", "q2", "t2", "r2"⟩)

def splitView : CPLSequenceView :=
  firstView.compositionPlaylistChanged (insertSegmentAction firstView.compositionPlaylist ⟨0, []⟩
    Sample.audio 0 true ⟨"s2", "q2", "t2", "r2"⟩)

/-- The user can build a playlist that the writer refuses, and one whose virtual track is written
as an image sequence and as an audio sequence. -/
theorem types_are_mixed :
    (∃ view, Transition.Reachable Step newView view ∧
      view.compositionPlaylist.write = .error (.compositionPlaylistException
        "Each Resource in Sequence (Virtual Track) must be of same type")) ∧
    ∃ view, Transition.Reachable Step newView view ∧
      view.compositionPlaylist.virtualTracks = [0] ∧
      (view.compositionPlaylist.virtualTrack 0).items.map (fun address =>
        (view.compositionPlaylist.sequence address).nodes.map Prod.fst) =
        [["imf:MainImageSequence"], ["imf:MainAudioSequence"]] := by
  have first := Transition.Reachable.refl.tail step_firstView
  have mixed : Step firstView (.insertResource 0 0 0 Sample.audio true ⟨"s2", "q2", "t2", "r2"⟩)
      mixedView := ⟨(rfl : (firstView.resourceAt 0 0 0).isSome = true), rfl⟩
  have split : Step firstView (.insertSegment 0 Sample.audio 0 true ⟨"s2", "q2", "t2", "r2"⟩)
      splitView := ⟨⟨by decide, by decide, by decide, by decide⟩, rfl⟩
  exact ⟨⟨mixedView, first.tail mixed, rfl⟩, ⟨splitView, first.tail split, by decide, by decide⟩⟩

/-- Video and audio in virtual tracks of their own can be saved. -/
theorem separate_tracks_savable : Savable secondView.compositionPlaylist := by
  have run := (Transition.Run.start.step step_firstView).step step_secondView
  refine ((playlists_savable_iff newView_empty run).mpr ?_).2
  refine Transition.guarded_append_singleton.mpr
    ⟨Transition.guarded_append_singleton.mpr ⟨Transition.guarded_nil, ?_⟩, ?_⟩
  · intro target _ other held
    obtain ⟨address, member, -⟩ := held
    exact absurd member List.not_mem_nil
  · intro target dropped other held
    cases Option.some.inj dropped
    obtain ⟨address, member, carried, -⟩ := held
    cases List.mem_singleton.mp member
    exact absurd carried (by decide)

end Sample

end CPLSequenceView

end Imflib.View
