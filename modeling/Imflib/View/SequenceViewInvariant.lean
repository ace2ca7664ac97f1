import Imflib.Package.PlaylistReading
import Imflib.View.SequenceView

/-! The timeline stays well formed under every run of the view's actions. -/

namespace Imflib.View

open Imflib.Package IMFCompositionPlaylist

variable {playlist : IMFCompositionPlaylist}

theorem createFirstSegmentAction_eq (playlist : IMFCompositionPlaylist) (track : IMFTrack)
    (made : MadeUUIDs) :
    createFirstSegmentAction playlist track made =
      ((playlist.insertEmptySegment made.segment
        (playlist.segments ++ [playlist.segmentStore.size])).addEmptyTrack made.track).link
        playlist.segmentStore.size playlist.trackStore.size
        ⟨made.sequence, made.track, [standardResource made.resource track playlist.editRate]⟩ := by
  simp [createFirstSegmentAction, newSegment, newSequence, newVirtualTrack, appendToSegment,
    modifySegment, setVirtualTrackId, modifySequence, appendToVirtualTrack, modifyVirtualTrack,
    appendToSequence, addSegment, addVirtualTrack, insertEmptySegment, addEmptyTrack, link,
    trackUUID, virtualTrack]

theorem virtualTrackAt_ready (indexed : playlist.Indexed) (y : Int) {madeUUID : String}
    (newUUID : madeUUID ∉ playlist.virtualTracks.map playlist.trackUUID) :
    TrackReady playlist (virtualTrackAt playlist y madeUUID).1
      (virtualTrackAt playlist y madeUUID).2 :=
  TrackReady.orNew indexed (fun _ found => List.mem_of_getElem? found) fun _ => newUUID

theorem insertSegment_perm (playlist : IMFCompositionPlaylist) (append : Bool) (address other : Nat) :
    ∃ segments : List Nat, segments.Perm (address :: playlist.segments) ∧
      (if append then playlist.insertSegmentAfter address other
        else playlist.insertSegmentBefore address other) = { playlist with segments := segments } := by
  cases append with
  | true => exact ⟨_, KeyedList.insertAfter_perm playlist.segmentUUID _ _ _, rfl⟩
  | false => exact ⟨_, KeyedList.insertBefore_perm playlist.segmentUUID _ _ _, rfl⟩

theorem newSegment_eq (playlist : IMFCompositionPlaylist) (found : Option Nat) (track : IMFTrack)
    (made : MadeUUIDs) :
    (let newSegment := playlist.newSegment ⟨made.segment, []⟩
      let newSequence := newSegment.1.newSequence ⟨made.sequence, "", []⟩
      let playlist := newSequence.1.appendToSegment newSegment.2 newSequence.2
      let virtualTrack := playlist.orNewVirtualTrack found made.track
      let playlist := virtualTrack.1.setVirtualTrackId newSequence.2
        (virtualTrack.1.trackUUID virtualTrack.2)
      let playlist := playlist.appendToVirtualTrack virtualTrack.2 newSequence.2
      let newResource := standardResource made.resource track playlist.editRate
      playlist.appendToSequence newSequence.2 newResource) =
      let ready := playlist.orNewVirtualTrack found made.track
      (ready.1.insertEmptySegment made.segment playlist.segments).link playlist.segmentStore.size
        ready.2 ⟨made.sequence, ready.1.trackUUID ready.2,
          [standardResource made.resource track playlist.editRate]⟩ := by
  cases found <;>
    simp [orNewVirtualTrack, newSegment, newSequence, newVirtualTrack, appendToSegment,
      modifySegment, setVirtualTrackId, modifySequence, appendToVirtualTrack, modifyVirtualTrack,
      appendToSequence, addVirtualTrack, insertEmptySegment, link, trackUUID, virtualTrack]

/-- The new segment is inserted with one new sequence in the virtual track at the height. -/
theorem insertSegmentAction_eq (playlist : IMFCompositionPlaylist) (segmentRect : CPLSegmentRect)
    (track : IMFTrack) (y : Int) (append : Bool) (made : MadeUUIDs) :
    let ready := virtualTrackAt playlist y made.track
    ∃ segments : List Nat, segments.Perm (playlist.segmentStore.size :: playlist.segments) ∧
      insertSegmentAction playlist segmentRect track y append made =
        (ready.1.insertEmptySegment made.segment segments).link playlist.segmentStore.size ready.2
          ⟨made.sequence, ready.1.trackUUID ready.2,
            [standardResource made.resource track playlist.editRate]⟩ := by
  have prepared := newSegment_eq playlist (getVirtualTrackFromY playlist y) track made
  intro ready
  obtain ⟨segments, perm, inserted⟩ := insertSegment_perm
    ((ready.1.insertEmptySegment made.segment playlist.segments).link playlist.segmentStore.size
      ready.2 ⟨made.sequence, ready.1.trackUUID ready.2,
        [standardResource made.resource track playlist.editRate]⟩)
    append playlist.segmentStore.size segmentRect.item
  refine ⟨segments, perm, ?_⟩
  refine Eq.trans ?_ inserted
  exact congrArg (fun prepared : IMFCompositionPlaylist =>
    if append then prepared.insertSegmentAfter playlist.segmentStore.size segmentRect.item
    else prepared.insertSegmentBefore playlist.segmentStore.size segmentRect.item) prepared

theorem newSequence_eq (playlist : IMFCompositionPlaylist) (segment track : Nat) (uuid : String)
    (newResource : CPLResource) :
    (let newSequence := playlist.newSequence ⟨uuid, "", []⟩
      let playlist := newSequence.1.appendToSegment segment newSequence.2
      let playlist := playlist.appendToVirtualTrack track newSequence.2
      let playlist := playlist.setVirtualTrackId newSequence.2 (playlist.trackUUID track)
      playlist.appendToSequence newSequence.2 newResource) =
      playlist.link segment track ⟨uuid, playlist.trackUUID track, [newResource]⟩ := by
  simp [newSequence, appendToSegment, modifySegment, setVirtualTrackId, modifySequence,
    appendToVirtualTrack, modifyVirtualTrack, appendToSequence, link, trackUUID, virtualTrack]

theorem addResourceAction_eq (playlist : IMFCompositionPlaylist) (segmentRect : CPLSegmentRect)
    (track : IMFTrack) (y : Int) (made : MadeUUIDs) :
    let newResource := standardResource made.resource track playlist.editRate
    (∃ virtualTrack sequence, getVirtualTrackFromY playlist y = some virtualTrack ∧
      findSequence playlist segmentRect.item virtualTrack = some sequence ∧
      addResourceAction playlist segmentRect track y made =
        playlist.appendToSequence sequence newResource) ∨
    ((∀ virtualTrack ∈ getVirtualTrackFromY playlist y,
        findSequence playlist segmentRect.item virtualTrack = none) ∧
      let ready := virtualTrackAt playlist y made.track
      addResourceAction playlist segmentRect track y made =
        ready.1.link segmentRect.item ready.2
          ⟨made.sequence, ready.1.trackUUID ready.2, [newResource]⟩) := by
  intro newResource
  cases found : getVirtualTrackFromY playlist y with
  | none =>
      refine Or.inr ⟨fun _ listed => (by cases listed), ?_⟩
      simp only [addResourceAction, virtualTrackAt, found]
      exact newSequence_eq _ segmentRect.item _ made.sequence newResource
  | some virtualTrack =>
      cases searched : findSequence playlist segmentRect.item virtualTrack with
      | none =>
          refine Or.inr ⟨fun _ listed => (Option.some.inj listed) ▸ searched, ?_⟩
          simp only [addResourceAction, virtualTrackAt, found, searched]
          exact newSequence_eq _ segmentRect.item _ made.sequence newResource
      | some sequence =>
          refine Or.inl ⟨virtualTrack, sequence, rfl, searched, ?_⟩
          simp only [addResourceAction, virtualTrackAt, found, searched]
          rfl

theorem findSequence_none {segment track : Nat}
    (notFound : findSequence playlist segment track = none) {sequence : Nat}
    (inside : sequence ∈ (playlist.segment segment).items) :
    sequence ∉ (playlist.virtualTrack track).items := by
  intro listed
  have absent := KeyedList.find_eq_none _ (List.findSome?_eq_none_iff.mp notFound sequence inside)
  exact absent (List.mem_map_of_mem listed)

theorem virtualTrackAt_apart (indexed : playlist.Indexed) {segment : Nat}
    (member : segment ∈ playlist.segments) {y : Int} {madeUUID : String}
    (newUUID : madeUUID ∉ playlist.virtualTracks.map playlist.trackUUID)
    (notFound : ∀ virtualTrack ∈ getVirtualTrackFromY playlist y,
      findSequence playlist segment virtualTrack = none) :
    (virtualTrackAt playlist y madeUUID).1.trackUUID (virtualTrackAt playlist y madeUUID).2 ∉
      (playlist.segment segment).items.map fun address =>
        (playlist.sequence address).virtualTrackId := by
  intro carried
  obtain ⟨sequence, inside, same⟩ := List.mem_map.mp carried
  have present := mem_sequences_of_mem member inside
  unfold virtualTrackAt at same
  cases found : getVirtualTrackFromY playlist y with
  | none =>
      rw [found] at same
      have uuid := same.trans (playlist.trackUUID_addEmptyTrack madeUUID)
      exact newUUID (uuid ▸ indexed.consistent.owned sequence present)
  | some track =>
      rw [found] at same
      have listed := (indexed.consistent.listed track (List.mem_of_getElem? found) sequence).mpr
        ⟨present, same⟩
      exact findSequence_none (notFound track found) inside listed

structure Sound (playlist : IMFCompositionPlaylist) : Prop where
  indexed : playlist.Indexed
  distinct : playlist.Distinct
  filled : playlist.index.Filled
  resources : ∀ address ∈ playlist.sequences, (playlist.sequence address).items ≠ []
  onePerTrack : playlist.index.OnePerTrack

/-- A playlist that is sound but for the segment and the virtual track that a new sequence is
linked to, which may be empty. -/
structure Linkable (playlist : IMFCompositionPlaylist) (segment track : Nat) : Prop where
  indexed : playlist.Indexed
  distinct : playlist.Distinct
  segmentMember : segment ∈ playlist.segments
  trackMember : track ∈ playlist.virtualTracks
  otherSegments : ∀ other ∈ playlist.segments, other ≠ segment → (playlist.segment other).items ≠ []
  otherTracks : ∀ other ∈ playlist.virtualTracks, other ≠ track →
    (playlist.virtualTrack other).items ≠ []
  resources : ∀ address ∈ playlist.sequences, (playlist.sequence address).items ≠ []
  onePerTrack : playlist.index.OnePerTrack
  apart : playlist.trackUUID track ∉
    (playlist.segment segment).items.map fun address => (playlist.sequence address).virtualTrackId

theorem Linkable.link {segment track : Nat} (linkable : Linkable playlist segment track)
    {sequence : CPLSequence} (carried : sequence.virtualTrackId = playlist.trackUUID track)
    (newUUID : sequence.uuid ∉ playlist.sequences.map playlist.sequenceUUID)
    (nonempty : sequence.items ≠ []) : Sound (playlist.link segment track sequence) := by
  have index := playlist.index_link segment track sequence carried
  refine
    { indexed := linkable.indexed.link linkable.segmentMember linkable.trackMember carried
      distinct := linkable.distinct.link linkable.indexed linkable.segmentMember carried newUUID
      filled := ?_
      resources := linkable.indexed.each_link linkable.segmentMember track carried
        (fun sequence => sequence.items ≠ []) linkable.resources nonempty
      onePerTrack := ?_ }
  · rw [index]
    exact CrossIndex.Filled.link _ linkable.otherSegments linkable.otherTracks
  · rw [index]
    exact linkable.onePerTrack.link track linkable.segmentMember linkable.indexed.fresh_sequence
      linkable.apart

theorem Linkable.of_ready (sound : Sound playlist) {after : IMFCompositionPlaylist} {track : Nat}
    (ready : TrackReady playlist after track) {segment : Nat} (member : segment ∈ playlist.segments)
    (apart : after.trackUUID track ∉
      (playlist.segment segment).items.map fun address => (playlist.sequence address).virtualTrackId) :
    Linkable after segment track := by
  have otherTracks := ready.otherTracks sound.filled
  have distinct := ready.distinct sound.distinct
  have indexed := ready.indexed
  have trackMember := ready.member
  obtain ⟨_, _, rfl⟩ := ready.same
  exact
    { indexed := indexed
      distinct := distinct
      segmentMember := member
      trackMember := trackMember
      otherSegments := fun other listed _ => sound.filled.groups other listed
      otherTracks := otherTracks
      resources := sound.resources
      onePerTrack := sound.onePerTrack
      apart := apart }

theorem Linkable.of_new_segment (sound : Sound playlist) {after : IMFCompositionPlaylist}
    {track : Nat} (ready : TrackReady playlist after track) {uuid : String}
    (newUUID : uuid ∉ playlist.segments.map playlist.segmentUUID) {segments : List Nat}
    (inserted : segments.Perm (playlist.segmentStore.size :: playlist.segments)) :
    Linkable (after.insertEmptySegment uuid segments) playlist.segmentStore.size track := by
  have otherTracks := ready.otherTracks sound.filled
  have distinct := ready.distinct sound.distinct
  have indexed := ready.indexed
  have trackMember := ready.member
  obtain ⟨virtualTracks, trackStore, rfl⟩ := ready.same
  have sequences := indexed.sequences_insertEmptySegment_perm uuid inserted
  have own := playlist.segmentStore.cell_alloc_size ⟨uuid, []⟩
  refine
    { indexed := indexed.insertEmptySegment uuid inserted
      distinct := distinct.insertEmptySegment indexed newUUID inserted
      segmentMember := inserted.mem_iff.mpr List.mem_cons_self
      trackMember := trackMember
      otherSegments := ?_
      otherTracks := otherTracks
      resources := fun address member => sound.resources address (sequences.mem_iff.mp member)
      onePerTrack := ?_
      apart := ?_ }
  · intro other listed different
    have old := (List.mem_cons.mp (inserted.mem_iff.mp listed)).resolve_left different
    have kept := playlist.segmentStore.cell_alloc_of_ne ⟨uuid, []⟩ different
    have same : ((insertEmptySegment { playlist with virtualTracks := virtualTracks, trackStore := trackStore }
        uuid segments).segment other) = playlist.segment other := kept
    rw [same]
    exact sound.filled.groups other old
  · rw [index_insertEmptySegment]
    exact CrossIndex.OnePerTrack.addGroup sound.onePerTrack inserted
  · have empty : ((insertEmptySegment { playlist with virtualTracks := virtualTracks, trackStore := trackStore }
        uuid segments).segment playlist.segmentStore.size) = ⟨uuid, []⟩ := own
    rw [empty]
    exact List.not_mem_nil

theorem deleteResourceAction_eq (playlist : IMFCompositionPlaylist) (segmentRect : CPLSegmentRect)
    {sequenceRect : CPLSequenceRect} (resource : CPLResource) {track : Nat}
    (index : nextVirtualTrack playlist sequenceRect.trackIndex = some track) :
    deleteResourceAction playlist segmentRect sequenceRect resource =
      some (if ((playlist.deleteFromSequence sequenceRect.sequence resource).sequence
          sequenceRect.sequence).items.isEmpty then
        (playlist.deleteFromSequence sequenceRect.sequence resource).deleteSequence
          segmentRect.item track sequenceRect.sequence
        else playlist.deleteFromSequence sequenceRect.sequence resource) := by
  have kept : nextVirtualTrack ((playlist.deleteFromSequence sequenceRect.sequence
      resource).deleteFromSegment segmentRect.item sequenceRect.sequence) sequenceRect.trackIndex =
      some track := index
  unfold deleteResourceAction
  simp only [kept, ← apply_ite some]
  rfl

namespace Sound

theorem newSegment (sound : Sound playlist) {after : IMFCompositionPlaylist} {track : Nat}
    (ready : TrackReady playlist after track) {made : MadeUUIDs} (fresh : Fresh playlist made)
    {segments : List Nat}
    (inserted : segments.Perm (playlist.segmentStore.size :: playlist.segments))
    (resource : CPLResource) :
    Sound ((after.insertEmptySegment made.segment segments).link playlist.segmentStore.size track
      ⟨made.sequence, after.trackUUID track, [resource]⟩) := by
  have linkable := Linkable.of_new_segment sound ready fresh.segment inserted
  refine linkable.link rfl ?_ (List.cons_ne_nil _ _)
  have size : playlist.segmentStore.size = after.segmentStore.size := by
    obtain ⟨_, _, rfl⟩ := ready.same
    rfl
  have uuids := ready.indexed.sequenceUUIDs_insertEmptySegment_perm made.segment
    (size ▸ ready.segments.symm ▸ inserted)
  rw [uuids.mem_iff, ready.sequenceUUIDs]
  exact fresh.sequence

theorem createFirstSegment (sound : Sound playlist) (track : IMFTrack) {made : MadeUUIDs}
    (fresh : Fresh playlist made) : Sound (createFirstSegmentAction playlist track made) := by
  have ready := TrackReady.added sound.indexed fresh.track
  have uuid := playlist.trackUUID_addEmptyTrack made.track
  have inserted : (playlist.segments ++ [playlist.segmentStore.size]).Perm
      (playlist.segmentStore.size :: playlist.segments) := List.perm_append_singleton _ _
  have placed := sound.newSegment ready fresh inserted
    (standardResource made.resource track playlist.editRate)
  rw [uuid] at placed
  rw [createFirstSegmentAction_eq]
  exact placed

theorem insertSegment (sound : Sound playlist) (segmentRect : CPLSegmentRect) (track : IMFTrack)
    (y : Int) (append : Bool) {made : MadeUUIDs} (fresh : Fresh playlist made) :
    Sound (insertSegmentAction playlist segmentRect track y append made) := by
  have ready := virtualTrackAt_ready sound.indexed y fresh.track
  obtain ⟨segments, inserted, same⟩ := insertSegmentAction_eq playlist segmentRect track y append made
  rw [same]
  exact sound.newSegment ready fresh inserted _

theorem modifySequence (sound : Sound playlist) {address : Nat}
    {change : CPLSequence → CPLSequence}
    (uuid : (change (playlist.sequence address)).uuid = playlist.sequenceUUID address)
    (virtualTrackId : (change (playlist.sequence address)).virtualTrackId =
      (playlist.sequence address).virtualTrackId)
    (nonempty : (change (playlist.sequence address)).items ≠ []) :
    Sound (playlist.modifySequence address change) := by
  have index := playlist.index_modifySequence address change virtualTrackId
  exact
    { indexed := sound.indexed.modifySequence virtualTrackId
      distinct := sound.distinct.modifySequence uuid
      filled := index ▸ sound.filled
      resources := Indexed.each_modifySequence (fun sequence => sequence.items ≠ [])
        sound.resources nonempty
      onePerTrack := index ▸ sound.onePerTrack }

theorem insertResource (sound : Sound playlist) (sequenceRect : CPLSequenceRect)
    (resource : CPLResource) (track : IMFTrack) (append : Bool) (made : MadeUUIDs) :
    Sound (insertResourceAction playlist sequenceRect resource track append made) := by
  refine sound.modifySequence rfl rfl ?_
  cases append with
  | true =>
      exact List.ne_nil_of_mem
        ((KeyedList.insertAfter_perm CPLResource.uuid _ _ _).mem_iff.mpr List.mem_cons_self)
  | false =>
      exact List.ne_nil_of_mem
        ((KeyedList.insertBefore_perm CPLResource.uuid _ _ _).mem_iff.mpr List.mem_cons_self)

theorem addResource (sound : Sound playlist) {segmentRect : CPLSegmentRect}
    (drawn : segmentRect.item ∈ playlist.segments) (track : IMFTrack) (y : Int) {made : MadeUUIDs}
    (fresh : Fresh playlist made) :
    Sound (addResourceAction playlist segmentRect track y made) := by
  rcases addResourceAction_eq playlist segmentRect track y made with
    ⟨virtualTrack, sequence, -, -, same⟩ | ⟨notFound, same⟩
  · rw [same]
    exact sound.modifySequence rfl rfl (List.append_ne_nil_of_right_ne_nil _ (List.cons_ne_nil _ _))
  · have ready := virtualTrackAt_ready sound.indexed y fresh.track
    have apart : (virtualTrackAt playlist y made.track).1.trackUUID
        (virtualTrackAt playlist y made.track).2 ∉
        (playlist.segment segmentRect.item).items.map fun address =>
          (playlist.sequence address).virtualTrackId :=
      virtualTrackAt_apart sound.indexed drawn fresh.track notFound
    have linkable := Linkable.of_ready sound ready drawn apart
    rw [same]
    refine linkable.link rfl ?_ (List.cons_ne_nil _ _)
    rw [ready.sequenceUUIDs]
    exact fresh.sequence

theorem carried_deleteFromSequence (playlist : IMFCompositionPlaylist) (sequence track : Nat)
    (resource : CPLResource)
    (carried : (playlist.sequence sequence).virtualTrackId = playlist.trackUUID track) :
    ((playlist.deleteFromSequence sequence resource).sequence sequence).virtualTrackId =
      playlist.trackUUID track := by
  rw [deleteFromSequence, playlist.sequence_modifySequence_self]
  exact carried

theorem mem_sequences_deleteSequence (sound : Sound playlist) {segment sequence track : Nat}
    (resource : CPLResource) (segmentMember : segment ∈ playlist.segments)
    (inside : sequence ∈ (playlist.segment segment).items)
    (trackMember : track ∈ playlist.virtualTracks)
    (carried : (playlist.sequence sequence).virtualTrackId = playlist.trackUUID track) {address : Nat}
    (member : address ∈ ((playlist.deleteFromSequence sequence resource).deleteSequence segment track
      sequence).sequences) :
    address ∈ playlist.sequences ∧ ((playlist.deleteFromSequence sequence resource).deleteSequence
      segment track sequence).sequence address = playlist.sequence address := by
  have indexed : (playlist.deleteFromSequence sequence resource).Indexed :=
    sound.indexed.modifySequence rfl
  have distinct : (playlist.deleteFromSequence sequence resource).Distinct :=
    sound.distinct.modifySequence rfl
  have sequences := indexed.sequences_deleteSequence_perm distinct segmentMember inside trackMember
    (carried_deleteFromSequence playlist sequence track resource carried)
  obtain ⟨old, different⟩ := List.mem_filter.mp (sequences.mem_iff.mp member)
  refine ⟨old, ?_⟩
  rw [sequence_deleteSequence]
  exact playlist.sequence_modifySequence_of_ne _ (of_decide_eq_true different)

theorem index_deleteSequence (sound : Sound playlist) {segment sequence track : Nat}
    (resource : CPLResource) (segmentMember : segment ∈ playlist.segments)
    (inside : sequence ∈ (playlist.segment segment).items)
    (trackMember : track ∈ playlist.virtualTracks)
    (carried : (playlist.sequence sequence).virtualTrackId = playlist.trackUUID track) :
    ((playlist.deleteFromSequence sequence resource).deleteSequence segment track sequence).index =
      playlist.index.remove segment track sequence := by
  have same : (playlist.deleteFromSequence sequence resource).index = playlist.index :=
    playlist.index_modifySequence sequence _ rfl
  have indexed : (playlist.deleteFromSequence sequence resource).Indexed :=
    sound.indexed.modifySequence rfl
  have distinct : (playlist.deleteFromSequence sequence resource).Distinct :=
    sound.distinct.modifySequence rfl
  have removed := IMFCompositionPlaylist.index_deleteSequence indexed distinct segmentMember inside
    trackMember (carried_deleteFromSequence playlist sequence track resource carried)
  rwa [same] at removed

theorem deleteSequence (sound : Sound playlist) {segment sequence track : Nat}
    (resource : CPLResource) (segmentMember : segment ∈ playlist.segments)
    (inside : sequence ∈ (playlist.segment segment).items)
    (trackMember : track ∈ playlist.virtualTracks)
    (carried : (playlist.sequence sequence).virtualTrackId = playlist.trackUUID track) :
    Sound ((playlist.deleteFromSequence sequence resource).deleteSequence segment track
      sequence) := by
  have indexed : (playlist.deleteFromSequence sequence resource).Indexed :=
    sound.indexed.modifySequence rfl
  have distinct : (playlist.deleteFromSequence sequence resource).Distinct :=
    sound.distinct.modifySequence rfl
  have stillCarried := carried_deleteFromSequence playlist sequence track resource carried
  have removed := sound.index_deleteSequence resource segmentMember inside trackMember carried
  refine
    { indexed := indexed.deleteSequence distinct segmentMember inside trackMember stillCarried
      distinct := distinct.deleteSequence indexed segmentMember inside trackMember stillCarried
      filled := removed ▸ sound.filled.remove segment track sequence
      resources := ?_
      onePerTrack := removed ▸ sound.onePerTrack.remove segment track sequence }
  intro address member
  obtain ⟨old, kept⟩ := sound.mem_sequences_deleteSequence resource segmentMember inside trackMember
    carried member
  rw [kept]
  exact sound.resources address old

theorem deleteResource (sound : Sound playlist) {segmentRect : CPLSegmentRect}
    {sequenceRect : CPLSequenceRect} (resource : CPLResource)
    (drawn : segmentRect.item ∈ playlist.segments)
    (inside : sequenceRect.sequence ∈ (playlist.segment segmentRect.item).items) {track : Nat}
    (index : nextVirtualTrack playlist sequenceRect.trackIndex = some track)
    (trackMember : track ∈ playlist.virtualTracks)
    (carried : (playlist.sequence sequenceRect.sequence).virtualTrackId = playlist.trackUUID track) :
    ∃ result, deleteResourceAction playlist segmentRect sequenceRect resource = some result ∧
      Sound result := by
  rw [deleteResourceAction_eq playlist segmentRect resource index]
  refine ⟨_, rfl, ?_⟩
  split
  · exact sound.deleteSequence resource drawn inside trackMember carried
  · rename_i nonempty
    refine sound.modifySequence rfl rfl ?_
    intro empty
    rw [deleteFromSequence, playlist.sequence_modifySequence_self] at nonempty
    exact nonempty (List.isEmpty_iff.mpr empty)

end Sound

section Map

variable (playlist : IMFCompositionPlaylist)

theorem mapVirtualTracks_of_not_mem {tracks : List Nat} {uuid : String}
    (absent : uuid ∉ tracks.map playlist.trackUUID) (idx : Nat) (virtualTrackMap : String → Int) :
    CPLSequenceView.mapVirtualTracks playlist idx tracks virtualTrackMap uuid =
      virtualTrackMap uuid := by
  induction tracks generalizing idx virtualTrackMap with
  | nil => rfl
  | cons track rest ih =>
      have different : uuid ≠ playlist.trackUUID track :=
        fun same => absent (same ▸ List.mem_cons_self)
      have elsewhere : uuid ∉ rest.map playlist.trackUUID :=
        fun member => absent (List.mem_cons_of_mem _ member)
      rw [CPLSequenceView.mapVirtualTracks, ih elsewhere, Function.update_of_ne different]

/-- The map has the position of every virtual track, whatever was in it before. -/
theorem mapVirtualTracks_getElem {tracks : List Nat}
    (distinct : (tracks.map playlist.trackUUID).Nodup) {position track : Nat}
    (listed : tracks[position]? = some track) (idx : Nat) (virtualTrackMap : String → Int) :
    CPLSequenceView.mapVirtualTracks playlist idx tracks virtualTrackMap
      (playlist.trackUUID track) = (idx + position : Nat) := by
  induction tracks generalizing idx position virtualTrackMap with
  | nil => cases listed
  | cons head rest ih =>
      obtain ⟨headNew, restDistinct⟩ := List.nodup_cons.mp distinct
      rw [CPLSequenceView.mapVirtualTracks]
      cases position with
      | zero =>
          cases Option.some.inj listed
          rw [mapVirtualTracks_of_not_mem playlist headNew, Function.update_self]
          rfl
      | succ position =>
          rw [ih restDistinct listed]
          congr 1
          omega

end Map

namespace CPLSequenceView

variable {view : CPLSequenceView}

/-- The scene shows the playlist, and the map has the positions of its virtual tracks. -/
structure Shown (view : CPLSequenceView) : Prop where
  scene : view.scene = paintScene view.compositionPlaylist view.virtualTrackMap
  positions : ∀ (position track : Nat),
    view.compositionPlaylist.virtualTracks[position]? = some track →
    view.virtualTrackMap (view.compositionPlaylist.trackUUID track) = position

theorem shown_of_changed (view : CPLSequenceView) {playlist : IMFCompositionPlaylist}
    (distinct : (playlist.virtualTracks.map playlist.trackUUID).Nodup) :
    (view.compositionPlaylistChanged playlist).Shown := by
  refine ⟨rfl, fun position track listed => ?_⟩
  have mapped := mapVirtualTracks_getElem playlist distinct listed 0 view.virtualTrackMap
  rwa [Nat.zero_add] at mapped

theorem Shown.drawn (shown : view.Shown) {segment : Nat} {segmentRect : CPLSegmentRect}
    (found : view.scene[segment]? = some segmentRect) :
    segmentRect.item ∈ view.compositionPlaylist.segments ∧
      segmentRect = appendSegment view.compositionPlaylist view.virtualTrackMap segmentRect.item := by
  have member := List.mem_of_getElem? found
  rw [shown.scene] at member
  obtain ⟨item, listed, rfl⟩ := List.mem_map.mp member
  exact ⟨listed, rfl⟩

theorem Shown.inside (shown : view.Shown) {segment sequence resource : Nat}
    {segmentRect : CPLSegmentRect} {sequenceRect : CPLSequenceRect} {item : CPLResource}
    (found : view.resourceAt segment sequence resource = some (segmentRect, sequenceRect, item)) :
    segmentRect.item ∈ view.compositionPlaylist.segments ∧
      sequenceRect.sequence ∈ (view.compositionPlaylist.segment segmentRect.item).items ∧
      sequenceRect.trackIndex = view.virtualTrackMap
        (view.compositionPlaylist.sequence sequenceRect.sequence).virtualTrackId := by
  unfold resourceAt at found
  obtain ⟨drawnSegment, segmentFound, found⟩ := Option.bind_eq_some_iff.mp found
  obtain ⟨drawnSequence, sequenceFound, found⟩ := Option.bind_eq_some_iff.mp found
  obtain ⟨drawnResource, resourceFound, found⟩ := Option.bind_eq_some_iff.mp found
  cases Option.some.inj found
  obtain ⟨listed, same⟩ := shown.drawn segmentFound
  have member := List.mem_of_getElem? sequenceFound
  rw [same] at member
  obtain ⟨address, inside, rfl⟩ := List.mem_map.mp member
  exact ⟨listed, inside, rfl⟩

theorem Shown.track (shown : view.Shown) (indexed : view.compositionPlaylist.Indexed)
    {segment sequence : Nat} (member : segment ∈ view.compositionPlaylist.segments)
    (inside : sequence ∈ (view.compositionPlaylist.segment segment).items) :
    ∃ track, nextVirtualTrack view.compositionPlaylist (view.virtualTrackMap
        (view.compositionPlaylist.sequence sequence).virtualTrackId) = some track ∧
      track ∈ view.compositionPlaylist.virtualTracks ∧
      (view.compositionPlaylist.sequence sequence).virtualTrackId =
        view.compositionPlaylist.trackUUID track := by
  have owned := indexed.consistent.owned sequence (mem_sequences_of_mem member inside)
  obtain ⟨track, listed, carried⟩ := List.mem_map.mp owned
  obtain ⟨position, found⟩ := List.mem_iff_getElem?.mp listed
  have mapped := shown.positions position track found
  refine ⟨track, ?_, listed, carried.symm⟩
  have index : view.virtualTrackMap
      (view.compositionPlaylist.sequence sequence).virtualTrackId = position :=
    (congrArg view.virtualTrackMap carried.symm).trans mapped
  rw [index, nextVirtualTrack, if_pos (Int.natCast_nonneg position), Int.toNat_natCast]
  exact found

/-- Every action that is enabled is defined, and leaves a sound playlist. -/
theorem act_sound (shown : view.Shown) (sound : Sound view.compositionPlaylist) {action : Action}
    (enabled : view.Enabled action) : ∃ playlist, view.act action = some playlist ∧ Sound playlist := by
  cases action with
  | createFirstSegment track made =>
      obtain ⟨empty, fresh⟩ := enabled
      refine ⟨_, ?_, sound.createFirstSegment track fresh⟩
      simp [act, empty]
  | insertSegment segment track y append made =>
      obtain ⟨drawn, fresh⟩ := enabled
      refine ⟨_, ?_, sound.insertSegment view.scene[segment] track y append fresh⟩
      simp [act, drawn]
  | insertResource segment sequence resource track append made =>
      obtain ⟨⟨segmentRect, sequenceRect, item⟩, found⟩ := Option.isSome_iff_exists.mp enabled
      refine ⟨_, ?_, sound.insertResource sequenceRect item track append made⟩
      simp [act, found]
  | addResource segment track y made =>
      obtain ⟨drawn, fresh⟩ := enabled
      have listed := (shown.drawn (List.getElem?_eq_getElem drawn)).1
      refine ⟨_, ?_, sound.addResource listed track y fresh⟩
      simp [act, drawn]
  | deleteResource segment sequence resource =>
      obtain ⟨⟨segmentRect, sequenceRect, item⟩, found⟩ := Option.isSome_iff_exists.mp enabled
      obtain ⟨member, inside, index⟩ := shown.inside found
      obtain ⟨track, next, trackMember, carried⟩ := shown.track sound.indexed member inside
      rw [← index] at next
      obtain ⟨playlist, deleted, result⟩ :=
        sound.deleteResource item member inside next trackMember carried
      refine ⟨playlist, ?_, result⟩
      simp [act, found, deleted]

end CPLSequenceView

end Imflib.View
