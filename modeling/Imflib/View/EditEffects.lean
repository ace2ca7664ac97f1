import Imflib.View.TimelineEdits

/-! Every action of the view does its edit and nothing else. -/

namespace Imflib.View

open Imflib.Package IMFCompositionPlaylist ListEdits

variable {playlist : IMFCompositionPlaylist}

/-- Segments, sequences and virtual tracks agree, and identifiers tell them and the resources of
a sequence apart. -/
structure Regular (playlist : IMFCompositionPlaylist) : Prop where
  indexed : playlist.Indexed
  distinct : playlist.Distinct
  resources : ∀ address ∈ playlist.sequences,
    ((playlist.sequence address).items.map CPLResource.uuid).Nodup

section Link

theorem timeline_link (indexed : playlist.Indexed) {position segment : Nat}
    (found : playlist.segments[position]? = some segment) (track : Nat) (sequence : CPLSequence) :
    (playlist.link segment track sequence).timeline =
      playlist.timeline.modify position (Contents.withSequences (· ++ [sequence])) := by
  have member := List.mem_of_getElem? found
  apply map_eq_modify indexed.consistent.groups_nodup found
  · exact segmentValue_link_self indexed member track sequence
  · intro other listed different
    exact segmentValue_link_of_ne indexed listed different track sequence

theorem map_sequenceUUID_link (indexed : playlist.Indexed) (segment : Nat) {track other : Nat}
    (member : other ∈ playlist.virtualTracks) (sequence : CPLSequence) :
    (playlist.virtualTrack other).items.map (playlist.link segment track sequence).sequenceUUID =
      (playlist.virtualTrack other).items.map playlist.sequenceUUID := by
  apply List.map_congr_left
  intro address listed
  have present := ((indexed.consistent.listed other member address).mp listed).1
  exact congrArg CPLSequence.uuid
    (playlist.sequenceStore.cell_alloc_of_lt sequence (indexed.sequences address present))

theorem trackValues_link (indexed : playlist.Indexed) {row track : Nat}
    (found : playlist.virtualTracks[row]? = some track) (segment : Nat) (sequence : CPLSequence) :
    trackValues (playlist.link segment track sequence) =
      (trackValues playlist).modify row (Contents.withListed (· ++ [sequence.uuid])) := by
  have uuids : (playlist.link segment track sequence).trackUUID = playlist.trackUUID :=
    trackUUID_appendToVirtualTrack _ track _
  have member := List.mem_of_getElem? found
  apply map_eq_modify indexed.consistent.tracks_nodup found
  · have items : ((playlist.link segment track sequence).virtualTrack track).items =
        (playlist.virtualTrack track).items ++ [playlist.sequenceStore.size] :=
      congrArg CPLVirtualTrack.items (playlist.trackStore.cell_modify_self track fun list =>
        { list with items := list.items ++ [playlist.sequenceStore.size] })
    have added : (playlist.link segment track sequence).sequenceUUID playlist.sequenceStore.size =
        sequence.uuid := congrArg CPLSequence.uuid (playlist.sequenceStore.cell_alloc_size sequence)
    rw [trackValue, uuids, items, List.map_append, map_sequenceUUID_link indexed segment member,
      List.map_singleton, added]
    rfl
  · intro other listed different
    have items : ((playlist.link segment track sequence).virtualTrack other).items =
        (playlist.virtualTrack other).items :=
      congrArg CPLVirtualTrack.items (playlist.trackStore.cell_modify_of_ne (fun list =>
        { list with items := list.items ++ [playlist.sequenceStore.size] }) different)
    rw [trackValue, uuids, items, map_sequenceUUID_link indexed segment listed]
    rfl

end Link

section NewTrack

variable {y : Int} {madeUUID : String}

theorem trackUUID_virtualTrackAt (playlist : IMFCompositionPlaylist) (y : Int) (madeUUID : String) :
    (virtualTrackAt playlist y madeUUID).1.trackUUID (virtualTrackAt playlist y madeUUID).2 =
      (contents playlist).trackIdAt (rowOf y) madeUUID := by
  have row : getVirtualTrackFromY playlist y = playlist.virtualTracks[rowOf y]? := rfl
  have read : (contents playlist).virtualTracks[rowOf y]? =
      playlist.virtualTracks[rowOf y]?.map (trackValue playlist) := List.getElem?_map
  rw [Contents.trackIdAt, read, virtualTrackAt, row]
  cases playlist.virtualTracks[rowOf y]? with
  | some track => rfl
  | none => exact playlist.trackUUID_addEmptyTrack madeUUID

theorem trackValues_addEmptyTrack (indexed : playlist.Indexed) (uuid : String) :
    trackValues (playlist.addEmptyTrack uuid) = trackValues playlist ++ [⟨uuid, []⟩] := by
  have tracks : (playlist.addEmptyTrack uuid).virtualTracks =
      playlist.virtualTracks ++ [playlist.trackStore.size] := rfl
  rw [trackValues, tracks, List.map_append, List.map_singleton]
  congr 1
  · apply List.map_congr_left
    intro track member
    have kept : (playlist.addEmptyTrack uuid).virtualTrack track = playlist.virtualTrack track :=
      playlist.trackStore.cell_alloc_of_lt _ (indexed.tracks track member)
    rw [trackValue, trackUUID, kept]
    rfl
  · have new : (playlist.addEmptyTrack uuid).virtualTrack playlist.trackStore.size = ⟨uuid, []⟩ :=
      playlist.trackStore.cell_alloc_size _
    rw [trackValue, trackUUID, new]
    rfl

theorem trackValues_link_new {after : IMFCompositionPlaylist} (indexed : after.Indexed)
    (before : playlist.Indexed)
    (tracks : after.virtualTracks = (playlist.addEmptyTrack madeUUID).virtualTracks)
    (values : trackValues after = trackValues (playlist.addEmptyTrack madeUUID)) (segment : Nat)
    (sequence : CPLSequence) :
    trackValues (after.link segment playlist.trackStore.size sequence) =
      trackValues playlist ++ [⟨madeUUID, [sequence.uuid]⟩] := by
  have length : (trackValues playlist).length = playlist.virtualTracks.length := List.length_map _
  have last : after.virtualTracks[playlist.virtualTracks.length]? =
      some playlist.trackStore.size := by
    rw [tracks]
    exact List.getElem?_concat_length
  rw [trackValues_link indexed last segment sequence, values,
    trackValues_addEmptyTrack before madeUUID, ← length, ← List.insertIdx_length_self,
    modify_insertIdx, List.insertIdx_length_self]
  rfl

theorem trackValues_link_virtualTrackAt {after : IMFCompositionPlaylist} (indexed : after.Indexed)
    (before : playlist.Indexed)
    (tracks : after.virtualTracks = (virtualTrackAt playlist y madeUUID).1.virtualTracks)
    (values : trackValues after = trackValues (virtualTrackAt playlist y madeUUID).1)
    (segment : Nat) (sequence : CPLSequence) :
    trackValues (after.link segment (virtualTrackAt playlist y madeUUID).2 sequence) =
      Contents.listSequence (rowOf y) madeUUID sequence.uuid (trackValues playlist) := by
  have row : getVirtualTrackFromY playlist y = playlist.virtualTracks[rowOf y]? := rfl
  have length : (trackValues playlist).length = playlist.virtualTracks.length := List.length_map _
  rw [virtualTrackAt, row] at tracks values ⊢
  rw [Contents.listSequence, length]
  cases found : playlist.virtualTracks[rowOf y]? with
  | some track =>
      rw [found] at tracks values
      have kept : trackValues after = trackValues playlist := values
      rw [if_pos (List.getElem?_eq_some_iff.mp found).1, ← kept]
      exact trackValues_link indexed (tracks ▸ found) segment sequence
  | none =>
      rw [found] at tracks values
      rw [if_neg (Nat.not_lt.mpr (List.getElem?_eq_none_iff.mp found))]
      exact trackValues_link_new indexed before tracks values segment sequence

end NewTrack

section NewSegment

theorem timeline_insertEmptySegment (indexed : playlist.Indexed) {place : Nat}
    (within : place ≤ playlist.segments.length) (uuid : String) :
    (playlist.insertEmptySegment uuid (playlist.segments.take place ++
      playlist.segmentStore.size :: playlist.segments.drop place)).timeline =
      playlist.timeline.insertIdx place ⟨uuid, []⟩ := by
  have kept : playlist.segments.map (playlist.insertEmptySegment uuid (playlist.segments.take place ++
      playlist.segmentStore.size :: playlist.segments.drop place)).segmentValue =
      playlist.timeline := by
    apply List.map_congr_left
    intro segment member
    exact segmentValue_insertEmptySegment_of_mem indexed member uuid _
  unfold timeline
  rw [← segmentValue_insertEmptySegment_self playlist uuid (playlist.segments.take place ++
    playlist.segmentStore.size :: playlist.segments.drop place)]
  refine (congrArg (List.map _) (take_cons_drop within playlist.segmentStore.size)).trans ?_
  rw [List.map_insertIdx, kept]
  rfl

theorem timeline_newSegment {after : IMFCompositionPlaylist} {track : Nat}
    (ready : TrackReady playlist after track) {place : Nat}
    (within : place ≤ playlist.segments.length) (uuid : String) (sequence : CPLSequence) :
    ((after.insertEmptySegment uuid (playlist.segments.take place ++
      playlist.segmentStore.size :: playlist.segments.drop place)).link playlist.segmentStore.size
        track sequence).timeline = playlist.timeline.insertIdx place ⟨uuid, [sequence]⟩ := by
  have stillIndexed := ready.indexed
  obtain ⟨virtualTracks, trackStore, rfl⟩ := ready.same
  have inserted : (playlist.segments.take place ++ playlist.segmentStore.size ::
      playlist.segments.drop place).Perm (playlist.segmentStore.size :: playlist.segments) := by
    refine List.perm_middle.trans ?_
    rw [List.take_append_drop]
  have found : (playlist.segments.take place ++ playlist.segmentStore.size ::
      playlist.segments.drop place)[place]? = some playlist.segmentStore.size := by
    rw [take_cons_drop within, List.getElem?_insertIdx_self, if_pos within]
  have linked := timeline_link (stillIndexed.insertEmptySegment uuid inserted) found track sequence
  refine linked.trans ?_
  rw [timeline_insertEmptySegment stillIndexed within, modify_insertIdx]
  rfl

end NewSegment

section Resources

theorem contents_modifySequence (indexed : playlist.Indexed) {position segment row address : Nat}
    (found : playlist.segments[position]? = some segment)
    (inside : (playlist.segment segment).items[row]? = some address)
    {change : CPLSequence → CPLSequence} {items : List CPLResource → List CPLResource}
    (same : change (playlist.sequence address) =
      Contents.withItems items (playlist.sequence address)) :
    contents (playlist.modifySequence address change) =
      (contents playlist).modifySequence position row items := by
  have member := List.mem_of_getElem? found
  have listed := List.mem_of_getElem? inside
  have timeline : (playlist.modifySequence address change).timeline = playlist.timeline.modify position
      (Contents.withSequences (·.modify row (Contents.withItems items))) := by
    apply map_eq_modify indexed.consistent.groups_nodup found
    · have sequences : (playlist.segment segment).items.map
          (playlist.modifySequence address change).sequence =
          ((playlist.segment segment).items.map playlist.sequence).modify row
            (Contents.withItems items) := by
        apply map_eq_modify (indexed.consistent.group_nodup member) inside
        · rw [playlist.sequence_modifySequence_self, same]
        · intro other _ different
          exact playlist.sequence_modifySequence_of_ne change different
      exact congrArg (SegmentValue.mk (playlist.segmentUUID segment)) sequences
    · intro other otherMember different
      have sequences : (playlist.segment other).items.map
          (playlist.modifySequence address change).sequence =
          (playlist.segment other).items.map playlist.sequence := by
        apply List.map_congr_left
        intro sequence inOther
        apply playlist.sequence_modifySequence_of_ne change
        intro equal
        exact different (indexed.consistent.group_unique otherMember member (equal ▸ inOther) listed)
      exact congrArg (SegmentValue.mk (playlist.segmentUUID other)) sequences
  have ownUUID : (change (playlist.sequence address)).uuid = (playlist.sequence address).uuid := by
    rw [same]
    rfl
  have uuids : (playlist.modifySequence address change).sequenceUUID = playlist.sequenceUUID :=
    funext fun other =>
      playlist.sequenceStore.cell_modify_congr CPLSequence.uuid address other change ownUUID
  have values : trackValues (playlist.modifySequence address change) = trackValues playlist := by
    apply List.map_congr_left
    intro track _
    rw [trackValue, uuids]
    rfl
  unfold contents
  rw [timeline, values]
  rfl

end Resources

section Delete

variable {position segment row address rank track : Nat}

theorem segmentUUID_deleteSequence (playlist : IMFCompositionPlaylist)
    (segment track address : Nat) :
    (playlist.deleteSequence segment track address).segmentUUID = playlist.segmentUUID := by
  obtain ⟨_, _, same⟩ := deleteSequence_eq playlist segment track address
  rw [same]
  exact playlist.segmentUUID_deleteFromSegment segment address

theorem timeline_deleteSequence (indexed : playlist.Indexed) (distinct : playlist.Distinct)
    (found : playlist.segments[position]? = some segment)
    (inside : (playlist.segment segment).items[row]? = some address)
    (trackMember : track ∈ playlist.virtualTracks)
    (carried : (playlist.sequence address).virtualTrackId = playlist.trackUUID track) :
    (playlist.deleteSequence segment track address).timeline =
      shrinkAt (fun segment => segment.sequences.isEmpty) (Contents.withSequences (·.eraseIdx row))
        position playlist.timeline := by
  have consistent := indexed.consistent
  have member := List.mem_of_getElem? found
  have listed := List.mem_of_getElem? inside
  have removed := index_deleteSequence indexed distinct member listed trackMember carried
  -- What every segment has afterwards.
  have value (other : Nat) : (playlist.deleteSequence segment track address).segmentValue other =
      ⟨playlist.segmentUUID other,
        ((playlist.index.unlink segment track address).groupItems other).map playlist.sequence⟩ := by
    have uuid := congrFun (segmentUUID_deleteSequence playlist segment track address) other
    have items : ((playlist.deleteSequence segment track address).segment other).items =
        (playlist.index.unlink segment track address).groupItems other :=
      congrFun (congrArg CrossIndex.groupItems removed) other
    rw [segmentValue, sequence_deleteSequence, items]
    exact congrArg (fun uuid => SegmentValue.mk uuid _) uuid
  have own : (playlist.index.unlink segment track address).groupItems segment =
      (playlist.segment segment).items.eraseIdx row :=
    (Function.update_self _ _ _).trans
      (filter_ne_eq_eraseIdx (consistent.group_nodup member) inside)
  have groups : (playlist.deleteSequence segment track address).segments =
      if ((playlist.deleteSequence segment track address).segmentValue segment).sequences.isEmpty
      then playlist.segments.filter (· ≠ segment) else playlist.segments := by
    rw [value, List.isEmpty_map]
    exact congrArg CrossIndex.groups removed
  have nodup : playlist.segments.Nodup := consistent.groups_nodup
  refine map_eq_shrinkAt (fun segment : SegmentValue => segment.sequences.isEmpty) nodup found groups
    ?_ ?_
  · rw [value, own, ← List.eraseIdx_map]
    rfl
  · intro other _ different
    rw [value]
    have items : (playlist.index.unlink segment track address).groupItems other =
        (playlist.segment other).items := Function.update_of_ne different _ _
    rw [items]
    rfl

theorem trackValues_deleteSequence (indexed : playlist.Indexed) (distinct : playlist.Distinct)
    (member : segment ∈ playlist.segments) (inside : address ∈ (playlist.segment segment).items)
    (index : playlist.virtualTracks[rank]? = some track)
    (carried : (playlist.sequence address).virtualTrackId = playlist.trackUUID track) :
    trackValues (playlist.deleteSequence segment track address) =
      Contents.unlistSequence (playlist.sequence address) (trackValues playlist) := by
  have consistent := indexed.consistent
  have trackMember := List.mem_of_getElem? index
  have present := mem_sequences_of_mem member inside
  have removed := index_deleteSequence indexed distinct member inside trackMember carried
  have value (other : Nat) : trackValue (playlist.deleteSequence segment track address) other =
      ⟨playlist.trackUUID other, ((playlist.index.unlink segment track address).trackItems other).map
        playlist.sequenceUUID⟩ := by
    have uuid : (playlist.deleteSequence segment track address).trackUUID other =
        playlist.trackUUID other := congrFun (congrArg CrossIndex.trackKey removed) other
    have items : ((playlist.deleteSequence segment track address).virtualTrack other).items =
        (playlist.index.unlink segment track address).trackItems other :=
      congrFun (congrArg CrossIndex.trackItems removed) other
    have uuids : (playlist.deleteSequence segment track address).sequenceUUID =
        playlist.sequenceUUID := by
      unfold IMFCompositionPlaylist.sequenceUUID
      rw [sequence_deleteSequence]
    rw [trackValue, uuid, items, uuids]
  have own : ((playlist.index.unlink segment track address).trackItems track).map
      playlist.sequenceUUID = ((playlist.virtualTrack track).items.map playlist.sequenceUUID).erase
        (playlist.sequenceUUID address) := by
    have items : (playlist.index.unlink segment track address).trackItems track =
        (playlist.virtualTrack track).items.filter (· ≠ address) := Function.update_self _ _ _
    have within : ((playlist.virtualTrack track).items.map playlist.sequenceUUID).Nodup := by
      apply (consistent.listed_nodup track trackMember).map_on
      intro first firstListed second secondListed same
      exact List.inj_on_of_nodup_map distinct.sequences
        ((consistent.listed track trackMember first).mp firstListed).1
        ((consistent.listed track trackMember second).mp secondListed).1 same
    rw [items]
    exact KeyedList.map_filter_ne _ within
      ((consistent.listed track trackMember address).mpr ⟨present, carried⟩)
  have tracks : (playlist.deleteSequence segment track address).virtualTracks =
      if (trackValue (playlist.deleteSequence segment track address) track).sequences.isEmpty
      then playlist.virtualTracks.filter (· ≠ track) else playlist.virtualTracks := by
    rw [value, List.isEmpty_map]
    exact congrArg CrossIndex.tracks removed
  have rankOf : (trackValues playlist).findIdx (fun other =>
      other.uuid = (playlist.sequence address).virtualTrackId) = rank := by
    have uuids : ((trackValues playlist).map TrackValue.uuid).Nodup := by
      rw [trackValues, List.map_map]
      exact consistent.keys_nodup
    have seen : (trackValues playlist)[rank]? = some (trackValue playlist track) :=
      List.getElem?_map.trans (congrArg (Option.map _) index)
    rw [carried]
    exact findIdx_key uuids seen
  have nodup : playlist.virtualTracks.Nodup := consistent.tracks_nodup
  rw [Contents.unlistSequence, rankOf]
  refine map_eq_shrinkAt (fun track : TrackValue => track.sequences.isEmpty) nodup index tracks ?_ ?_
  · rw [value, own]
    rfl
  · intro other _ different
    rw [value]
    have items : (playlist.index.unlink segment track address).trackItems other =
        (playlist.virtualTrack other).items := Function.update_of_ne different _ _
    rw [items]
    rfl

theorem contents_deleteSequence (indexed : playlist.Indexed) (distinct : playlist.Distinct)
    (found : playlist.segments[position]? = some segment)
    (inside : (playlist.segment segment).items[row]? = some address)
    (index : playlist.virtualTracks[rank]? = some track)
    (carried : (playlist.sequence address).virtualTrackId = playlist.trackUUID track) :
    contents (playlist.deleteSequence segment track address) =
      { segments := shrinkAt (fun segment => segment.sequences.isEmpty)
          (Contents.withSequences (·.eraseIdx row)) position (contents playlist).segments
        virtualTracks := Contents.unlistSequence (playlist.sequence address)
          (contents playlist).virtualTracks } :=
  congrArg₂ Contents.mk
    (timeline_deleteSequence indexed distinct found inside (List.mem_of_getElem? index) carried)
    (trackValues_deleteSequence indexed distinct (List.mem_of_getElem? found)
      (List.mem_of_getElem? inside) index carried)

end Delete

section Actions

variable {segmentRect : CPLSegmentRect} {sequenceRect : CPLSequenceRect} {made : MadeUUIDs}
  {position row place : Nat}

theorem contents_createFirstSegment (indexed : playlist.Indexed) (track : IMFTrack)
    (fresh : Fresh playlist made) :
    contents (createFirstSegmentAction playlist track made) =
      (contents playlist).createFirstSegment made
        (standardResource made.resource track playlist.editRate) := by
  have ready := TrackReady.added indexed fresh.track
  have inserted : (playlist.segments ++ [playlist.segmentStore.size]).Perm
      (playlist.segmentStore.size :: playlist.segments) := List.perm_append_singleton _ _
  have prepared := ready.indexed.insertEmptySegment made.segment inserted
  have length : playlist.timeline.length = playlist.segments.length := List.length_map _
  have segments := timeline_newSegment ready (Nat.le_refl playlist.segments.length) made.segment
    ⟨made.sequence, made.track, [standardResource made.resource track playlist.editRate]⟩
  rw [List.take_length, List.drop_length, ← length, List.insertIdx_length_self] at segments
  rw [createFirstSegmentAction_eq]
  exact congrArg₂ Contents.mk segments
    (trackValues_link_new prepared indexed rfl rfl playlist.segmentStore.size _)

theorem contents_insertSegment (regular : Regular playlist)
    (drawn : playlist.segments[position]? = some segmentRect.item) (track : IMFTrack) (y : Int)
    (append : Bool) (fresh : Fresh playlist made) :
    contents (insertSegmentAction playlist segmentRect track y append made) =
      (contents playlist).insertSegment (insertPlace append position) (rowOf y) made
        (standardResource made.resource track playlist.editRate) := by
  have indexed := regular.indexed
  have ready := virtualTrackAt_ready indexed y fresh.track
  have within : insertPlace append position ≤ playlist.segments.length :=
    insertPlace_le (List.getElem?_eq_some_iff.mp drawn).1
  have inserted : (playlist.segments.take (insertPlace append position) ++
      playlist.segmentStore.size :: playlist.segments.drop (insertPlace append position)).Perm
      (playlist.segmentStore.size :: playlist.segments) := by
    refine List.perm_middle.trans ?_
    rw [List.take_append_drop]
  have size : (virtualTrackAt playlist y made.track).1.segmentStore.size =
      playlist.segmentStore.size := by
    obtain ⟨_, _, same⟩ := ready.same
    rw [same]
  have prepared := ready.indexed.insertEmptySegment made.segment
    (size.symm ▸ ready.segments.symm ▸ inserted)
  rw [insertSegmentAction_place indexed regular.distinct drawn track y append fresh,
    trackUUID_virtualTrackAt]
  exact congrArg₂ Contents.mk (timeline_newSegment ready within made.segment _)
    (trackValues_link_virtualTrackAt prepared indexed rfl rfl playlist.segmentStore.size _)

theorem contents_insertResource (regular : Regular playlist) {segment : Nat}
    (found : playlist.segments[position]? = some segment)
    (inside : (playlist.segment segment).items[row]? = some sequenceRect.sequence)
    {resource : CPLResource}
    (shown : (playlist.sequence sequenceRect.sequence).items[place]? = some resource)
    (track : IMFTrack) (append : Bool) (made : MadeUUIDs) :
    contents (insertResourceAction playlist sequenceRect resource track append made) =
      (contents playlist).insertResource position row (insertPlace append place)
        (standardResource made.resource track playlist.editRate) := by
  have below := (List.getElem?_eq_some_iff.mp shown).1
  have distinct := regular.resources sequenceRect.sequence
    (mem_sequences_of_mem (List.mem_of_getElem? found) (List.mem_of_getElem? inside))
  apply contents_modifySequence regular.indexed found inside
  apply congrArg (CPLSequence.mk _ _)
  cases append with
  | true =>
      exact (KeyedList.insertAfter_eq CPLResource.uuid distinct shown _).trans
        (take_cons_drop below _)
  | false =>
      exact (KeyedList.insertBefore_eq CPLResource.uuid distinct shown _).trans
        (take_cons_drop (Nat.le_of_lt below) _)

theorem findSequence_eq (regular : Regular playlist) {segment track : Nat}
    (member : segment ∈ playlist.segments) (listed : track ∈ playlist.virtualTracks) :
    findSequence playlist segment track = (playlist.segment segment).items.find? fun address =>
      (playlist.sequence address).virtualTrackId = playlist.trackUUID track := by
  have consistent := regular.indexed.consistent
  refine (KeyedList.findSome?_find_eq playlist.sequenceUUID regular.distinct.sequences
    (fun address inside => mem_sequences_of_mem member inside)
    fun address inside => ((consistent.listed track listed address).mp inside).1).trans ?_
  apply List.find?_congr
  intro address inside
  apply decide_eq_decide.mpr
  refine (consistent.listed track listed address).trans (and_iff_right ?_)
  exact mem_sequences_of_mem member inside

theorem sequenceOnRow_eq {segment : Nat} (found : playlist.segments[position]? = some segment)
    (y : Int) :
    (contents playlist).sequenceOnRow position (rowOf y) =
      (getVirtualTrackFromY playlist y).bind fun track =>
        (playlist.segment segment).items.findIdx? fun address =>
          (playlist.sequence address).virtualTrackId = playlist.trackUUID track := by
  have row : getVirtualTrackFromY playlist y = playlist.virtualTracks[rowOf y]? := rfl
  have inContents : (contents playlist).segments[position]? = some (playlist.segmentValue segment) :=
    List.getElem?_map.trans (congrArg (Option.map _) found)
  have read : (contents playlist).virtualTracks[rowOf y]? =
      playlist.virtualTracks[rowOf y]?.map (trackValue playlist) := List.getElem?_map
  rw [Contents.sequenceOnRow, inContents, read, row]
  cases playlist.virtualTracks[rowOf y]? with
  | none => rfl
  | some track => exact List.findIdx?_map

theorem contents_addResource (regular : Regular playlist)
    (found : playlist.segments[position]? = some segmentRect.item) (track : IMFTrack) (y : Int)
    (fresh : Fresh playlist made) :
    contents (addResourceAction playlist segmentRect track y made) =
      (contents playlist).addResource position (rowOf y) made
        (standardResource made.resource track playlist.editRate) := by
  have indexed := regular.indexed
  have member := List.mem_of_getElem? found
  have onRow := sequenceOnRow_eq found y
  rcases addResourceAction_eq playlist segmentRect track y made with
    ⟨virtualTrack, sequence, onTrack, searched, same⟩ | ⟨notFound, same⟩
  · have listed := getVirtualTrackFromY_mem virtualTrack onTrack
    rw [findSequence_eq regular member listed, List.find?_eq_bind_findIdx?_getElem?] at searched
    obtain ⟨row, first, inside⟩ := Option.bind_eq_some_iff.mp searched
    rw [onTrack, Option.bind_some, first] at onRow
    rw [same, Contents.addResource, onRow]
    exact contents_modifySequence indexed found inside rfl
  · have none : (contents playlist).sequenceOnRow position (rowOf y) = none := by
      rw [onRow, Option.bind_eq_none_iff]
      intro virtualTrack onTrack
      have searched := notFound virtualTrack onTrack
      rw [findSequence_eq regular member (getVirtualTrackFromY_mem virtualTrack onTrack),
        List.find?_eq_none] at searched
      apply List.findIdx?_eq_none_iff.mpr
      intro address inside
      exact Bool.eq_false_iff.mpr (searched address inside)
    have ready := virtualTrackAt_ready indexed y fresh.track
    have segments := timeline_link ready.indexed (ready.segments.symm ▸ found)
      (virtualTrackAt playlist y made.track).2
      ⟨made.sequence, (contents playlist).trackIdAt (rowOf y) made.track,
        [standardResource made.resource track playlist.editRate]⟩
    have kept : (virtualTrackAt playlist y made.track).1.timeline = playlist.timeline := by
      rw [timeline, ready.segments, ready.segmentValue]
      rfl
    rw [kept] at segments
    rw [same, Contents.addResource, none, trackUUID_virtualTrackAt]
    exact congrArg₂ Contents.mk segments
      (trackValues_link_virtualTrackAt ready.indexed indexed rfl rfl segmentRect.item _)

theorem contents_deleteResource (regular : Regular playlist)
    (found : playlist.segments[position]? = some segmentRect.item)
    (inside : (playlist.segment segmentRect.item).items[row]? = some sequenceRect.sequence)
    {resource : CPLResource}
    (shown : (playlist.sequence sequenceRect.sequence).items[place]? = some resource) {track : Nat}
    (index : nextVirtualTrack playlist sequenceRect.trackIndex = some track)
    (carried : (playlist.sequence sequenceRect.sequence).virtualTrackId = playlist.trackUUID track) :
    ∃ after, deleteResourceAction playlist segmentRect sequenceRect resource = some after ∧
      contents after = (contents playlist).deleteResource position row place := by
  have indexed := regular.indexed
  have member := List.mem_of_getElem? found
  have listed := List.mem_of_getElem? inside
  have distinct := regular.resources _ (mem_sequences_of_mem member listed)
  have erased : KeyedList.delete CPLResource.uuid resource.uuid
      (playlist.sequence sequenceRect.sequence).items =
      (playlist.sequence sequenceRect.sequence).items.eraseIdx place :=
    delete_eq_eraseIdx distinct shown
  have remaining : ((playlist.deleteFromSequence sequenceRect.sequence resource).sequence
      sequenceRect.sequence).items = (playlist.sequence sequenceRect.sequence).items.eraseIdx place := by
    rw [deleteFromSequence, playlist.sequence_modifySequence_self]
    exact erased
  have deleted : contents (playlist.deleteFromSequence sequenceRect.sequence resource) =
      (contents playlist).modifySequence position row (·.eraseIdx place) := by
    apply contents_modifySequence indexed found inside
    exact congrArg (CPLSequence.mk _ _) erased
  have rank : playlist.virtualTracks[sequenceRect.trackIndex.toNat]? = some track := by
    unfold nextVirtualTrack at index
    split at index
    · exact index
    · cases index
  have inContents : (contents playlist).segments[position]? =
      some (playlist.segmentValue segmentRect.item) :=
    List.getElem?_map.trans (congrArg (Option.map _) found)
  have inSegment : (playlist.segmentValue segmentRect.item).sequences[row]? =
      some (playlist.sequence sequenceRect.sequence) :=
    List.getElem?_map.trans (congrArg (Option.map _) inside)
  rw [deleteResourceAction_eq playlist segmentRect resource index, remaining]
  refine ⟨_, rfl, ?_⟩
  cases emptied : ((playlist.sequence sequenceRect.sequence).items.eraseIdx place).isEmpty with
  | false =>
      rw [if_neg Bool.false_ne_true, deleted]
      exact (Contents.deleteResource_of_kept inContents inSegment emptied).symm
  | true =>
      have stillIndexed : (playlist.deleteFromSequence sequenceRect.sequence resource).Indexed :=
        indexed.modifySequence rfl
      have stillDistinct : (playlist.deleteFromSequence sequenceRect.sequence resource).Distinct :=
        regular.distinct.modifySequence rfl
      have cleaned := contents_deleteSequence stillIndexed stillDistinct found inside rank
        (Sound.carried_deleteFromSequence playlist sequenceRect.sequence track resource carried)
      have unlisted : Contents.unlistSequence
          ((playlist.deleteFromSequence sequenceRect.sequence resource).sequence
            sequenceRect.sequence) =
          Contents.unlistSequence (playlist.sequence sequenceRect.sequence) := by
        rw [deleteFromSequence, playlist.sequence_modifySequence_self]
        rfl
      rw [unlisted, deleted] at cleaned
      rw [if_pos rfl, Contents.deleteResource_after_resource inContents inSegment emptied]
      exact cleaned

end Actions

section Details

variable {segmentRect : CPLSegmentRect} {sequenceRect : CPLSequenceRect}

theorem details_link (playlist : IMFCompositionPlaylist) (segment track : Nat)
    (sequence : CPLSequence) : (playlist.link segment track sequence).details = playlist.details :=
  rfl

theorem details_insertEmptySegment (playlist : IMFCompositionPlaylist) (uuid : String)
    (segments : List Nat) :
    (playlist.insertEmptySegment uuid segments).details = playlist.details := rfl

theorem details_virtualTrackAt (playlist : IMFCompositionPlaylist) (y : Int) (madeUUID : String) :
    (virtualTrackAt playlist y madeUUID).1.details = playlist.details := by
  unfold virtualTrackAt
  cases getVirtualTrackFromY playlist y <;> rfl

theorem details_createFirstSegmentAction (playlist : IMFCompositionPlaylist) (track : IMFTrack)
    (made : MadeUUIDs) :
    (createFirstSegmentAction playlist track made).details = playlist.details := by
  rw [createFirstSegmentAction_eq, details_link]
  rfl

theorem details_insertSegmentAction (playlist : IMFCompositionPlaylist)
    (segmentRect : CPLSegmentRect) (track : IMFTrack) (y : Int) (append : Bool) (made : MadeUUIDs) :
    (insertSegmentAction playlist segmentRect track y append made).details = playlist.details := by
  obtain ⟨segments, -, same⟩ := insertSegmentAction_eq playlist segmentRect track y append made
  rw [same, details_link, details_insertEmptySegment]
  exact details_virtualTrackAt playlist y made.track

theorem details_addResourceAction (playlist : IMFCompositionPlaylist) (segmentRect : CPLSegmentRect)
    (track : IMFTrack) (y : Int) (made : MadeUUIDs) :
    (addResourceAction playlist segmentRect track y made).details = playlist.details := by
  rcases addResourceAction_eq playlist segmentRect track y made with
    ⟨virtualTrack, sequence, -, -, same⟩ | ⟨-, same⟩
  · rw [same]
    rfl
  · rw [same, details_link]
    exact details_virtualTrackAt playlist y made.track

theorem details_deleteResourceAction {resource : CPLResource} {after : IMFCompositionPlaylist}
    (deleted : deleteResourceAction playlist segmentRect sequenceRect resource = some after) :
    after.details = playlist.details := by
  cases index : nextVirtualTrack playlist sequenceRect.trackIndex with
  | some track =>
      rw [deleteResourceAction_eq playlist segmentRect resource index] at deleted
      cases Option.some.inj deleted
      split
      · obtain ⟨_, _, same⟩ := deleteSequence_eq (playlist.deleteFromSequence
          sequenceRect.sequence resource) segmentRect.item track sequenceRect.sequence
        rw [same]
        rfl
      · rfl
  | none =>
      have kept : nextVirtualTrack ((playlist.deleteFromSequence sequenceRect.sequence
          resource).deleteFromSegment segmentRect.item sequenceRect.sequence)
          sequenceRect.trackIndex = none := index
      simp only [deleteResourceAction, kept] at deleted
      split at deleted
      · cases deleted
      · cases Option.some.inj deleted
        rfl

end Details

namespace CPLSequenceView

variable {view : CPLSequenceView}

theorem details_act {action : Action} {after : IMFCompositionPlaylist}
    (acted : view.act action = some after) : after.details = view.compositionPlaylist.details := by
  cases action with
  | createFirstSegment track made =>
      simp only [act] at acted
      split at acted
      · cases Option.some.inj acted
        exact details_createFirstSegmentAction _ track made
      · cases acted
  | insertSegment segment track y append made =>
      obtain ⟨segmentRect, -, rfl⟩ := Option.map_eq_some_iff.mp acted
      exact details_insertSegmentAction _ segmentRect track y append made
  | insertResource segment sequence resource track append made =>
      obtain ⟨⟨segmentRect, sequenceRect, shown⟩, -, rfl⟩ := Option.map_eq_some_iff.mp acted
      rfl
  | addResource segment track y made =>
      obtain ⟨segmentRect, -, rfl⟩ := Option.map_eq_some_iff.mp acted
      exact details_addResourceAction _ segmentRect track y made
  | deleteResource segment sequence resource =>
      obtain ⟨⟨segmentRect, sequenceRect, shown⟩, -, deleted⟩ := Option.bind_eq_some_iff.mp acted
      exact details_deleteResourceAction deleted

theorem Shown.resourceAt (shown : view.Shown) {position row place : Nat}
    {segmentRect : CPLSegmentRect} {sequenceRect : CPLSequenceRect} {resource : CPLResource}
    (found : view.resourceAt position row place = some (segmentRect, sequenceRect, resource)) :
    view.compositionPlaylist.segments[position]? = some segmentRect.item ∧
    (view.compositionPlaylist.segment segmentRect.item).items[row]? = some sequenceRect.sequence ∧
    (view.compositionPlaylist.sequence sequenceRect.sequence).items[place]? = some resource := by
  unfold CPLSequenceView.resourceAt at found
  obtain ⟨drawnSegment, segmentFound, found⟩ := Option.bind_eq_some_iff.mp found
  obtain ⟨drawnSequence, sequenceFound, found⟩ := Option.bind_eq_some_iff.mp found
  obtain ⟨drawnResource, resourceFound, found⟩ := Option.bind_eq_some_iff.mp found
  cases Option.some.inj found
  refine ⟨shown.position segmentFound, ?_⟩
  rw [(shown.drawn segmentFound).2, appendSegment, List.getElem?_map] at sequenceFound
  obtain ⟨address, inside, rfl⟩ := Option.map_eq_some_iff.mp sequenceFound
  exact ⟨inside, resourceFound⟩

/-- Every action of the user is defined, and does its edit. -/
theorem act_contents (before : CPLSequenceView) (regular : Regular playlist) {action : Action}
    (enabled : (before.compositionPlaylistChanged playlist).Enabled action) :
    ∃ after, (before.compositionPlaylistChanged playlist).act action = some after ∧
      contents after = (contents playlist).edit playlist.editRate action := by
  have indexed := regular.indexed
  have shown := before.shown_of_changed indexed.consistent.keys_nodup
  cases action with
  | createFirstSegment track made =>
      obtain ⟨empty, fresh⟩ := enabled
      refine ⟨_, ?_, contents_createFirstSegment indexed track fresh⟩
      rw [act, empty]
      rfl
  | insertSegment position track y append made =>
      obtain ⟨drawn, fresh⟩ := enabled
      have found := List.getElem?_eq_getElem drawn
      refine ⟨_, ?_, contents_insertSegment regular (shown.position found) track y append fresh⟩
      rw [act, found]
      rfl
  | insertResource position row place track append made =>
      obtain ⟨⟨segmentRect, sequenceRect, resource⟩, found⟩ := Option.isSome_iff_exists.mp enabled
      obtain ⟨segment, sequence, item⟩ := shown.resourceAt found
      refine ⟨_, ?_, contents_insertResource regular segment sequence item track append made⟩
      rw [act, found]
      rfl
  | addResource position track y made =>
      obtain ⟨drawn, fresh⟩ := enabled
      have found := List.getElem?_eq_getElem drawn
      refine ⟨_, ?_, contents_addResource regular (shown.position found) track y fresh⟩
      rw [act, found]
      rfl
  | deleteResource position row place =>
      obtain ⟨⟨segmentRect, sequenceRect, resource⟩, found⟩ := Option.isSome_iff_exists.mp enabled
      obtain ⟨segment, sequence, item⟩ := shown.resourceAt found
      obtain ⟨member, inside, mapped⟩ := shown.inside found
      obtain ⟨track, index, -, carried⟩ := shown.track indexed member inside
      rw [← mapped] at index
      obtain ⟨after, deleted, edited⟩ :=
        contents_deleteResource regular segment sequence item index carried
      refine ⟨after, ?_, edited⟩
      rw [act, found]
      exact deleted

/-- Every action of the user is defined. It edits the segments and the virtual tracks at its
target, and leaves everything else as it was. -/
theorem act_edits (before : CPLSequenceView) (regular : Regular playlist) {action : Action}
    (enabled : (before.compositionPlaylistChanged playlist).Enabled action) :
    ∃ after, (before.compositionPlaylistChanged playlist).act action = some after ∧
      after.details = playlist.details ∧
      contents after = (contents playlist).edit playlist.editRate action := by
  obtain ⟨after, acted, edited⟩ := act_contents before regular enabled
  exact ⟨after, acted, details_act acted, edited⟩

section Sample

theorem regular_secondView : Regular secondView.compositionPlaylist := by
  have reached := (Transition.Reachable.refl.tail step_firstView).tail step_secondView
  have sound := (shown_and_sound ⟨_, _, .empty rfl rfl, rfl⟩ reached).2
  exact ⟨sound.indexed, sound.distinct, by decide⟩

/-- With the video its sequence and its virtual track go, and the audio stays. -/
theorem act_edits_deleted : ∃ after, secondView.act (.deleteResource 0 0 0) = some after ∧
    after.details = secondView.compositionPlaylist.details ∧
    contents after = ⟨[⟨"s1", [⟨"q2", "t2", [standardResource "r2" Sample.audio ⟨0, 0⟩]⟩]⟩],
      [⟨"t2", ["q2"]⟩]⟩ := by
  have edited : (contents secondView.compositionPlaylist).edit
      secondView.compositionPlaylist.editRate (.deleteResource 0 0 0) =
      ⟨[⟨"s1", [⟨"q2", "t2", [standardResource "r2" Sample.audio ⟨0, 0⟩]⟩]⟩], [⟨"t2", ["q2"]⟩]⟩ := by
    decide
  rw [← edited]
  exact act_edits firstView regular_secondView rfl

end Sample
end CPLSequenceView

end Imflib.View
