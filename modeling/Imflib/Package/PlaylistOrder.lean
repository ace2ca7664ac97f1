import Imflib.Base.IndexOrder
import Imflib.Package.PlaylistRoundTrip

/-! The order of the virtual tracks of a playlist. It is not written, so a playlist that is
loaded has its virtual tracks in the order in which the segments use them. -/

namespace Imflib.Package

def CPLSequence.outline (sequence : CPLSequence) : String × String :=
  (sequence.virtualTrackId, sequence.uuid)

section Read

variable {tracks : List IMFTrack} {cplEditRate : String}

theorem outline_of_readSequence {sequence read : CPLSequence}
    (succeeded : readSequence tracks cplEditRate sequence.tree = .ok read) :
    read.outline = sequence.outline := by
  have id : getString ["Id"] sequence.tree = .ok (uuidStr sequence.uuid) :=
    getString_of_text (by simp [CPLSequence.tree])
  have trackId : getString ["TrackId"] sequence.tree = .ok (uuidStr sequence.virtualTrackId) :=
    getString_of_text (by simp [CPLSequence.tree])
  rw [readSequence, id, trackId, ok_bind, ok_bind] at succeeded
  obtain ⟨resourceList, -, rest⟩ := bind_eq_ok.mp succeeded
  obtain ⟨items, -, last⟩ := bind_eq_ok.mp rest
  rw [← Except.ok.inj last]
  simp [CPLSequence.outline]

theorem outlines_of_readSequences {sequences read : List CPLSequence}
    (nonempty : ∀ sequence ∈ sequences, sequence.items ≠ [])
    (succeeded : readSequences tracks cplEditRate (sequences.flatMap CPLSequence.nodes) = .ok read) :
    read.map CPLSequence.outline = sequences.map CPLSequence.outline := by
  induction sequences generalizing read with
  | nil =>
      cases succeeded
      rfl
  | cons sequence rest ih =>
      obtain ⟨key, node⟩ := CPLSequence.nodes_of_ne_nil (nonempty sequence List.mem_cons_self)
      rw [List.flatMap_cons, node, List.singleton_append, readSequences] at succeeded
      obtain ⟨first, own, next⟩ := bind_eq_ok.mp succeeded
      obtain ⟨others, later, last⟩ := bind_eq_ok.mp next
      rw [← Except.ok.inj last, List.map_cons, List.map_cons, outline_of_readSequence own,
        ih (fun other member => nonempty other (List.mem_cons_of_mem _ member)) later]

def SegmentValue.outlines (segment : SegmentValue) : List (String × String) :=
  segment.sequences.map CPLSequence.outline

theorem outlines_of_readSegment {segment read : SegmentValue}
    (nonempty : ∀ sequence ∈ segment.sequences, sequence.items ≠ [])
    (succeeded : readSegment tracks cplEditRate segment.node.2 = .ok read) :
    read.outlines = segment.outlines := by
  have sequenceList : getChild ["SequenceList"] segment.node.2 =
      .ok (.node "" (segment.sequences.flatMap CPLSequence.nodes)) :=
    getChild_of_some (PTree.getChild?_addChild_self [] _ _ (by simp))
  obtain ⟨segmentUUID, -, rest⟩ := bind_eq_ok.mp succeeded
  rw [sequenceList, ok_bind] at rest
  obtain ⟨sequences, each, last⟩ := bind_eq_ok.mp rest
  rw [← Except.ok.inj last]
  exact outlines_of_readSequences nonempty each

theorem outlines_of_readSegments {segments read : List SegmentValue}
    (nonempty : ∀ segment ∈ segments, ∀ sequence ∈ segment.sequences, sequence.items ≠ [])
    (succeeded : readSegments tracks cplEditRate (segments.map SegmentValue.node) = .ok read) :
    read.map SegmentValue.outlines = segments.map SegmentValue.outlines := by
  induction segments generalizing read with
  | nil =>
      cases succeeded
      rfl
  | cons segment rest ih =>
      rw [List.map_cons, readSegments] at succeeded
      obtain ⟨first, own, next⟩ := bind_eq_ok.mp succeeded
      obtain ⟨others, later, last⟩ := bind_eq_ok.mp next
      rw [← Except.ok.inj last, List.map_cons, List.map_cons,
        outlines_of_readSegment (nonempty segment List.mem_cons_self) own,
        ih (fun other member => nonempty other (List.mem_cons_of_mem _ member)) later]

theorem readSegments_of_readPlaylist {pt segmentList : PTree} {value : PlaylistValue}
    (read : readPlaylist pt tracks = .ok value)
    (found : getChild ["CompositionPlaylist", "SegmentList"] pt = .ok segmentList) :
    ∃ cplEditRate, readSegments tracks cplEditRate segmentList.children = .ok value.segments := by
  obtain ⟨cplUUID, -, read⟩ := bind_eq_ok.mp read
  obtain ⟨headerNode, -, read⟩ := bind_eq_ok.mp read
  obtain ⟨header, -, read⟩ := bind_eq_ok.mp read
  obtain ⟨cplEditRate, -, read⟩ := bind_eq_ok.mp read
  obtain ⟨editRate, -, read⟩ := bind_eq_ok.mp read
  rw [found, ok_bind] at read
  obtain ⟨segments, each, last⟩ := bind_eq_ok.mp read
  cases Except.ok.inj last
  exact ⟨cplEditRate, each⟩

end Read

namespace IMFCompositionPlaylist

variable {playlist : IMFCompositionPlaylist}

def outline (playlist : IMFCompositionPlaylist) (address : Nat) : String × String :=
  (playlist.sequence address).outline

theorem outlines_sequences (playlist : IMFCompositionPlaylist) :
    playlist.sequences.map playlist.outline = playlist.timeline.flatMap SegmentValue.outlines := by
  have each (address : Nat) : (playlist.segmentValue address).outlines =
      (playlist.segment address).items.map playlist.outline := List.map_map
  rw [sequences, timeline, List.map_flatMap, List.flatMap_map]
  exact List.flatMap_congr fun address _ => (each address).symm

/-- A playlist that is loaded from what was written has the same sequences in the same order. -/
theorem outlines_of_reload {path : String} {tracks : List IMFTrack} {tree : PTree}
    {loaded : IMFCompositionPlaylist}
    (nonempty : ∀ address ∈ playlist.sequences, (playlist.sequence address).items ≠ [])
    (written : playlist.write = .ok tree) (reloaded : load path tree tracks = .ok loaded) :
    loaded.sequences.map loaded.outline = playlist.sequences.map playlist.outline := by
  obtain ⟨value, read, rfl⟩ := eq_build_of_load reloaded
  obtain ⟨root, rfl, -, -, -, segmentList⟩ := write_eq_ok written
  have found : getChild ["CompositionPlaylist", "SegmentList"]
      (PTree.empty.addChild "CompositionPlaylist" root) =
      .ok (.node "" (playlist.timeline.map SegmentValue.node)) :=
    getChild_of_some ((PTree.getChild?_addChild_self _ root _ rfl).trans segmentList)
  obtain ⟨cplEditRate, each⟩ := readSegments_of_readPlaylist read found
  have filled : ∀ segment ∈ playlist.timeline, ∀ sequence ∈ segment.sequences,
      sequence.items ≠ [] := by
    intro segment member sequence inside
    obtain ⟨address, listed, rfl⟩ := List.mem_map.mp member
    obtain ⟨item, inSegment, rfl⟩ := List.mem_map.mp inside
    exact nonempty item (mem_sequences_of_mem listed inSegment)
  have same := outlines_of_readSegments filled each
  rw [outlines_sequences, outlines_sequences, (build_spec path value).2.1, List.flatMap_def,
    List.flatMap_def, same]

def trackLists (playlist : IMFCompositionPlaylist) : List (String × List String) :=
  playlist.virtualTracks.map fun track =>
    (playlist.trackUUID track, (playlist.virtualTrack track).items.map playlist.sequenceUUID)

def firstSequences (playlist : IMFCompositionPlaylist) (virtualTracks : List Nat) : List Nat :=
  virtualTracks.filterMap fun track => (playlist.virtualTrack track).items.head?

/-- What a new sequence of a virtual track, or of a new one, has to come behind. -/
def predecessors (playlist : IMFCompositionPlaylist) : Option Nat → List Nat
  | some track => (playlist.virtualTrack track).items
  | none => playlist.firstSequences playlist.virtualTracks

/-- Every virtual track has its sequences in the order of the timeline, and the virtual tracks
are in the order of their first sequences. -/
def InOrder (playlist : IMFCompositionPlaylist) : Prop := playlist.index.InOrder

section Link

variable (indexed : playlist.Indexed) (filled : playlist.TracksFilled) (ordered : playlist.InOrder)
  {found : Option Nat} {uuid : String} (listed : ∀ track ∈ found, track ∈ playlist.virtualTracks)
  (newUUID : found = none → uuid ∉ playlist.virtualTracks.map playlist.trackUUID)

include indexed filled ordered listed newUUID

theorem inOrder_link_iff {segment : Nat} {earlier later : List Nat}
    (segments : playlist.segments = earlier ++ segment :: later) {sequence : CPLSequence}
    (carried : sequence.virtualTrackId = (playlist.orNewVirtualTrack found uuid).1.trackUUID
      (playlist.orNewVirtualTrack found uuid).2) :
    ((playlist.orNewVirtualTrack found uuid).1.link segment
        (playlist.orNewVirtualTrack found uuid).2 sequence).InOrder ↔
      ∀ other ∈ playlist.predecessors found,
        other ∉ later.flatMap fun address => (playlist.segment address).items := by
  rw [InOrder, index_link _ _ _ _ carried]
  cases found with
  | some track =>
      exact CrossIndex.inOrder_link_iff indexed.consistent ordered segments
        indexed.fresh_sequence (listed track rfl) (filled track (listed track rfl))
  | none =>
      have added := playlist.index_addEmptyTrack uuid
      have consistent := indexed.consistent.addTrack indexed.fresh_track (newUUID rfl)
      have empty : (playlist.index.addTrack playlist.trackStore.size uuid).trackItems
          playlist.trackStore.size = [] := Function.update_self _ _ _
      have linked := CrossIndex.inOrder_link_new_iff consistent
        (CrossIndex.InOrder.addTrack ordered indexed.fresh_track uuid) segments
        indexed.fresh_sequence rfl empty
      rw [CrossIndex.headsOf_addTrack indexed.fresh_track, ← added] at linked
      exact linked

end Link

theorem InOrder.insertEmptySegment (ordered : playlist.InOrder) (indexed : playlist.Indexed)
    (uuid : String) {earlier later : List Nat} (segments : playlist.segments = earlier ++ later) :
    (playlist.insertEmptySegment uuid
      (earlier ++ playlist.segmentStore.size :: later)).InOrder := by
  rw [InOrder, index_insertEmptySegment]
  exact CrossIndex.InOrder.addGroup ordered indexed.fresh_segment segments

theorem inOrder_newSegment_iff (indexed : playlist.Indexed) (filled : playlist.TracksFilled)
    (ordered : playlist.InOrder) {found : Option Nat} {uuid : String}
    (listed : ∀ track ∈ found, track ∈ playlist.virtualTracks)
    (newUUID : found = none → uuid ∉ playlist.virtualTracks.map playlist.trackUUID)
    (segmentUUID : String) {earlier later : List Nat}
    (segments : playlist.segments = earlier ++ later) {sequence : CPLSequence}
    (carried : sequence.virtualTrackId = (playlist.orNewVirtualTrack found uuid).1.trackUUID
      (playlist.orNewVirtualTrack found uuid).2) :
    (((playlist.orNewVirtualTrack found uuid).1.insertEmptySegment segmentUUID
        (earlier ++ playlist.segmentStore.size :: later)).link playlist.segmentStore.size
        (playlist.orNewVirtualTrack found uuid).2 sequence).InOrder ↔
      ∀ other ∈ playlist.predecessors found,
        other ∉ later.flatMap fun address => (playlist.segment address).items := by
  have inserted : (earlier ++ playlist.segmentStore.size :: later).Perm
      (playlist.segmentStore.size :: playlist.segments) := by
    rw [segments]
    exact List.perm_middle
  have added := indexed.insertEmptySegment segmentUUID inserted
  have stillOrdered := ordered.insertEmptySegment indexed segmentUUID segments
  -- The virtual track does not depend on the new segment.
  have commute : (playlist.insertEmptySegment segmentUUID
      (earlier ++ playlist.segmentStore.size :: later)).orNewVirtualTrack found uuid =
      ((playlist.orNewVirtualTrack found uuid).1.insertEmptySegment segmentUUID
        (earlier ++ playlist.segmentStore.size :: later),
        (playlist.orNewVirtualTrack found uuid).2) := by
    cases found <;> rfl
  have stillFilled : (playlist.insertEmptySegment segmentUUID
      (earlier ++ playlist.segmentStore.size :: later)).TracksFilled := filled
  have placed : (playlist.insertEmptySegment segmentUUID
      (earlier ++ playlist.segmentStore.size :: later)).segments =
      earlier ++ playlist.segmentStore.size :: later := rfl
  have stillCarried : sequence.virtualTrackId = ((playlist.insertEmptySegment segmentUUID
      (earlier ++ playlist.segmentStore.size :: later)).orNewVirtualTrack found uuid).1.trackUUID
      ((playlist.insertEmptySegment segmentUUID
        (earlier ++ playlist.segmentStore.size :: later)).orNewVirtualTrack found uuid).2 := by
    rw [commute]
    exact carried
  have linked := inOrder_link_iff added stillFilled stillOrdered listed newUUID placed stillCarried
  rw [commute] at linked
  refine linked.trans (forall₂_congr fun other _ => not_congr ?_)
  have fresh : playlist.segmentStore.size ∉ later := by
    intro member
    have old : playlist.segmentStore.size ∈ playlist.segments :=
      segments ▸ List.mem_append_right _ member
    exact indexed.fresh_segment old
  have same : ∀ address ∈ later, ((playlist.insertEmptySegment segmentUUID
      (earlier ++ playlist.segmentStore.size :: later)).segment address).items =
      (playlist.segment address).items := by
    intro address member
    have different : address ≠ playlist.segmentStore.size := fun equal => fresh (equal ▸ member)
    exact congrArg CPLSegment.items (playlist.segmentStore.cell_alloc_of_ne _ different)
  rw [List.flatMap_congr same]

theorem InOrder.placeSequence (ordered : playlist.InOrder) (indexed : playlist.Indexed)
    (filled : playlist.TracksFilled) {segment : Nat} {earlier : List Nat}
    (segments : playlist.segments = earlier ++ [segment]) (sequence : CPLSequence) :
    (playlist.placeSequence segment sequence).InOrder := by
  have carried := (virtualTrackFor_ready indexed sequence.virtualTrackId).2.symm
  refine (inOrder_link_iff indexed filled ordered
    (fun track found => (KeyedList.find_eq_some _ found).1) (KeyedList.find_eq_none _) segments
    carried).mpr ?_
  intro other _
  exact List.not_mem_nil

theorem InOrder.placeSequences {playlist : IMFCompositionPlaylist} (ordered : playlist.InOrder)
    (indexed : playlist.Indexed) (filled : playlist.TracksFilled) {segment : Nat}
    {earlier : List Nat} (segments : playlist.segments = earlier ++ [segment])
    (sequences : List CPLSequence) :
    (sequences.foldl (IMFCompositionPlaylist.placeSequence segment) playlist).InOrder := by
  have member : segment ∈ playlist.segments :=
    segments ▸ List.mem_append_right _ (List.mem_singleton_self segment)
  induction sequences generalizing playlist with
  | nil => exact ordered
  | cons sequence rest ih =>
      have kept := segments_placeSequence indexed segment sequence
      exact ih (ordered.placeSequence indexed filled segments sequence)
        (indexed.placeSequence member sequence) (filled.placeSequence indexed segment sequence)
        (kept.trans segments) (kept.symm ▸ member)

theorem InOrder.placeSegments {playlist : IMFCompositionPlaylist} (ordered : playlist.InOrder)
    (indexed : playlist.Indexed) (filled : playlist.TracksFilled) (segments : List SegmentValue) :
    (segments.foldl placeSegment playlist).InOrder := by
  induction segments generalizing playlist with
  | nil => exact ordered
  | cons segment rest ih =>
      have inserted : (playlist.segments ++ [playlist.segmentStore.size]).Perm
          (playlist.segmentStore.size :: playlist.segments) := List.perm_append_singleton _ _
      have prepared := indexed.insertEmptySegment segment.uuid inserted
      have last : playlist.segmentStore.size ∈ playlist.segments ++ [playlist.segmentStore.size] :=
        List.mem_append_right _ (List.mem_singleton_self _)
      have started : (playlist.insertEmptySegment segment.uuid
          (playlist.segments ++ [playlist.segmentStore.size])).InOrder :=
        ordered.insertEmptySegment indexed segment.uuid (List.append_nil _).symm
      have stillFilled : (playlist.insertEmptySegment segment.uuid
          (playlist.segments ++ [playlist.segmentStore.size])).TracksFilled := filled
      exact ih (started.placeSequences prepared stillFilled rfl segment.sequences)
        (placeSegment_spec indexed segment).1
        (stillFilled.placeSequences segment.sequences prepared last)

theorem build_inOrder (path : String) (value : PlaylistValue) : (build path value).InOrder := by
  refine InOrder.placeSegments ?_ (Indexed.of_empty rfl rfl) (fun _ member => by cases member)
    value.segments
  constructor
  · intro track member
    cases member
  · exact List.Sublist.refl []

section Compare

/-- The virtual tracks as the timeline has them: each with its sequences in the order in which
they are played, and in the order of their first sequences. -/
def timelineTracks (playlist : IMFCompositionPlaylist) : List (String × List String) :=
  (regroup playlist.index.itemKey playlist.sequences).map fun list =>
    (list.1, list.2.map playlist.sequenceUUID)

theorem trackLists_eq (playlist : IMFCompositionPlaylist) :
    playlist.trackLists = playlist.index.trackLists.map fun list =>
      (list.1, list.2.map playlist.sequenceUUID) := by
  rw [CrossIndex.trackLists, List.map_map]
  rfl

theorem timelineTracks_eq (distinct : (playlist.sequences.map playlist.outline).Nodup) :
    playlist.timelineTracks =
      (regroup Prod.fst (playlist.sequences.map playlist.outline)).map fun list =>
        (list.1, list.2.map Prod.snd) := by
  have grouped : regroup Prod.fst (playlist.sequences.map playlist.outline) =
      (regroup playlist.index.itemKey playlist.sequences).map fun list =>
        (list.1, list.2.map playlist.outline) :=
    regroup_map (fun _ _ => rfl) fun _ first _ second same =>
      List.inj_on_of_nodup_map distinct first second same
  rw [grouped, List.map_map]
  refine List.map_congr_left fun list _ => Prod.ext rfl ?_
  rw [Function.comp_apply, List.map_map]
  rfl

theorem InOrder.trackLists_eq_timelineTracks (ordered : playlist.InOrder)
    (indexed : playlist.Indexed) (filled : playlist.TracksFilled) :
    playlist.trackLists = playlist.timelineTracks := by
  rw [trackLists_eq, (CrossIndex.inOrder_iff indexed.consistent filled).mp ordered]
  rfl

/-- The virtual tracks are those of the timeline exactly if they are in order. -/
theorem trackLists_eq_timelineTracks_iff (indexed : playlist.Indexed)
    (filled : playlist.TracksFilled) (distinct : playlist.Distinct) :
    playlist.trackLists = playlist.timelineTracks ↔ playlist.InOrder := by
  constructor
  · intro same
    rw [trackLists_eq, timelineTracks] at same
    refine (CrossIndex.inOrder_iff indexed.consistent filled).mpr ?_
    -- Different sequences have different identifiers, so the lists of addresses are the same too.
    refine eq_of_map_eq (fun list => ∀ address ∈ list.2, address ∈ playlist.sequences) ?_ ?_
      (fun list member address inside => mem_of_mem_regroup member inside) same
    · intro first second inFirst inSecond equal
      obtain ⟨keys, lists⟩ := Prod.mk.inj equal
      refine Prod.ext keys (eq_of_map_eq (· ∈ playlist.sequences) ?_ inFirst inSecond lists)
      exact fun a b left right => List.inj_on_of_nodup_map distinct.sequences left right
    · intro list member address inside
      obtain ⟨track, listed, rfl⟩ := List.mem_map.mp member
      exact ((indexed.consistent.listed track listed address).mp inside).1
  · intro ordered
    exact ordered.trackLists_eq_timelineTracks indexed filled

structure SameTracks (first second : List (String × List String)) : Prop where
  tracks : (first.map Prod.fst).Perm (second.map Prod.fst)
  sequences : ∀ uuid firstList secondList, (uuid, firstList) ∈ first → (uuid, secondList) ∈ second →
    firstList.Perm secondList

theorem sameTracks_timelineTracks (indexed : playlist.Indexed) (filled : playlist.TracksFilled) :
    SameTracks playlist.timelineTracks playlist.trackLists := by
  constructor
  · have keys := indexed.consistent.keys_perm filled
    rw [trackLists_eq, timelineTracks, List.map_map, List.map_map]
    exact keys
  · intro uuid firstList secondList first second
    rw [timelineTracks] at first
    rw [trackLists_eq] at second
    obtain ⟨⟨key, items⟩, grouped, same⟩ := List.mem_map.mp first
    obtain ⟨⟨other, listed⟩, tracked, equal⟩ := List.mem_map.mp second
    obtain ⟨rfl, rfl⟩ := Prod.mk.inj same
    obtain ⟨rfl, rfl⟩ := Prod.mk.inj equal
    exact (indexed.consistent.lists_perm grouped tracked).map playlist.sequenceUUID

theorem trackLists_of_reload {path : String} {tracks : List IMFTrack} {tree : PTree}
    {loaded : IMFCompositionPlaylist} (distinct : playlist.Distinct)
    (nonempty : ∀ address ∈ playlist.sequences, (playlist.sequence address).items ≠ [])
    (written : playlist.write = .ok tree) (reloaded : load path tree tracks = .ok loaded) :
    loaded.trackLists = playlist.timelineTracks := by
  have outlines := outlines_of_reload nonempty written reloaded
  have nodup : (playlist.sequences.map playlist.outline).Nodup := by
    have uuids : (playlist.sequences.map playlist.outline).map Prod.snd =
        playlist.sequences.map playlist.sequenceUUID := List.map_map
    exact List.Nodup.of_map Prod.snd (uuids.symm ▸ distinct.sequences)
  obtain ⟨indexed, filled⟩ := load_spec reloaded
  have ordered : loaded.InOrder := by
    obtain ⟨value, -, rfl⟩ := eq_build_of_load reloaded
    exact build_inOrder path value
  rw [ordered.trackLists_eq_timelineTracks indexed filled,
    timelineTracks_eq (outlines.symm ▸ nodup), outlines, ← timelineTracks_eq nodup]

end Compare

end IMFCompositionPlaylist

end Imflib.Package
