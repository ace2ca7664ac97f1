import Imflib.Base.CrossIndex
import Imflib.Package.Playlist

/-! Segments and virtual tracks as two indexes of the sequences of a playlist, and how the
operations of a playlist change them. -/

namespace Imflib.Package.IMFCompositionPlaylist

variable (playlist : IMFCompositionPlaylist)

/-- Segments are the groups and virtual tracks the tracks, by the address of every object. -/
def index : CrossIndex Nat Nat Nat String :=
  { groups := playlist.segments
    groupItems := fun address => (playlist.segment address).items
    tracks := playlist.virtualTracks
    trackItems := fun address => (playlist.virtualTrack address).items
    trackKey := playlist.trackUUID
    itemKey := fun address => (playlist.sequence address).virtualTrackId }

theorem mem_sequences_of_mem {playlist : IMFCompositionPlaylist} {segment sequence : Nat}
    (member : segment ∈ playlist.segments) (inside : sequence ∈ (playlist.segment segment).items) :
    sequence ∈ playlist.sequences :=
  List.mem_flatMap.mpr ⟨segment, member, inside⟩

/-- All objects that a playlist refers to are allocated, and its two indexes agree. -/
structure Indexed : Prop where
  segments : ∀ address ∈ playlist.segments, address < playlist.segmentStore.size
  tracks : ∀ address ∈ playlist.virtualTracks, address < playlist.trackStore.size
  sequences : ∀ address ∈ playlist.sequences, address < playlist.sequenceStore.size
  consistent : playlist.index.Consistent

structure Distinct : Prop where
  segments : (playlist.segments.map playlist.segmentUUID).Nodup
  sequences : (playlist.sequences.map playlist.sequenceUUID).Nodup

/-- A new segment without sequences, in a new list of segments. -/
def insertEmptySegment (uuid : String) (segments : List Nat) : IMFCompositionPlaylist :=
  { (playlist.newSegment ⟨uuid, []⟩).1 with segments := segments }

/-- A new virtual track without sequences, behind all others. -/
def addEmptyTrack (uuid : String) : IMFCompositionPlaylist :=
  (playlist.newVirtualTrack ⟨uuid, []⟩).1.addVirtualTrack playlist.trackStore.size

def link (segment track : Nat) (sequence : CPLSequence) : IMFCompositionPlaylist :=
  let address := playlist.sequenceStore.size
  ((playlist.newSequence sequence).1.appendToSegment segment address).appendToVirtualTrack track
    address

theorem segmentUUID_modifySegment (address : Nat) (change : CPLSegment → CPLSegment)
    (kept : (change (playlist.segment address)).uuid = playlist.segmentUUID address) :
    (playlist.modifySegment address change).segmentUUID = playlist.segmentUUID :=
  funext fun other =>
    playlist.segmentStore.cell_modify_congr CPLSegment.uuid address other change kept

theorem trackUUID_modifyVirtualTrack (address : Nat) (change : CPLVirtualTrack → CPLVirtualTrack)
    (kept : (change (playlist.virtualTrack address)).uuid = playlist.trackUUID address) :
    (playlist.modifyVirtualTrack address change).trackUUID = playlist.trackUUID :=
  funext fun other =>
    playlist.trackStore.cell_modify_congr CPLVirtualTrack.uuid address other change kept

@[simp] theorem segmentUUID_appendToSegment (segment item : Nat) :
    (playlist.appendToSegment segment item).segmentUUID = playlist.segmentUUID :=
  playlist.segmentUUID_modifySegment segment _ rfl

@[simp] theorem trackUUID_appendToVirtualTrack (track item : Nat) :
    (playlist.appendToVirtualTrack track item).trackUUID = playlist.trackUUID :=
  playlist.trackUUID_modifyVirtualTrack track _ rfl

@[simp] theorem segmentUUID_deleteFromSegment (segment item : Nat) :
    (playlist.deleteFromSegment segment item).segmentUUID = playlist.segmentUUID :=
  playlist.segmentUUID_modifySegment segment _ rfl

@[simp] theorem trackUUID_deleteFromVirtualTrack (track item : Nat) :
    (playlist.deleteFromVirtualTrack track item).trackUUID = playlist.trackUUID :=
  playlist.trackUUID_modifyVirtualTrack track _ rfl

theorem index_insertEmptySegment (uuid : String) (segments : List Nat) :
    (playlist.insertEmptySegment uuid segments).index =
      playlist.index.addGroup playlist.segmentStore.size segments := by
  refine CrossIndex.ext rfl ?_ rfl rfl rfl rfl
  exact Function.comp_update CPLSegment.items playlist.segmentStore.cell _ _

theorem index_addEmptyTrack (uuid : String) :
    (playlist.addEmptyTrack uuid).index =
      playlist.index.addTrack playlist.trackStore.size uuid := by
  refine CrossIndex.ext rfl rfl rfl ?_ ?_ rfl
  · exact Function.comp_update CPLVirtualTrack.items playlist.trackStore.cell _ _
  · exact Function.comp_update CPLVirtualTrack.uuid playlist.trackStore.cell _ _

theorem trackUUID_addEmptyTrack (uuid : String) :
    (playlist.addEmptyTrack uuid).trackUUID playlist.trackStore.size = uuid :=
  congrArg CPLVirtualTrack.uuid (playlist.trackStore.cell_alloc_size ⟨uuid, []⟩)

theorem index_link (segment track : Nat) (sequence : CPLSequence)
    (carried : sequence.virtualTrackId = playlist.trackUUID track) :
    (playlist.link segment track sequence).index =
      playlist.index.link segment track playlist.sequenceStore.size := by
  refine CrossIndex.ext rfl ?_ rfl ?_ ?_ ?_
  · exact Function.comp_update CPLSegment.items playlist.segmentStore.cell _ _
  · exact Function.comp_update CPLVirtualTrack.items playlist.trackStore.cell _ _
  · exact trackUUID_appendToVirtualTrack _ track _
  · have keys := Function.comp_update CPLSequence.virtualTrackId playlist.sequenceStore.cell
      playlist.sequenceStore.size sequence
    rw [carried] at keys
    exact keys

theorem index_modifySequence (address : Nat) (change : CPLSequence → CPLSequence)
    (kept : (change (playlist.sequence address)).virtualTrackId =
      (playlist.sequence address).virtualTrackId) :
    (playlist.modifySequence address change).index = playlist.index := by
  refine CrossIndex.ext rfl rfl rfl rfl rfl ?_
  funext other
  exact playlist.sequenceStore.cell_modify_congr CPLSequence.virtualTrackId address other change kept

def unlink (segment track sequence : Nat) : IMFCompositionPlaylist :=
  (playlist.deleteFromSegment segment sequence).deleteFromVirtualTrack track sequence

def dropEmptySegment (segment : Nat) : IMFCompositionPlaylist :=
  if (playlist.segment segment).items.isEmpty then playlist.deleteSegment segment else playlist

def dropEmptyVirtualTrack (track : Nat) : IMFCompositionPlaylist :=
  if (playlist.virtualTrack track).items.isEmpty then playlist.deleteVirtualTrack track else playlist

def deleteSequence (segment track sequence : Nat) : IMFCompositionPlaylist :=
  ((playlist.unlink segment track sequence).dropEmptySegment segment).dropEmptyVirtualTrack track

variable {playlist}

theorem index_unlink (distinct : playlist.Distinct) {segment track sequence : Nat}
    (inSegment : ∀ item ∈ (playlist.segment segment).items, item ∈ playlist.sequences)
    (inTrack : ∀ item ∈ (playlist.virtualTrack track).items, item ∈ playlist.sequences)
    (present : sequence ∈ playlist.sequences) :
    (playlist.unlink segment track sequence).index = playlist.index.unlink segment track sequence := by
  have fromSegment := KeyedList.delete_eq_filter _ distinct.sequences inSegment present
  have fromTrack := KeyedList.delete_eq_filter _ distinct.sequences inTrack present
  refine CrossIndex.ext rfl ?_ rfl ?_ ?_ rfl
  · refine (Function.comp_update CPLSegment.items playlist.segmentStore.cell segment _).trans ?_
    exact congrArg (Function.update _ segment) fromSegment
  · refine (Function.comp_update CPLVirtualTrack.items playlist.trackStore.cell track _).trans ?_
    exact congrArg (Function.update _ track) fromTrack
  · exact trackUUID_deleteFromVirtualTrack _ track _

theorem dropEmptySegment_eq (playlist : IMFCompositionPlaylist) (segment : Nat) :
    ∃ segments, playlist.dropEmptySegment segment = { playlist with segments := segments } := by
  unfold dropEmptySegment
  split
  · exact ⟨_, rfl⟩
  · exact ⟨playlist.segments, rfl⟩

theorem dropEmptyVirtualTrack_eq (playlist : IMFCompositionPlaylist) (track : Nat) :
    ∃ virtualTracks, playlist.dropEmptyVirtualTrack track =
      { playlist with virtualTracks := virtualTracks } := by
  unfold dropEmptyVirtualTrack
  split
  · exact ⟨_, rfl⟩
  · exact ⟨playlist.virtualTracks, rfl⟩

/-- Apart from the two lists, the clean-up changes nothing that the deletion does not. -/
theorem deleteSequence_eq (playlist : IMFCompositionPlaylist) (segment track sequence : Nat) :
    ∃ segments virtualTracks, playlist.deleteSequence segment track sequence =
      { playlist.unlink segment track sequence with
        segments := segments
        virtualTracks := virtualTracks } := by
  obtain ⟨segments, first⟩ := dropEmptySegment_eq (playlist.unlink segment track sequence) segment
  obtain ⟨virtualTracks, second⟩ := dropEmptyVirtualTrack_eq
    ((playlist.unlink segment track sequence).dropEmptySegment segment) track
  refine ⟨segments, virtualTracks, ?_⟩
  rw [deleteSequence, second, first]

theorem sequence_deleteSequence (playlist : IMFCompositionPlaylist) (segment track sequence : Nat) :
    (playlist.deleteSequence segment track sequence).sequence = playlist.sequence := by
  obtain ⟨_, _, same⟩ := deleteSequence_eq playlist segment track sequence
  rw [same]
  rfl

theorem index_dropEmptySegment (distinct : (playlist.segments.map playlist.segmentUUID).Nodup)
    {segment : Nat} (member : segment ∈ playlist.segments) :
    (playlist.dropEmptySegment segment).index = playlist.index.dropEmptyGroup segment := by
  have filtered := KeyedList.delete_eq_filter _ distinct (fun _ listed => listed) member
  unfold dropEmptySegment CrossIndex.dropEmptyGroup
  by_cases empty : (playlist.segment segment).items.isEmpty = true
  · have none : (playlist.index.groupItems segment).isEmpty = true := empty
    rw [if_pos empty, if_pos none]
    exact congrArg (fun groups => { playlist.index with groups := groups }) filtered
  · have some : ¬ (playlist.index.groupItems segment).isEmpty = true := empty
    rw [if_neg empty, if_neg some]

theorem index_dropEmptyVirtualTrack
    (distinct : (playlist.virtualTracks.map playlist.trackUUID).Nodup)
    {track : Nat} (member : track ∈ playlist.virtualTracks) :
    (playlist.dropEmptyVirtualTrack track).index = playlist.index.dropEmptyTrack track := by
  have filtered := KeyedList.delete_eq_filter _ distinct (fun _ listed => listed) member
  unfold dropEmptyVirtualTrack CrossIndex.dropEmptyTrack
  by_cases empty : (playlist.virtualTrack track).items.isEmpty = true
  · have none : (playlist.index.trackItems track).isEmpty = true := empty
    rw [if_pos empty, if_pos none]
    exact congrArg (fun tracks => { playlist.index with tracks := tracks }) filtered
  · have some : ¬ (playlist.index.trackItems track).isEmpty = true := empty
    rw [if_neg empty, if_neg some]

theorem index_deleteSequence (indexed : playlist.Indexed) (distinct : playlist.Distinct)
    {segment track sequence : Nat} (segmentMember : segment ∈ playlist.segments)
    (inside : sequence ∈ (playlist.segment segment).items)
    (trackMember : track ∈ playlist.virtualTracks)
    (carried : (playlist.sequence sequence).virtualTrackId = playlist.trackUUID track) :
    (playlist.deleteSequence segment track sequence).index =
      playlist.index.remove segment track sequence := by
  have unlinked := index_unlink distinct
    (fun item member => mem_sequences_of_mem segmentMember member)
    (fun item member => ((indexed.consistent.listed track trackMember item).mp member).1)
    (mem_sequences_of_mem segmentMember inside)
  have segmentUUIDs : (playlist.unlink segment track sequence).segmentUUID = playlist.segmentUUID :=
    playlist.segmentUUID_deleteFromSegment segment sequence
  have segmentsDistinct : ((playlist.unlink segment track sequence).segments.map
      (playlist.unlink segment track sequence).segmentUUID).Nodup := by
    rw [segmentUUIDs]
    exact distinct.segments
  have segmentDropped := index_dropEmptySegment segmentsDistinct segmentMember
  rw [unlinked] at segmentDropped
  have consistent := (indexed.consistent.unlink segmentMember inside trackMember carried).dropEmptyGroup
    segment
  rw [← segmentDropped] at consistent
  have listed : track ∈ ((playlist.unlink segment track sequence).dropEmptySegment
      segment).index.tracks := by
    rw [segmentDropped]
    exact trackMember
  have trackDropped := index_dropEmptyVirtualTrack consistent.keys_nodup listed
  rw [segmentDropped] at trackDropped
  exact trackDropped

namespace Indexed

theorem of_empty (segments : playlist.segments = []) (tracks : playlist.virtualTracks = []) :
    playlist.Indexed := by
  have sequences : playlist.sequences = [] := by
    rw [IMFCompositionPlaylist.sequences, segments]
    rfl
  have groups : playlist.index.groups = [] := segments
  have items : playlist.index.items = [] := sequences
  have indexTracks : playlist.index.tracks = [] := tracks
  constructor
  · simp [segments]
  · simp [tracks]
  · simp [sequences]
  · constructor <;> simp [groups, items, indexTracks]

theorem fresh_segment (indexed : playlist.Indexed) :
    playlist.segmentStore.size ∉ playlist.segments :=
  fun member => Nat.lt_irrefl _ (indexed.segments _ member)

theorem fresh_track (indexed : playlist.Indexed) :
    playlist.trackStore.size ∉ playlist.virtualTracks :=
  fun member => Nat.lt_irrefl _ (indexed.tracks _ member)

theorem fresh_sequence (indexed : playlist.Indexed) :
    playlist.sequenceStore.size ∉ playlist.sequences :=
  fun member => Nat.lt_irrefl _ (indexed.sequences _ member)

theorem sequences_insertEmptySegment_perm (indexed : playlist.Indexed) (uuid : String)
    {segments : List Nat}
    (inserted : segments.Perm (playlist.segmentStore.size :: playlist.segments)) :
    (playlist.insertEmptySegment uuid segments).sequences.Perm playlist.sequences := by
  have moved : (playlist.index.addGroup playlist.segmentStore.size segments).items.Perm
      playlist.index.items := CrossIndex.items_addGroup_perm indexed.fresh_segment inserted
  rw [← index_insertEmptySegment playlist uuid] at moved
  exact moved

theorem sequenceUUIDs_insertEmptySegment_perm (indexed : playlist.Indexed) (uuid : String)
    {segments : List Nat}
    (inserted : segments.Perm (playlist.segmentStore.size :: playlist.segments)) :
    ((playlist.insertEmptySegment uuid segments).sequences.map
      (playlist.insertEmptySegment uuid segments).sequenceUUID).Perm
      (playlist.sequences.map playlist.sequenceUUID) :=
  (indexed.sequences_insertEmptySegment_perm uuid inserted).map playlist.sequenceUUID

theorem insertEmptySegment (indexed : playlist.Indexed) (uuid : String) {segments : List Nat}
    (inserted : segments.Perm (playlist.segmentStore.size :: playlist.segments)) :
    (playlist.insertEmptySegment uuid segments).Indexed := by
  have sequences := indexed.sequences_insertEmptySegment_perm uuid inserted
  refine ⟨?_, indexed.tracks, ?_, ?_⟩
  · intro address member
    rcases List.mem_cons.mp (inserted.mem_iff.mp member) with rfl | old
    · exact Nat.lt_succ_self _
    · exact Nat.lt_succ_of_lt (indexed.segments address old)
  · intro address member
    exact indexed.sequences address (sequences.mem_iff.mp member)
  · rw [index_insertEmptySegment]
    exact indexed.consistent.addGroup indexed.fresh_segment inserted

theorem addEmptyTrack (indexed : playlist.Indexed) {uuid : String}
    (newUUID : uuid ∉ playlist.virtualTracks.map playlist.trackUUID) :
    (playlist.addEmptyTrack uuid).Indexed := by
  refine ⟨indexed.segments, ?_, indexed.sequences, ?_⟩
  · intro address member
    rcases List.mem_append.mp member with old | new
    · exact Nat.lt_succ_of_lt (indexed.tracks address old)
    · rw [List.mem_singleton.mp new]
      exact Nat.lt_succ_self _
  · rw [index_addEmptyTrack]
    exact indexed.consistent.addTrack indexed.fresh_track newUUID

theorem sequences_link_perm (indexed : playlist.Indexed) {segment : Nat}
    (segmentMember : segment ∈ playlist.segments) (track : Nat) {sequence : CPLSequence}
    (carried : sequence.virtualTrackId = playlist.trackUUID track) :
    (playlist.link segment track sequence).sequences.Perm
      (playlist.sequenceStore.size :: playlist.sequences) := by
  have moved := CrossIndex.items_link_perm indexed.consistent.groups_nodup segmentMember track
    playlist.sequenceStore.size
  rw [← index_link playlist segment track sequence carried] at moved
  exact moved

theorem link (indexed : playlist.Indexed) {segment track : Nat} {sequence : CPLSequence}
    (segmentMember : segment ∈ playlist.segments) (trackMember : track ∈ playlist.virtualTracks)
    (carried : sequence.virtualTrackId = playlist.trackUUID track) :
    (playlist.link segment track sequence).Indexed := by
  have sequences := indexed.sequences_link_perm segmentMember track carried
  refine ⟨indexed.segments, indexed.tracks, ?_, ?_⟩
  · intro address member
    rcases List.mem_cons.mp (sequences.mem_iff.mp member) with rfl | old
    · exact Nat.lt_succ_self _
    · exact Nat.lt_succ_of_lt (indexed.sequences address old)
  · rw [index_link playlist segment track sequence carried]
    exact indexed.consistent.link segmentMember trackMember indexed.fresh_sequence

theorem each_link (indexed : playlist.Indexed) {segment : Nat}
    (segmentMember : segment ∈ playlist.segments) (track : Nat) {sequence : CPLSequence}
    (carried : sequence.virtualTrackId = playlist.trackUUID track) (P : CPLSequence → Prop)
    (each : ∀ address ∈ playlist.sequences, P (playlist.sequence address)) (new : P sequence) :
    ∀ address ∈ (playlist.link segment track sequence).sequences,
      P ((playlist.link segment track sequence).sequence address) := by
  intro address member
  have sequences := indexed.sequences_link_perm segmentMember track carried
  rcases List.mem_cons.mp (sequences.mem_iff.mp member) with rfl | old
  · have added : (playlist.link segment track sequence).sequence playlist.sequenceStore.size =
        sequence := playlist.sequenceStore.cell_alloc_size sequence
    rwa [added]
  · have kept : (playlist.link segment track sequence).sequence address =
        playlist.sequence address :=
      playlist.sequenceStore.cell_alloc_of_lt sequence (indexed.sequences address old)
    rw [kept]
    exact each address old

theorem each_modifySequence {address : Nat} {change : CPLSequence → CPLSequence}
    (P : CPLSequence → Prop)
    (each : ∀ other ∈ playlist.sequences, P (playlist.sequence other))
    (changed : P (change (playlist.sequence address))) :
    ∀ other ∈ playlist.sequences, P ((playlist.modifySequence address change).sequence other) := by
  intro other member
  by_cases same : other = address
  · subst same
    rwa [playlist.sequence_modifySequence_self]
  · rw [playlist.sequence_modifySequence_of_ne change same]
    exact each other member

theorem modifySequence (indexed : playlist.Indexed) {address : Nat}
    {change : CPLSequence → CPLSequence}
    (kept : (change (playlist.sequence address)).virtualTrackId =
      (playlist.sequence address).virtualTrackId) :
    (playlist.modifySequence address change).Indexed := by
  refine ⟨indexed.segments, indexed.tracks, indexed.sequences, ?_⟩
  rw [index_modifySequence playlist address change kept]
  exact indexed.consistent

theorem sequences_deleteSequence_perm (indexed : playlist.Indexed) (distinct : playlist.Distinct)
    {segment track sequence : Nat} (segmentMember : segment ∈ playlist.segments)
    (inside : sequence ∈ (playlist.segment segment).items)
    (trackMember : track ∈ playlist.virtualTracks)
    (carried : (playlist.sequence sequence).virtualTrackId = playlist.trackUUID track) :
    (playlist.deleteSequence segment track sequence).sequences.Perm
      (playlist.sequences.filter (· ≠ sequence)) := by
  have moved := CrossIndex.items_remove_perm indexed.consistent segmentMember inside track
  rw [← index_deleteSequence indexed distinct segmentMember inside trackMember carried] at moved
  exact moved

theorem deleteSequence (indexed : playlist.Indexed) (distinct : playlist.Distinct)
    {segment track sequence : Nat} (segmentMember : segment ∈ playlist.segments)
    (inside : sequence ∈ (playlist.segment segment).items)
    (trackMember : track ∈ playlist.virtualTracks)
    (carried : (playlist.sequence sequence).virtualTrackId = playlist.trackUUID track) :
    (playlist.deleteSequence segment track sequence).Indexed := by
  have index := index_deleteSequence indexed distinct segmentMember inside trackMember carried
  have sequences := indexed.sequences_deleteSequence_perm distinct segmentMember inside trackMember
    carried
  have consistent : (playlist.deleteSequence segment track sequence).index.Consistent := by
    rw [index]
    exact indexed.consistent.remove segmentMember inside trackMember carried
  have remainingSegments : ∀ address ∈ (playlist.deleteSequence segment track sequence).segments,
      address ∈ playlist.segments := by
    intro address member
    have left : address ∈ (playlist.deleteSequence segment track sequence).index.groups := member
    rw [index] at left
    exact (CrossIndex.mem_dropEmptyGroup.mp left).1
  have remainingTracks : ∀ address ∈ (playlist.deleteSequence segment track
      sequence).virtualTracks, address ∈ playlist.virtualTracks := by
    intro address member
    have left : address ∈ (playlist.deleteSequence segment track sequence).index.tracks := member
    rw [index] at left
    exact (CrossIndex.mem_dropEmptyTrack.mp left).1
  have remaining : ∀ address ∈ (playlist.deleteSequence segment track sequence).sequences,
      address ∈ playlist.sequences :=
    fun address member => List.mem_of_mem_filter (sequences.mem_iff.mp member)
  obtain ⟨segments, virtualTracks, same⟩ := deleteSequence_eq playlist segment track sequence
  rw [same] at remainingSegments remainingTracks remaining consistent ⊢
  exact
    { segments := fun address member => indexed.segments address (remainingSegments address member)
      tracks := fun address member => indexed.tracks address (remainingTracks address member)
      sequences := fun address member => indexed.sequences address (remaining address member)
      consistent := consistent }

end Indexed

theorem map_sequence_link (playlist : IMFCompositionPlaylist) (segment track : Nat)
    (sequence : CPLSequence) {items : List Nat}
    (allocated : ∀ address ∈ items, address < playlist.sequenceStore.size) :
    items.map (playlist.link segment track sequence).sequence = items.map playlist.sequence :=
  List.map_congr_left fun address member =>
    playlist.sequenceStore.cell_alloc_of_lt sequence (allocated address member)

theorem Indexed.allocated (indexed : playlist.Indexed) {segment : Nat}
    (member : segment ∈ playlist.segments) :
    ∀ address ∈ (playlist.segment segment).items, address < playlist.sequenceStore.size :=
  fun address inside => indexed.sequences address (mem_sequences_of_mem member inside)

theorem segmentValue_link_self (indexed : playlist.Indexed) {segment : Nat}
    (member : segment ∈ playlist.segments) (track : Nat) (sequence : CPLSequence) :
    (playlist.link segment track sequence).segmentValue segment =
      ⟨playlist.segmentUUID segment, (playlist.segmentValue segment).sequences ++ [sequence]⟩ := by
  have changed : (playlist.link segment track sequence).segment segment =
      { playlist.segment segment with
        items := (playlist.segment segment).items ++ [playlist.sequenceStore.size] } :=
    playlist.segmentStore.cell_modify_self segment fun segment =>
      { segment with items := segment.items ++ [playlist.sequenceStore.size] }
  have added : (playlist.link segment track sequence).sequence playlist.sequenceStore.size =
      sequence := playlist.sequenceStore.cell_alloc_size sequence
  have kept := playlist.map_sequence_link segment track sequence (indexed.allocated member)
  rw [segmentValue, changed, List.map_append, kept, List.map_singleton, added]
  rfl

theorem segmentValue_link_of_ne (indexed : playlist.Indexed) {segment other : Nat}
    (member : other ∈ playlist.segments) (different : other ≠ segment) (track : Nat)
    (sequence : CPLSequence) :
    (playlist.link segment track sequence).segmentValue other = playlist.segmentValue other := by
  have same : (playlist.link segment track sequence).segment other = playlist.segment other :=
    playlist.segmentStore.cell_modify_of_ne (fun segment =>
      { segment with items := segment.items ++ [playlist.sequenceStore.size] }) different
  have kept := playlist.map_sequence_link segment track sequence (indexed.allocated member)
  rw [segmentValue, same, kept]
  rfl

theorem segmentValue_insertEmptySegment_self (playlist : IMFCompositionPlaylist) (uuid : String)
    (segments : List Nat) :
    (playlist.insertEmptySegment uuid segments).segmentValue playlist.segmentStore.size =
      ⟨uuid, []⟩ := by
  have new : (playlist.insertEmptySegment uuid segments).segment playlist.segmentStore.size =
      ⟨uuid, []⟩ := playlist.segmentStore.cell_alloc_size _
  rw [segmentValue, new]
  rfl

theorem segmentValue_insertEmptySegment_of_mem (indexed : playlist.Indexed) {segment : Nat}
    (member : segment ∈ playlist.segments) (uuid : String) (segments : List Nat) :
    (playlist.insertEmptySegment uuid segments).segmentValue segment =
      playlist.segmentValue segment := by
  have same : (playlist.insertEmptySegment uuid segments).segment segment =
      playlist.segment segment :=
    playlist.segmentStore.cell_alloc_of_lt _ (indexed.segments segment member)
  rw [segmentValue, same]
  rfl

namespace Distinct

theorem insertEmptySegment (distinct : playlist.Distinct) (indexed : playlist.Indexed)
    {uuid : String} (newUUID : uuid ∉ playlist.segments.map playlist.segmentUUID)
    {segments : List Nat}
    (inserted : segments.Perm (playlist.segmentStore.size :: playlist.segments)) :
    (playlist.insertEmptySegment uuid segments).Distinct := by
  constructor
  · have ownUUID : (playlist.insertEmptySegment uuid segments).segmentUUID
        playlist.segmentStore.size = uuid :=
      congrArg CPLSegment.uuid (playlist.segmentStore.cell_alloc_size _)
    refine KeyedList.nodup_map_of_inserted inserted ?_ (ownUUID.symm ▸ newUUID) distinct.segments
    intro address member
    exact congrArg CPLSegment.uuid
      (playlist.segmentStore.cell_alloc_of_lt _ (indexed.segments address member))
  · have sequences := indexed.sequences_insertEmptySegment_perm uuid inserted
    exact (sequences.map playlist.sequenceUUID).nodup_iff.mpr distinct.sequences

theorem link (distinct : playlist.Distinct) (indexed : playlist.Indexed) {segment track : Nat}
    {sequence : CPLSequence} (segmentMember : segment ∈ playlist.segments)
    (carried : sequence.virtualTrackId = playlist.trackUUID track)
    (newUUID : sequence.uuid ∉ playlist.sequences.map playlist.sequenceUUID) :
    (playlist.link segment track sequence).Distinct := by
  constructor
  · have same : (playlist.link segment track sequence).segmentUUID = playlist.segmentUUID :=
      segmentUUID_appendToSegment _ segment _
    rw [same]
    exact distinct.segments
  · have ownUUID : (playlist.link segment track sequence).sequenceUUID
        playlist.sequenceStore.size = sequence.uuid :=
      congrArg CPLSequence.uuid (playlist.sequenceStore.cell_alloc_size _)
    refine KeyedList.nodup_map_of_inserted (indexed.sequences_link_perm segmentMember track carried)
      ?_ (ownUUID.symm ▸ newUUID) distinct.sequences
    intro address member
    exact congrArg CPLSequence.uuid
      (playlist.sequenceStore.cell_alloc_of_lt _ (indexed.sequences address member))

theorem modifySequence (distinct : playlist.Distinct) {address : Nat}
    {change : CPLSequence → CPLSequence}
    (kept : (change (playlist.sequence address)).uuid = playlist.sequenceUUID address) :
    (playlist.modifySequence address change).Distinct := by
  have same : (playlist.modifySequence address change).sequenceUUID = playlist.sequenceUUID :=
    funext fun other =>
      playlist.sequenceStore.cell_modify_congr CPLSequence.uuid address other change kept
  refine ⟨distinct.segments, ?_⟩
  rw [same]
  exact distinct.sequences

theorem deleteSequence (distinct : playlist.Distinct) (indexed : playlist.Indexed)
    {segment track sequence : Nat} (segmentMember : segment ∈ playlist.segments)
    (inside : sequence ∈ (playlist.segment segment).items)
    (trackMember : track ∈ playlist.virtualTracks)
    (carried : (playlist.sequence sequence).virtualTrackId = playlist.trackUUID track) :
    (playlist.deleteSequence segment track sequence).Distinct := by
  have index := index_deleteSequence indexed distinct segmentMember inside trackMember carried
  have sequences := indexed.sequences_deleteSequence_perm distinct segmentMember inside trackMember
    carried
  have segments : (playlist.deleteSequence segment track sequence).segments.Sublist
      playlist.segments := by
    have dropped : (playlist.deleteSequence segment track sequence).index.groups.Sublist
        playlist.index.groups := by
      rw [index]
      exact CrossIndex.dropEmptyGroup_sublist segment
    exact dropped
  obtain ⟨left, virtualTracks, same⟩ := deleteSequence_eq playlist segment track sequence
  rw [same] at sequences segments ⊢
  constructor
  · have uuids : (playlist.unlink segment track sequence).segmentUUID = playlist.segmentUUID :=
      playlist.segmentUUID_deleteFromSegment segment sequence
    have kept := (segments.map playlist.segmentUUID).nodup distinct.segments
    rw [← uuids] at kept
    exact kept
  · have kept : ((playlist.sequences.filter (· ≠ sequence)).map playlist.sequenceUUID).Nodup :=
      (List.filter_sublist.map playlist.sequenceUUID).nodup distinct.sequences
    exact (sequences.map playlist.sequenceUUID).nodup_iff.mpr kept

end Distinct

/-- A virtual track to which a sequence may be linked: one that was there, or a new one without
sequences. -/
structure TrackReady (before after : IMFCompositionPlaylist) (track : Nat) : Prop where
  indexed : after.Indexed
  same : ∃ virtualTracks trackStore,
    after = { before with virtualTracks := virtualTracks, trackStore := trackStore }
  member : track ∈ after.virtualTracks
  others : ∀ other ∈ after.virtualTracks, other ≠ track →
    other ∈ before.virtualTracks ∧ (after.virtualTrack other).items = (before.virtualTrack other).items

namespace TrackReady

theorem existing (indexed : playlist.Indexed) {track : Nat} (member : track ∈ playlist.virtualTracks) :
    TrackReady playlist playlist track :=
  { indexed := indexed
    same := ⟨playlist.virtualTracks, playlist.trackStore, rfl⟩
    member := member
    others := fun _ listed _ => ⟨listed, rfl⟩ }

theorem added (indexed : playlist.Indexed) {uuid : String}
    (newUUID : uuid ∉ playlist.virtualTracks.map playlist.trackUUID) :
    TrackReady playlist (playlist.addEmptyTrack uuid) playlist.trackStore.size := by
  refine
    { indexed := indexed.addEmptyTrack newUUID
      same := ⟨_, _, rfl⟩
      member := List.mem_append_right _ (List.mem_singleton_self _)
      others := ?_ }
  intro other listed different
  have old : other ∈ playlist.virtualTracks :=
    (List.mem_append.mp listed).resolve_right fun new => different (List.mem_singleton.mp new)
  exact ⟨old, congrArg CPLVirtualTrack.items (playlist.trackStore.cell_alloc_of_ne _ different)⟩

theorem orNew (indexed : playlist.Indexed) {found : Option Nat} {uuid : String}
    (listed : ∀ track ∈ found, track ∈ playlist.virtualTracks)
    (newUUID : found = none → uuid ∉ playlist.virtualTracks.map playlist.trackUUID) :
    TrackReady playlist (playlist.orNewVirtualTrack found uuid).1
      (playlist.orNewVirtualTrack found uuid).2 := by
  cases found with
  | some track => exact existing indexed (listed track rfl)
  | none => exact added indexed (newUUID rfl)

variable {after : IMFCompositionPlaylist} {track : Nat}

theorem segments (ready : TrackReady playlist after track) : after.segments = playlist.segments := by
  obtain ⟨_, _, rfl⟩ := ready.same
  rfl

theorem segmentUUID (ready : TrackReady playlist after track) :
    after.segmentUUID = playlist.segmentUUID := by
  obtain ⟨_, _, rfl⟩ := ready.same
  rfl

theorem segmentValue (ready : TrackReady playlist after track) :
    after.segmentValue = playlist.segmentValue := by
  obtain ⟨_, _, rfl⟩ := ready.same
  rfl

theorem sequenceUUIDs (ready : TrackReady playlist after track) :
    after.sequences.map after.sequenceUUID = playlist.sequences.map playlist.sequenceUUID := by
  obtain ⟨_, _, rfl⟩ := ready.same
  rfl

/-- Only the track that is made ready may be empty. -/
theorem otherTracks (ready : TrackReady playlist after track) (filled : playlist.index.Filled) :
    ∀ other ∈ after.virtualTracks, other ≠ track → (after.virtualTrack other).items ≠ [] := by
  intro other listed different
  obtain ⟨old, items⟩ := ready.others other listed different
  rw [items]
  exact filled.tracks other old

theorem distinct (ready : TrackReady playlist after track) (distinct : playlist.Distinct) :
    after.Distinct := by
  obtain ⟨_, _, rfl⟩ := ready.same
  exact ⟨distinct.segments, distinct.sequences⟩

end TrackReady

theorem orNewVirtualTrack_frame (playlist : IMFCompositionPlaylist) (found : Option Nat)
    (uuid : String) (segmentStore : Store CPLSegment) (sequenceStore : Store CPLSequence) :
    orNewVirtualTrack
        { playlist with segmentStore := segmentStore, sequenceStore := sequenceStore } found uuid =
      ({ (playlist.orNewVirtualTrack found uuid).1 with
          segmentStore := segmentStore
          sequenceStore := sequenceStore }, (playlist.orNewVirtualTrack found uuid).2) := by
  cases found <;> rfl

theorem orNewVirtualTrack_eq (playlist : IMFCompositionPlaylist) (found : Option Nat)
    (uuid : String) :
    ∃ virtualTracks trackStore, (playlist.orNewVirtualTrack found uuid).1 =
      { playlist with virtualTracks := virtualTracks, trackStore := trackStore } := by
  cases found with
  | some track => exact ⟨playlist.virtualTracks, playlist.trackStore, rfl⟩
  | none => exact ⟨_, _, rfl⟩

end Imflib.Package.IMFCompositionPlaylist
