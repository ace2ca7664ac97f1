import Imflib.Package.PlaylistReading

/-! A playlist that is written and read again has the same content, with the tracks of the reader. -/

namespace Imflib.Package

section MapTracks

variable (reread : IMFTrack → IMFTrack)

def CPLResource.mapTrack (resource : CPLResource) : CPLResource :=
  { resource with track := reread resource.track }

def CPLSequence.mapTracks (sequence : CPLSequence) : CPLSequence :=
  { sequence with items := sequence.items.map (CPLResource.mapTrack reread) }

def SegmentValue.mapTracks (segment : SegmentValue) : SegmentValue :=
  { segment with sequences := segment.sequences.map (CPLSequence.mapTracks reread) }

theorem CPLResource.mapTrack_id : CPLResource.mapTrack id = id := rfl

theorem CPLSequence.mapTracks_id : CPLSequence.mapTracks id = id := by
  funext sequence
  rw [mapTracks, CPLResource.mapTrack_id, List.map_id]
  rfl

theorem SegmentValue.mapTracks_id : SegmentValue.mapTracks id = id := by
  funext segment
  rw [mapTracks, CPLSequence.mapTracks_id, List.map_id]
  rfl

end MapTracks

/-- Readings keep the identifiers by which tracks are found. -/
def KeepsUUID (reread : IMFTrack → IMFTrack) : Prop := ∀ track, (reread track).uuid = track.uuid

theorem KeepsUUID.map_uuid {reread : IMFTrack → IMFTrack} (keeps : KeepsUUID reread)
    (tracks : List IMFTrack) : (tracks.map reread).map IMFTrack.uuid = tracks.map IMFTrack.uuid := by
  rw [List.map_map]
  exact List.map_congr_left fun track _ => keeps track

namespace CPLResource

variable (resource : CPLResource)

theorem getStringD_tree_keyId : resource.tree.getStringD ["KeyId"] "" = resource.keyId := by
  rw [tree, getStringD_putNonempty_of_ne (by decide)]
  exact getStringD_putNonempty_self _ _ _ (by simp)

theorem getStringD_tree_hash : resource.tree.getStringD ["Hash"] "" = resource.hash :=
  getStringD_putNonempty_self _ _ _ (by simp)

theorem load_tree {reread : IMFTrack → IMFTrack} (keeps : KeepsUUID reread)
    {tracks : List IMFTrack} (distinct : (tracks.map IMFTrack.uuid).Nodup)
    (known : resource.track ∈ tracks) :
    load resource.tree resource.playlistEditRate.asIMFString (tracks.map reread) =
      .ok (resource.mapTrack reread) := by
  have id : getString ["Id"] resource.tree = .ok (uuidStr resource.uuid) :=
    getString_of_text (by simp [tree])
  have intrinsicDuration : getInt ["IntrinsicDuration"] resource.tree =
      .ok resource.track.duration := getInt_of_text (by simp [tree])
  have sourceEncoding : getString ["SourceEncoding"] resource.tree =
      .ok (uuidStr resource.track.essenceDescriptor.uuid) := getString_of_text (by simp [tree])
  have trackFileId : getString ["TrackFileId"] resource.tree =
      .ok (uuidStr resource.track.uuid) := getString_of_text (by simp [tree])
  have entryPoint (fallback : Int32) : resource.tree.getIntD ["EntryPoint"] fallback =
      resource.entryPoint := PTree.getIntD_of_text fallback (by simp [tree])
  have sourceDuration (fallback : Int32) : resource.tree.getIntD ["SourceDuration"] fallback =
      resource.sourceDuration := PTree.getIntD_of_text fallback (by simp [tree])
  have repeatCount (fallback : Int32) : resource.tree.getIntD ["RepeatCount"] fallback =
      resource.repeatCount := PTree.getIntD_of_text fallback (by simp [tree])
  have editRate (fallback : String) : resource.tree.getStringD ["EditRate"] fallback =
      resource.track.editRate.asIMFString := by
    rw [PTree.getStringD_eq]
    simp [tree]
  have found : KeyedList.find IMFTrack.uuid resource.track.uuid (tracks.map reread) =
      some (reread resource.track) := by
    rw [← keeps resource.track]
    refine KeyedList.find_of_nodup IMFTrack.uuid ?_ (List.mem_map_of_mem known)
    rwa [keeps.map_uuid]
  simp [load, id, intrinsicDuration, sourceEncoding, trackFileId, entryPoint, sourceDuration,
    repeatCount, editRate, getStringD_tree_keyId, getStringD_tree_hash, found,
    RationalNumber.fromIMFString_asIMFString, mapTrack]

end CPLResource

section Read

variable {reread : IMFTrack → IMFTrack} (keeps : KeepsUUID reread) {tracks : List IMFTrack}
  (distinct : (tracks.map IMFTrack.uuid).Nodup) (editRate : RationalNumber)

/-- A resource that is found again when it is read with these tracks and this edit rate. -/
def Readable (tracks : List IMFTrack) (editRate : RationalNumber) (resource : CPLResource) : Prop :=
  resource.track ∈ tracks ∧ resource.playlistEditRate = editRate

include keeps distinct

theorem readResources_written {items : List CPLResource}
    (readable : ∀ resource ∈ items, Readable tracks editRate resource) :
    readResources (tracks.map reread) editRate.asIMFString
      (items.map fun resource => ("Resource", resource.tree)) =
        .ok (items.map (CPLResource.mapTrack reread)) := by
  induction items with
  | nil => rfl
  | cons resource rest ih =>
      have others := ih fun other member => readable other (List.mem_cons_of_mem _ member)
      obtain ⟨known, sameRate⟩ := readable resource List.mem_cons_self
      have type : getString ["<xmlattr>", "xsi:type"] resource.tree = .ok "TrackFileResourceType" :=
        getString_of_text (by simp [CPLResource.tree])
      have loaded := resource.load_tree keeps distinct known
      rw [sameRate] at loaded
      rw [List.map_cons, readResources, if_pos rfl, type, ok_bind,
        if_pos IMFCompositionPlaylist.isTrackFileResource_self, loaded]
      simp [others]

theorem readSequence_written {sequence : CPLSequence}
    (readable : ∀ resource ∈ sequence.items, Readable tracks editRate resource) :
    readSequence (tracks.map reread) editRate.asIMFString sequence.tree =
      .ok (sequence.mapTracks reread) := by
  have id : getString ["Id"] sequence.tree = .ok (uuidStr sequence.uuid) :=
    getString_of_text (by simp [CPLSequence.tree])
  have trackId : getString ["TrackId"] sequence.tree = .ok (uuidStr sequence.virtualTrackId) :=
    getString_of_text (by simp [CPLSequence.tree])
  have resourceList : getChild ["ResourceList"] sequence.tree =
      .ok (.node "" (sequence.items.map fun resource => ("Resource", resource.tree))) :=
    getChild_of_some sequence.getChild?_tree
  simp [readSequence, id, trackId, resourceList,
    readResources_written keeps distinct editRate readable, CPLSequence.mapTracks]

theorem readSequences_written {sequences : List CPLSequence}
    (readable : ∀ sequence ∈ sequences, ∀ resource ∈ sequence.items,
      Readable tracks editRate resource) :
    readSequences (tracks.map reread) editRate.asIMFString (sequences.flatMap CPLSequence.nodes) =
      .ok ((sequences.filter fun sequence => !sequence.items.isEmpty).map
        (CPLSequence.mapTracks reread)) := by
  induction sequences with
  | nil => rfl
  | cons sequence rest ih =>
      have others := ih fun other member => readable other (List.mem_cons_of_mem _ member)
      have own := readSequence_written keeps distinct editRate (readable sequence List.mem_cons_self)
      rw [List.flatMap_cons]
      by_cases empty : sequence.items = []
      · simp [CPLSequence.nodes, empty, others]
      · obtain ⟨key, node⟩ := CPLSequence.nodes_of_ne_nil empty
        have kept : (!sequence.items.isEmpty) = true := by simpa using empty
        simp [node, readSequences, own, others, kept]

def SegmentValue.filled (segment : SegmentValue) : SegmentValue :=
  ⟨segment.uuid, segment.sequences.filter fun sequence => !sequence.items.isEmpty⟩

theorem readSegment_written {segment : SegmentValue}
    (readable : ∀ sequence ∈ segment.sequences, ∀ resource ∈ sequence.items,
      Readable tracks editRate resource) :
    readSegment (tracks.map reread) editRate.asIMFString segment.node.2 =
      .ok (segment.filled.mapTracks reread) := by
  have id : getString ["Id"] segment.node.2 = .ok (uuidStr segment.uuid) :=
    getString_of_text (by simp [SegmentValue.node])
  have sequenceList : getChild ["SequenceList"] segment.node.2 =
      .ok (.node "" (segment.sequences.flatMap CPLSequence.nodes)) := by
    refine getChild_of_some ?_
    exact PTree.getChild?_addChild_self [] _ _ (by simp)
  simp [readSegment, id, sequenceList, readSequences_written keeps distinct editRate readable,
    SegmentValue.filled, SegmentValue.mapTracks]

theorem readSegments_written {segments : List SegmentValue}
    (readable : ∀ segment ∈ segments, ∀ sequence ∈ segment.sequences,
      ∀ resource ∈ sequence.items, Readable tracks editRate resource) :
    readSegments (tracks.map reread) editRate.asIMFString (segments.map SegmentValue.node) =
      .ok ((segments.map SegmentValue.filled).map (SegmentValue.mapTracks reread)) := by
  induction segments with
  | nil => rfl
  | cons segment rest ih =>
      have others := ih fun other member => readable other (List.mem_cons_of_mem _ member)
      have own := readSegment_written keeps distinct editRate (readable segment List.mem_cons_self)
      rw [List.map_cons, List.map_cons, List.map_cons]
      simp [readSegments, own, others]

end Read

namespace IMFCompositionPlaylist

variable {playlist : IMFCompositionPlaylist}

theorem write_eq_ok {tree : PTree} (written : playlist.write = .ok tree) :
    ∃ root, tree = PTree.empty.addChild "CompositionPlaylist" root ∧
      root.text? ["Id"] = some (uuidStr playlist.uuid) ∧
      root.text? ["EditRate"] = some playlist.editRate.asIMFString ∧
      XMLHeaderCompositionPlaylist.read root = .ok playlist.header ∧
      root.getChild? ["SegmentList"] =
        some (.node "" (playlist.timeline.map SegmentValue.node)) := by
  unfold write at written
  obtain ⟨essenceDescriptorList, -, rest⟩ := bind_eq_ok.mp written
  obtain ⟨segmentList, segments, last⟩ := bind_eq_ok.mp rest
  have list := playlist.writeSegments_eq_ok playlist.segments segments
  refine ⟨_, (Except.ok.inj last).symm, ?_, ?_, ?_, ?_⟩
  · by_cases empty : playlist.resources.isEmpty <;>
      simp [empty, XMLHeaderCompositionPlaylist.write]
  · simp
  · rw [← playlist.header.read_write (PTree.empty
      |>.put ["<xmlattr>", "xmlns"] "http://www.smpte-ra.org/schemas/2067-3/2013"
      |>.put ["<xmlattr>", "xmlns:xsi"] "http://www.w3.org/2001/XMLSchema-instance"
      |>.put ["<xmlattr>", "xmlns:imf"] "http://www.smpte-ra.org/schemas/2067-2/2013"
      |>.put ["Id"] (uuidStr playlist.uuid)) (by simp [XMLHeaderCompositionPlaylist.keys])]
    refine XMLHeaderCompositionPlaylist.read_congr ?_
    by_cases empty : playlist.resources.isEmpty <;>
      simp [empty, XMLHeaderCompositionPlaylist.keys]
  · rw [PTree.getChild?_addChild_self, list]
    · rfl
    · by_cases empty : playlist.resources.isEmpty <;>
        simp [empty, XMLHeaderCompositionPlaylist.write]

/-- All resources of a playlist refer to tracks of the package and carry its edit rate. -/
def Resolved (playlist : IMFCompositionPlaylist) (tracks : List IMFTrack) : Prop :=
  ∀ address ∈ playlist.sequences, ∀ resource ∈ (playlist.sequence address).items,
    resource.track ∈ tracks ∧ resource.playlistEditRate = playlist.editRate

theorem readPlaylist_written {reread : IMFTrack → IMFTrack} (keeps : KeepsUUID reread)
    {tracks : List IMFTrack} {tree : PTree} (written : playlist.write = .ok tree)
    (distinct : (tracks.map IMFTrack.uuid).Nodup) (resolved : playlist.Resolved tracks) :
    readPlaylist tree (tracks.map reread) = .ok ⟨playlist.uuid, playlist.header, playlist.editRate,
      (playlist.timeline.map SegmentValue.filled).map (SegmentValue.mapTracks reread)⟩ := by
  obtain ⟨root, rfl, id, editRate, header, segmentList⟩ := write_eq_ok written
  have descend (path : List String) :
      (PTree.empty.addChild "CompositionPlaylist" root).getChild? ("CompositionPlaylist" :: path) =
        root.getChild? path := PTree.getChild?_addChild_self path root _ rfl
  have readId : getString ["CompositionPlaylist", "Id"]
      (PTree.empty.addChild "CompositionPlaylist" root) = .ok (uuidStr playlist.uuid) :=
    getString_of_text (by simpa [PTree.text?, descend] using id)
  have readRoot : getChild ["CompositionPlaylist"]
      (PTree.empty.addChild "CompositionPlaylist" root) = .ok root :=
    getChild_of_some (descend [])
  have readEditRate : getString ["CompositionPlaylist", "EditRate"]
      (PTree.empty.addChild "CompositionPlaylist" root) = .ok playlist.editRate.asIMFString :=
    getString_of_text (by simpa [PTree.text?, descend] using editRate)
  have readSegmentList : getChild ["CompositionPlaylist", "SegmentList"]
      (PTree.empty.addChild "CompositionPlaylist" root) =
      .ok (.node "" (playlist.timeline.map SegmentValue.node)) :=
    getChild_of_some ((descend _).trans segmentList)
  have readable : ∀ segment ∈ playlist.timeline, ∀ sequence ∈ segment.sequences,
      ∀ resource ∈ sequence.items, Readable tracks playlist.editRate resource := by
    intro segment member sequence inside
    obtain ⟨address, listed, rfl⟩ := List.mem_map.mp member
    obtain ⟨item, itemInside, rfl⟩ := List.mem_map.mp inside
    exact resolved item (mem_sequences_of_mem listed itemInside)
  simp [readPlaylist, readId, readRoot, header, readEditRate, readSegmentList,
    RationalNumber.fromIMFString_asIMFString,
    readSegments_written keeps distinct playlist.editRate readable]

theorem timeline_filled
    (nonempty : ∀ address ∈ playlist.sequences, (playlist.sequence address).items ≠ []) :
    playlist.timeline.map SegmentValue.filled = playlist.timeline := by
  have kept : ∀ segment ∈ playlist.timeline, segment.filled = id segment := by
    intro segment member
    obtain ⟨address, listed, rfl⟩ := List.mem_map.mp member
    have all : ∀ sequence ∈ (playlist.segmentValue address).sequences,
        (!sequence.items.isEmpty) = true := by
      intro sequence inside
      obtain ⟨item, itemInside, rfl⟩ := List.mem_map.mp inside
      simpa using nonempty item (mem_sequences_of_mem listed itemInside)
    rw [SegmentValue.filled, List.filter_eq_self.mpr all]
    rfl
  rw [List.map_congr_left kept, List.map_id]

/-- The tracks are those of the reader, which may have read the files once more. -/
theorem load_of_write_reread (path : String) {reread : IMFTrack → IMFTrack}
    (keeps : KeepsUUID reread) {tracks : List IMFTrack} {tree : PTree}
    (written : playlist.write = .ok tree) (distinct : (tracks.map IMFTrack.uuid).Nodup)
    (resolved : playlist.Resolved tracks) :
    ∃ loaded, load path tree (tracks.map reread) = .ok loaded ∧ loaded.uuid = playlist.uuid ∧
      loaded.editRate = playlist.editRate ∧ loaded.header = playlist.header ∧
      loaded.timeline =
        (playlist.timeline.map SegmentValue.filled).map (SegmentValue.mapTracks reread) := by
  obtain ⟨-, timeline, details⟩ := build_spec path ⟨playlist.uuid, playlist.header,
    playlist.editRate,
    (playlist.timeline.map SegmentValue.filled).map (SegmentValue.mapTracks reread)⟩
  simp only [IMFCompositionPlaylist.details, Prod.mk.injEq] at details
  obtain ⟨uuid, -, editRate, header⟩ := details
  refine ⟨_, ?_, uuid, editRate, header, timeline⟩
  rw [load_eq, readPlaylist_written keeps written distinct resolved, map_ok]

theorem load_of_write (path : String) {tracks : List IMFTrack} {tree : PTree}
    (written : playlist.write = .ok tree) (distinct : (tracks.map IMFTrack.uuid).Nodup)
    (resolved : playlist.Resolved tracks) :
    ∃ loaded, load path tree tracks = .ok loaded ∧ loaded.uuid = playlist.uuid ∧
      loaded.editRate = playlist.editRate ∧ loaded.header = playlist.header ∧
      loaded.timeline = playlist.timeline.map SegmentValue.filled := by
  have keeps : KeepsUUID id := fun _ => rfl
  have read := load_of_write_reread path keeps written distinct resolved
  rwa [List.map_id, SegmentValue.mapTracks_id, List.map_id] at read

/-- A written playlist is loaded again as it was. -/
theorem load_written (path : String) {tracks : List IMFTrack} {tree : PTree}
    (written : playlist.write = .ok tree)
    (nonempty : ∀ address ∈ playlist.sequences, (playlist.sequence address).items ≠ [])
    (distinct : (tracks.map IMFTrack.uuid).Nodup) (resolved : playlist.Resolved tracks) :
    ∃ loaded, load path tree tracks = .ok loaded ∧ loaded.uuid = playlist.uuid ∧
      loaded.editRate = playlist.editRate ∧ loaded.header = playlist.header ∧
      loaded.timeline = playlist.timeline := by
  have read := load_of_write path written distinct resolved
  rwa [timeline_filled nonempty] at read

def sample : IMFCompositionPlaylist :=
  build "cpl.xml"
    { uuid := "cpl"
      header := .standard
      editRate := ⟨25, 1⟩
      segments := [⟨"segment", [
        ⟨"image", "v1", [standardResource "first" Sample.video ⟨25, 1⟩,
          standardResource "second" Sample.video ⟨25, 1⟩]⟩,
        ⟨"sound", "a1", [standardResource "third" Sample.audio ⟨25, 1⟩]⟩]⟩] }

theorem load_written_sample : ∃ tree, sample.write = .ok tree ∧
    ∃ loaded, load "cpl.xml" tree [Sample.audio, Sample.video] = .ok loaded ∧
      loaded.uuid = "cpl" ∧ loaded.editRate = ⟨25, 1⟩ ∧ loaded.header = .standard ∧
      loaded.timeline = sample.timeline := by
  have written : ∃ tree, sample.write = .ok tree := ⟨_, rfl⟩
  obtain ⟨tree, written⟩ := written
  have nonempty : ∀ address ∈ sample.sequences, (sample.sequence address).items ≠ [] := by decide
  have resolved : sample.Resolved [Sample.audio, Sample.video] := by
    unfold Resolved
    decide
  exact ⟨tree, written, load_written "cpl.xml" written nonempty (by decide) resolved⟩

end IMFCompositionPlaylist

end Imflib.Package
