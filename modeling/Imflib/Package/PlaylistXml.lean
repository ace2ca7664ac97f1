import Imflib.Package.Playlist

/-! Writing a composition playlist as a tree, and loading one from a tree. -/

namespace Imflib.Package

namespace CPLResource

def tree (resource : CPLResource) : PTree :=
  let node := PTree.empty
    |>.put ["<xmlattr>", "xsi:type"] "TrackFileResourceType"
    |>.put ["Id"] (uuidStr resource.uuid)
    |>.put ["Annotation"] ""
    |>.put ["EditRate"] resource.track.editRate.asIMFString
    |>.putInt ["IntrinsicDuration"] resource.track.duration.toInt
    |>.putInt ["EntryPoint"] resource.entryPoint.toInt
    |>.putInt ["SourceDuration"] resource.sourceDuration.toInt
    |>.putInt ["RepeatCount"] resource.repeatCount.toInt
    |>.put ["SourceEncoding"] (uuidStr resource.track.essenceDescriptor.uuid)
    |>.put ["TrackFileId"] (uuidStr resource.track.uuid)
  putNonempty "Hash" resource.hash (putNonempty "KeyId" resource.keyId node)

def write (resource : CPLResource) (pt : PTree) : PTree := pt.addChild "Resource" resource.tree

def load (pt : PTree) (cplEditRate : String) (tracks : List IMFTrack) : Except Exn CPLResource := do
  let resourceId ← getString ["Id"] pt
  let intrinsicDuration ← getInt ["IntrinsicDuration"] pt
  let entryPoint := pt.getIntD ["EntryPoint"] 0
  let sourceDuration := pt.getIntD ["SourceDuration"] (intrinsicDuration - entryPoint)
  let repeatCount := pt.getIntD ["RepeatCount"] 1
  -- The resource's own edit rate is parsed, but only the track's is used.
  let _ ← RationalNumber.fromIMFString (pt.getStringD ["EditRate"] cplEditRate)
  let _ ← getString ["SourceEncoding"] pt
  let trackFileId ← getString ["TrackFileId"] pt
  let keyId := pt.getStringD ["KeyId"] ""
  let hash := pt.getStringD ["Hash"] ""
  match KeyedList.find IMFTrack.uuid (uuidClean trackFileId) tracks with
  | none => .error (.invalidReferenceException
      "Track referenced in CPL which is not defined in ASSETMAP")
  | some track => do
      let playlistEditRate ← RationalNumber.fromIMFString cplEditRate
      pure
        { uuid := uuidClean resourceId
          track := track
          repeatCount := repeatCount
          entryPoint := entryPoint
          sourceDuration := sourceDuration
          keyId := keyId
          hash := hash
          playlistEditRate := playlistEditRate }

end CPLResource

namespace CPLSequence

def allAudio (sequence : CPLSequence) : Bool :=
  sequence.items.all fun resource => resource.track.type != .video

def allVideo (sequence : CPLSequence) : Bool :=
  sequence.items.all fun resource => resource.track.type != .audio

def tree (sequence : CPLSequence) : PTree :=
  let resourceList := sequence.items.foldl (fun tree resource => resource.write tree) PTree.empty
  PTree.empty
    |>.put ["Id"] (uuidStr sequence.uuid)
    |>.put ["TrackId"] (uuidStr sequence.virtualTrackId)
    |>.addChild "ResourceList" resourceList

def write (sequence : CPLSequence) (pt : PTree) : Except Exn PTree :=
  if sequence.allAudio = false ∧ sequence.allVideo = false then
    .error (.compositionPlaylistException
      "Each Resource in Sequence (Virtual Track) must be of same type")
  else if sequence.items ≠ [] ∧ sequence.allAudio then
    .ok (pt.addChild "imf:MainAudioSequence" sequence.tree)
  else if sequence.items ≠ [] ∧ sequence.allVideo then
    .ok (pt.addChild "imf:MainImageSequence" sequence.tree)
  else .ok pt

theorem getChild?_tree (sequence : CPLSequence) :
    sequence.tree.getChild? ["ResourceList"] =
      some (.node "" (sequence.items.map fun resource => ("Resource", resource.tree))) := by
  have list := PTree.foldl_addChild (fun _ => "Resource") CPLResource.tree sequence.items .empty
  refine (PTree.getChild?_addChild_self [] _ _ (by simp)).trans (congrArg some ?_)
  exact list

theorem allAudio_eq_false {sequence : CPLSequence} :
    sequence.allAudio = false ↔ ∃ resource ∈ sequence.items, resource.track.type = .video := by
  simp [allAudio]

theorem allVideo_eq_false {sequence : CPLSequence} :
    sequence.allVideo = false ↔ ∃ resource ∈ sequence.items, resource.track.type = .audio := by
  simp [allVideo]

theorem homogeneous_iff {sequence : CPLSequence} :
    sequence.Homogeneous ↔ ¬ (sequence.allAudio = false ∧ sequence.allVideo = false) := by
  rw [allAudio_eq_false, allVideo_eq_false]
  constructor
  · rintro ⟨type, same⟩ ⟨⟨first, firstMember, video⟩, ⟨second, secondMember, audio⟩⟩
    have clash := (same first firstMember).trans (same second secondMember).symm
    rw [video, audio] at clash
    cases clash
  · intro notBoth
    by_cases video : ∃ resource ∈ sequence.items, resource.track.type = .video
    · refine ⟨.video, fun resource member => ?_⟩
      cases type : resource.track.type with
      | video => rfl
      | audio => exact absurd ⟨video, resource, member, type⟩ notBoth
    · refine ⟨.audio, fun resource member => ?_⟩
      cases type : resource.track.type with
      | video => exact absurd ⟨resource, member, type⟩ video
      | audio => rfl

def nodes (sequence : CPLSequence) : List (String × PTree) :=
  if sequence.items = [] then []
  else if sequence.allAudio then [("imf:MainAudioSequence", sequence.tree)]
  else [("imf:MainImageSequence", sequence.tree)]

theorem nodes_of_ne_nil {sequence : CPLSequence} (nonempty : sequence.items ≠ []) :
    ∃ key, sequence.nodes = [(key, sequence.tree)] := by
  unfold nodes
  rw [if_neg nonempty]
  split
  · exact ⟨_, rfl⟩
  · exact ⟨_, rfl⟩

theorem write_of_homogeneous {sequence : CPLSequence} (homogeneous : sequence.Homogeneous)
    (pt : PTree) : sequence.write pt = .ok (.node pt.data (pt.children ++ sequence.nodes)) := by
  have oneType := homogeneous_iff.mp homogeneous
  rw [write, if_neg oneType, nodes]
  by_cases empty : sequence.items = []
  · cases pt
    simp [empty]
  · by_cases audio : sequence.allAudio = true
    · simp [empty, audio, PTree.addChild]
    · have video : sequence.allVideo = true := by
        by_contra notVideo
        exact oneType ⟨Bool.eq_false_iff.mpr audio, Bool.eq_false_iff.mpr notVideo⟩
      simp [empty, audio, video, PTree.addChild]

theorem write_of_not_homogeneous {sequence : CPLSequence} (mixed : ¬ sequence.Homogeneous)
    (pt : PTree) : sequence.write pt = .error (.compositionPlaylistException
      "Each Resource in Sequence (Virtual Track) must be of same type") := by
  rw [write, if_pos (not_not.mp fun oneType => mixed (homogeneous_iff.mpr oneType))]

theorem write_eq_ok {sequence : CPLSequence} {pt result : PTree}
    (written : sequence.write pt = .ok result) :
    sequence.Homogeneous ∧ result = .node pt.data (pt.children ++ sequence.nodes) := by
  by_cases homogeneous : sequence.Homogeneous
  · rw [write_of_homogeneous homogeneous] at written
    exact ⟨homogeneous, (Except.ok.inj written).symm⟩
  · rw [write_of_not_homogeneous homogeneous] at written
    cases written

end CPLSequence

/-- The node of a segment. Sequences without resources are left out. -/
def SegmentValue.node (segment : SegmentValue) : String × PTree :=
  ("Segment", PTree.empty
    |>.put ["Id"] (uuidStr segment.uuid)
    |>.addChild "SequenceList" (.node "" (segment.sequences.flatMap CPLSequence.nodes)))

namespace IMFCompositionPlaylist

variable (playlist : IMFCompositionPlaylist)

def writeSequence (pt : PTree) (address : Nat) : Except Exn PTree :=
  (playlist.sequence address).write pt

/-- `CPLSegment::Write` -/
def writeSegment (pt : PTree) (address : Nat) : Except Exn PTree := do
  let segment := playlist.segment address
  let sequenceList ← segment.items.foldlM playlist.writeSequence PTree.empty
  pure (pt.addChild "Segment" (PTree.empty
    |>.put ["Id"] (uuidStr segment.uuid)
    |>.addChild "SequenceList" sequenceList))

theorem writeSequences_eq_ok (addresses : List Nat) {pt result : PTree}
    (written : addresses.foldlM playlist.writeSequence pt = .ok result) :
    result = .node pt.data
      (pt.children ++ (addresses.map playlist.sequence).flatMap CPLSequence.nodes) := by
  induction addresses generalizing pt with
  | nil =>
      cases written
      cases result
      simp
  | cons address rest ih =>
      rw [List.foldlM_cons] at written
      obtain ⟨middle, first, others⟩ := bind_eq_ok.mp written
      obtain ⟨-, same⟩ := CPLSequence.write_eq_ok first
      rw [ih others, same]
      simp

theorem writeSegment_eq_ok {address : Nat} {pt result : PTree}
    (written : playlist.writeSegment pt address = .ok result) :
    result = .node pt.data (pt.children ++ [(playlist.segmentValue address).node]) := by
  unfold writeSegment at written
  obtain ⟨sequenceList, sequences, rest⟩ := bind_eq_ok.mp written
  rw [← Except.ok.inj rest, playlist.writeSequences_eq_ok _ sequences]
  rfl

theorem writeSegments_eq_ok (addresses : List Nat) {pt result : PTree}
    (written : addresses.foldlM playlist.writeSegment pt = .ok result) :
    result = .node pt.data
      (pt.children ++ (addresses.map playlist.segmentValue).map SegmentValue.node) := by
  induction addresses generalizing pt with
  | nil =>
      cases written
      cases result
      simp
  | cons address rest ih =>
      rw [List.foldlM_cons] at written
      obtain ⟨middle, first, others⟩ := bind_eq_ok.mp written
      rw [ih others, playlist.writeSegment_eq_ok first]
      simp

def resources : List CPLResource :=
  playlist.sequences.flatMap fun address => (playlist.sequence address).items

/-- The tree that `IMFCompositionPlaylist::Write` gives to the XML writer. -/
def write : Except Exn PTree := do
  let rootNode := PTree.empty
    |>.put ["<xmlattr>", "xmlns"] "http://www.smpte-ra.org/schemas/2067-3/2013"
    |>.put ["<xmlattr>", "xmlns:xsi"] "http://www.w3.org/2001/XMLSchema-instance"
    |>.put ["<xmlattr>", "xmlns:imf"] "http://www.smpte-ra.org/schemas/2067-2/2013"
    |>.put ["Id"] (uuidStr playlist.uuid)
  let rootNode := playlist.header.write rootNode
  let essenceDescriptorList := PTree.empty
    |>.put ["<xmlattr>", "xmlns:r0"] "http://www.smpte-ra.org/reg/395/2014/13/1/aaf"
    |>.put ["<xmlattr>", "xmlns:r1"] "http://www.smpte-ra.org/reg/335/2012"
    |>.put ["<xmlattr>", "xmlns:r2"] "http://www.smpte-ra.org/reg/2003/2012"
  let essenceDescriptorList ← playlist.resources.foldlM
    (fun pt resource => resource.track.essenceDescriptor.write pt) essenceDescriptorList
  let rootNode :=
    if playlist.resources.isEmpty then rootNode
    else rootNode.addChild "EssenceDescriptorList" essenceDescriptorList
  let rootNode := rootNode.put ["EditRate"] playlist.editRate.asIMFString
  let extensionProperties := PTree.empty
    |>.put ["imf:ApplicationIdentification"] "http://www.smpte-ra.org/schemas/2067-21/2016"
  let rootNode := rootNode.addChild "ExtensionProperties" extensionProperties
  let segmentList ← playlist.segments.foldlM playlist.writeSegment PTree.empty
  pure (PTree.empty.addChild "CompositionPlaylist" (rootNode.addChild "SegmentList" segmentList))

/-- With sequences of one type each, only a malformed essence descriptor stops the writer. -/
theorem write_eq_error
    (homogeneous : ∀ address ∈ playlist.sequences, (playlist.sequence address).Homogeneous)
    {error : Exn} (failed : playlist.write = .error error) : error = .badLexicalCast := by
  have segments : ∀ segment ∈ playlist.segments, ∀ (pt : PTree) (error : Exn),
      playlist.writeSegment pt segment = .error error → error = .badLexicalCast := by
    intro segment member pt error failed
    rcases bind_eq_error.mp failed with sequences | ⟨sequenceList, -, last⟩
    · refine foldlM_eq_error (fun sequence inside state error failed => ?_) sequences
      have oneType := homogeneous sequence (List.mem_flatMap.mpr ⟨segment, member, inside⟩)
      rw [writeSequence, CPLSequence.write_of_homogeneous oneType] at failed
      cases failed
    · cases last
  rcases bind_eq_error.mp failed with descriptors | ⟨essenceDescriptorList, -, failed⟩
  · exact foldlM_eq_error (fun _ _ _ _ failed => IMFEssenceDescriptor.write_eq_error failed)
      descriptors
  · rcases bind_eq_error.mp failed with list | ⟨segmentList, -, last⟩
    · exact foldlM_eq_error segments list
    · cases last

section Load

variable (tracks : List IMFTrack) (cplEditRate : String)

/-- `resourceType.find("TrackFileResourceType")` -/
def isTrackFileResource (resourceType : String) : Bool :=
  Text.contains "TrackFileResourceType".toList resourceType.toList

omit tracks cplEditRate in
theorem isTrackFileResource_self : isTrackFileResource "TrackFileResourceType" = true := by decide

/-- Only track file resources are loaded, whatever else a resource list holds. -/
def loadResources (sequence : Nat) :
    IMFCompositionPlaylist → List (String × PTree) → Except Exn IMFCompositionPlaylist
  | playlist, [] => .ok playlist
  | playlist, (key, node) :: rest =>
      if key = "Resource" then do
        let resourceType ← getString ["<xmlattr>", "xsi:type"] node
        if isTrackFileResource resourceType then
          match CPLResource.load node cplEditRate tracks with
          | .ok resource => loadResources sequence (playlist.appendToSequence sequence resource) rest
          | .error (.invalidReferenceException what) => .error (.compositionPlaylistException what)
          | .error error => .error error
        else loadResources sequence playlist rest
      else loadResources sequence playlist rest

/-- The virtual track with an identifier, made if the playlist has none. -/
def virtualTrackFor (playlist : IMFCompositionPlaylist) (virtualTrackId : String) :
    IMFCompositionPlaylist × Nat :=
  playlist.orNewVirtualTrack (playlist.findVirtualTrackById virtualTrackId) virtualTrackId

def loadSequence (segment : Nat) (playlist : IMFCompositionPlaylist) (node : PTree) :
    Except Exn IMFCompositionPlaylist := do
  let sequenceId ← getString ["Id"] node
  let trackId ← getString ["TrackId"] node
  let virtualTrackId := uuidClean trackId
  let made := playlist.newSequence ⟨uuidClean sequenceId, "", []⟩
  let playlist := made.1.setVirtualTrackId made.2 virtualTrackId
  let playlist := playlist.appendToSegment segment made.2
  let found := playlist.virtualTrackFor virtualTrackId
  let playlist := found.1.appendToVirtualTrack found.2 made.2
  let resourceList ← getChild ["ResourceList"] node
  loadResources tracks cplEditRate made.2 playlist resourceList.children

def loadSequences (segment : Nat) :
    IMFCompositionPlaylist → List (String × PTree) → Except Exn IMFCompositionPlaylist
  | playlist, [] => .ok playlist
  | playlist, (_, node) :: rest => do
      let playlist ← loadSequence tracks cplEditRate segment playlist node
      loadSequences segment playlist rest

def loadSegment (playlist : IMFCompositionPlaylist) (node : PTree) :
    Except Exn IMFCompositionPlaylist := do
  let segmentUUID ← getString ["Id"] node
  let made := playlist.newSegment ⟨uuidClean segmentUUID, []⟩
  let playlist := made.1.addSegment made.2
  let sequenceList ← getChild ["SequenceList"] node
  loadSequences tracks cplEditRate made.2 playlist sequenceList.children

def loadSegments :
    IMFCompositionPlaylist → List (String × PTree) → Except Exn IMFCompositionPlaylist
  | playlist, [] => .ok playlist
  | playlist, (_, node) :: rest => do
      let playlist ← loadSegment tracks cplEditRate playlist node
      loadSegments playlist rest

end Load

/-- `IMFCompositionPlaylist::Load` -/
def load (path : String) (pt : PTree) (tracks : List IMFTrack) :
    Except Exn IMFCompositionPlaylist := do
  let cplUUID ← getString ["CompositionPlaylist", "Id"] pt
  let headerNode ← getChild ["CompositionPlaylist"] pt
  let header ← XMLHeaderCompositionPlaylist.read headerNode
  let cplEditRate ← getString ["CompositionPlaylist", "EditRate"] pt
  let editRate ← RationalNumber.fromIMFString cplEditRate
  let playlist := { new (uuidClean cplUUID) path with header := header, editRate := editRate }
  let segmentList ← getChild ["CompositionPlaylist", "SegmentList"] pt
  loadSegments tracks cplEditRate playlist segmentList.children

end IMFCompositionPlaylist

end Imflib.Package
