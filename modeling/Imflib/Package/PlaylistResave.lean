import Imflib.Package.PlaylistRoundTrip

/-! What a composition playlist keeps when it is loaded and saved again, on the trees that are
read and written. -/

namespace Imflib.Package

/-- What a tree says of a resource: the texts of its numbers and of its annotation as they stand, and
the others with the defaults for what it leaves out. -/
structure ResourceContent where
  id : String
  annotation : Option String
  editRate : String
  intrinsicDuration : Option String
  entryPoint : Option String
  sourceDuration : Option String
  repeatCount : Option String
  sourceEncoding : String
  trackFileId : String
  keyId : String
  hash : String
  deriving DecidableEq, Repr

structure SequenceContent where
  id : String
  trackId : String
  resources : List ResourceContent
  deriving DecidableEq, Repr

structure SegmentContent where
  id : String
  annotation : Option String
  sequences : List SequenceContent
  deriving DecidableEq, Repr

section Contents

def nodesAt (path : List String) (tree : PTree) : List (String × PTree) :=
  match tree.getChild? path with
  | some child => child.children
  | none => []

theorem nodesAt_of_getChild {path : List String} {tree child : PTree}
    (read : getChild path tree = .ok child) : nodesAt path tree = child.children := by
  rw [nodesAt, some_of_getChild read]

def isTrackFileNode (node : PTree) : Bool :=
  match node.text? ["<xmlattr>", "xsi:type"] with
  | some resourceType => IMFCompositionPlaylist.isTrackFileResource resourceType
  | none => false

def resourceContent (cplEditRate : String) (node : PTree) : ResourceContent :=
  { id := node.getStringD ["Id"] ""
    annotation := node.text? ["Annotation"]
    editRate := node.getStringD ["EditRate"] cplEditRate
    intrinsicDuration := node.text? ["IntrinsicDuration"]
    entryPoint := node.text? ["EntryPoint"]
    sourceDuration := node.text? ["SourceDuration"]
    repeatCount := node.text? ["RepeatCount"]
    sourceEncoding := node.getStringD ["SourceEncoding"] ""
    trackFileId := node.getStringD ["TrackFileId"] ""
    keyId := node.getStringD ["KeyId"] ""
    hash := node.getStringD ["Hash"] "" }

variable (select : PTree → Bool) (cplEditRate : String)

def resourceContents (nodes : List (String × PTree)) : List ResourceContent :=
  (nodes.filter fun entry => entry.1 = "Resource" && select entry.2).map fun entry =>
    resourceContent cplEditRate entry.2

def sequenceContent (node : PTree) : SequenceContent :=
  { id := node.getStringD ["Id"] ""
    trackId := node.getStringD ["TrackId"] ""
    resources := resourceContents select cplEditRate (nodesAt ["ResourceList"] node) }

def segmentContent (node : PTree) : SegmentContent :=
  { id := node.getStringD ["Id"] ""
    annotation := node.text? ["Annotation"]
    sequences := (nodesAt ["SequenceList"] node).map fun entry =>
      sequenceContent select cplEditRate entry.2 }

/-- The segment list of a composition playlist, with the resources that are selected. -/
def contents (pt : PTree) : List SegmentContent :=
  (nodesAt ["CompositionPlaylist", "SegmentList"] pt).map fun entry =>
    segmentContent select (pt.getStringD ["CompositionPlaylist", "EditRate"] "") entry.2

end Contents

def normalId (id : String) : String := uuidStr (uuidClean id)

/-- The number that a text stands for. A missing text, or one that is no `int`, stands for the
default. -/
def intOr (default : Int32) (text : Option String) : Int32 :=
  (text.bind fun text => Text.readInt32 (Text.trim text.toList)).getD default

def writtenNumber (value : Int32) : Option String := some (String.ofList (Text.decimal value.toInt))

theorem getIntD_eq_intOr (node : PTree) (path : List String) (default : Int32) :
    node.getIntD path default = intOr default (node.text? path) :=
  PTree.getIntD_eq path default node

/-- Edit rate and duration are the track's when a resource is saved, whatever was read. The other
numbers are written anew, and the annotation is written empty. -/
def ResourceContent.saved (tracks : List IMFTrack) (content : ResourceContent) : ResourceContent :=
  match KeyedList.find IMFTrack.uuid (uuidClean content.trackFileId) tracks with
  | none => content
  | some track =>
      let entryPoint := intOr 0 content.entryPoint
      let remaining := intOr 0 content.intrinsicDuration - entryPoint
      { content with
        id := normalId content.id
        annotation := some ""
        editRate := track.editRate.asIMFString
        intrinsicDuration := writtenNumber track.duration
        entryPoint := writtenNumber entryPoint
        sourceDuration := writtenNumber (intOr remaining content.sourceDuration)
        repeatCount := writtenNumber (intOr 1 content.repeatCount)
        sourceEncoding := uuidStr track.essenceDescriptor.uuid
        trackFileId := normalId content.trackFileId }

def SequenceContent.saved (tracks : List IMFTrack) (content : SequenceContent) : SequenceContent :=
  { id := normalId content.id
    trackId := normalId content.trackId
    resources := content.resources.map (ResourceContent.saved tracks) }

def SegmentContent.saved (tracks : List IMFTrack) (content : SegmentContent) : SegmentContent :=
  { id := normalId content.id
    annotation := none
    sequences := (content.sequences.filter fun sequence => !sequence.resources.isEmpty).map
      (SequenceContent.saved tracks) }

def CPLResource.content (resource : CPLResource) : ResourceContent :=
  { id := uuidStr resource.uuid
    annotation := some ""
    editRate := resource.track.editRate.asIMFString
    intrinsicDuration := writtenNumber resource.track.duration
    entryPoint := writtenNumber resource.entryPoint
    sourceDuration := writtenNumber resource.sourceDuration
    repeatCount := writtenNumber resource.repeatCount
    sourceEncoding := uuidStr resource.track.essenceDescriptor.uuid
    trackFileId := uuidStr resource.track.uuid
    keyId := resource.keyId
    hash := resource.hash }

theorem resourceContent_tree (cplEditRate : String) (resource : CPLResource) :
    resourceContent cplEditRate resource.tree = resource.content := by
  rw [resourceContent, resource.getStringD_tree_keyId, resource.getStringD_tree_hash]
  simp [CPLResource.tree, CPLResource.content, writtenNumber, PTree.getStringD_eq]

/-- A resource that is loaded is written with the content that was read. -/
theorem content_of_load {node : PTree} {cplEditRate : String} {tracks : List IMFTrack}
    {resource : CPLResource} (loaded : CPLResource.load node cplEditRate tracks = .ok resource) :
    resource.content = (resourceContent cplEditRate node).saved tracks := by
  unfold CPLResource.load at loaded
  obtain ⟨resourceId, readId, loaded⟩ := bind_eq_ok.mp loaded
  obtain ⟨intrinsicDuration, readIntrinsic, loaded⟩ := bind_eq_ok.mp loaded
  obtain ⟨ownRate, -, loaded⟩ := bind_eq_ok.mp loaded
  obtain ⟨sourceEncoding, -, loaded⟩ := bind_eq_ok.mp loaded
  obtain ⟨trackFileId, readTrack, loaded⟩ := bind_eq_ok.mp loaded
  have id := getStringD_of_getString readId ""
  have trackId := getStringD_of_getString readTrack ""
  have intrinsic := getIntD_of_getInt readIntrinsic 0
  rw [getIntD_eq_intOr] at intrinsic
  cases found : KeyedList.find IMFTrack.uuid (uuidClean trackFileId) tracks with
  | none => simp [found] at loaded
  | some track =>
      simp only [found] at loaded
      obtain ⟨playlistEditRate, -, last⟩ := bind_eq_ok.mp loaded
      cases Except.ok.inj last
      have uuid := (KeyedList.find_eq_some IMFTrack.uuid found).2
      simp [CPLResource.content, ResourceContent.saved, resourceContent, id, trackId, intrinsic,
        found, normalId, uuid, getIntD_eq_intOr]

def CPLSequence.content (sequence : CPLSequence) : SequenceContent :=
  { id := uuidStr sequence.uuid
    trackId := uuidStr sequence.virtualTrackId
    resources := sequence.items.map CPLResource.content }

def SegmentValue.content (segment : SegmentValue) : SegmentContent :=
  { id := uuidStr segment.uuid
    annotation := none
    sequences := (segment.sequences.filter fun sequence => !sequence.items.isEmpty).map
      CPLSequence.content }

section Written

variable (cplEditRate : String)

theorem sequenceContent_tree (sequence : CPLSequence) :
    sequenceContent (fun _ => true) cplEditRate sequence.tree = sequence.content := by
  have nodes : nodesAt ["ResourceList"] sequence.tree =
      sequence.items.map fun resource => ("Resource", resource.tree) := by
    rw [nodesAt, sequence.getChild?_tree]
    rfl
  have resources : resourceContents (fun _ => true) cplEditRate
      (sequence.items.map fun resource => ("Resource", resource.tree)) =
      sequence.items.map CPLResource.content := by
    simp [resourceContents, List.filter_map, Function.comp_def, resourceContent_tree]
  rw [sequenceContent, nodes, resources]
  simp [CPLSequence.tree, CPLSequence.content, PTree.getStringD_eq]

theorem sequenceContents_nodes (sequences : List CPLSequence) :
    ((sequences.flatMap CPLSequence.nodes).map fun entry =>
        sequenceContent (fun _ => true) cplEditRate entry.2) =
      (sequences.filter fun sequence => !sequence.items.isEmpty).map CPLSequence.content := by
  induction sequences with
  | nil => rfl
  | cons sequence rest ih =>
      by_cases empty : sequence.items = []
      · simpa [CPLSequence.nodes, empty] using ih
      · obtain ⟨key, node⟩ := CPLSequence.nodes_of_ne_nil empty
        simp [node, empty, ih, sequenceContent_tree]

theorem segmentContent_node (segment : SegmentValue) :
    segmentContent (fun _ => true) cplEditRate segment.node.2 = segment.content := by
  have nodes : nodesAt ["SequenceList"] segment.node.2 =
      segment.sequences.flatMap CPLSequence.nodes := by
    have child : segment.node.2.getChild? ["SequenceList"] =
        some (.node "" (segment.sequences.flatMap CPLSequence.nodes)) :=
      PTree.getChild?_addChild_self [] _ _ (by simp)
    rw [nodesAt, child]
    rfl
  rw [segmentContent, nodes, sequenceContents_nodes]
  simp [SegmentValue.node, SegmentValue.content, PTree.getStringD_eq]

theorem contents_of_write {playlist : IMFCompositionPlaylist} {tree : PTree}
    (written : playlist.write = .ok tree) :
    contents (fun _ => true) tree = playlist.timeline.map SegmentValue.content := by
  obtain ⟨root, rfl, -, -, -, segmentList⟩ := IMFCompositionPlaylist.write_eq_ok written
  have child : (PTree.empty.addChild "CompositionPlaylist" root).getChild?
      ["CompositionPlaylist", "SegmentList"] =
      some (.node "" (playlist.timeline.map SegmentValue.node)) :=
    (PTree.getChild?_addChild_self _ root _ rfl).trans segmentList
  rw [contents, nodesAt, child]
  simp [segmentContent_node]

end Written

section Loaded

variable {tracks : List IMFTrack} {cplEditRate : String}

theorem resourceContents_of_read {nodes : List (String × PTree)} {items : List CPLResource}
    (read : readResources tracks cplEditRate nodes = .ok items) :
    items.map CPLResource.content =
      (resourceContents isTrackFileNode cplEditRate nodes).map (ResourceContent.saved tracks) := by
  induction nodes generalizing items with
  | nil =>
      cases read
      rfl
  | cons entry rest ih =>
      obtain ⟨key, node⟩ := entry
      unfold readResources at read
      by_cases isResource : key = "Resource"
      · rw [if_pos isResource] at read
        obtain ⟨resourceType, readType, read⟩ := bind_eq_ok.mp read
        have selected : isTrackFileNode node =
            IMFCompositionPlaylist.isTrackFileResource resourceType := by
          rw [isTrackFileNode, text_of_getString readType]
        by_cases trackFile : IMFCompositionPlaylist.isTrackFileResource resourceType
        · rw [if_pos trackFile] at read
          cases loaded : CPLResource.load node cplEditRate tracks with
          | error exn =>
              rw [loaded] at read
              cases exn <;> cases read
          | ok resource =>
              rw [loaded] at read
              obtain ⟨others, readOthers, last⟩ := bind_eq_ok.mp read
              cases Except.ok.inj last
              simp [resourceContents, isResource, selected, trackFile, content_of_load loaded,
                ih readOthers]
        · rw [if_neg trackFile] at read
          simp [resourceContents, selected, trackFile, ih read]
      · rw [if_neg isResource] at read
        simp [resourceContents, isResource, ih read]

theorem sequenceContent_of_read {node : PTree} {sequence : CPLSequence}
    (read : readSequence tracks cplEditRate node = .ok sequence) :
    sequence.content = (sequenceContent isTrackFileNode cplEditRate node).saved tracks := by
  unfold readSequence at read
  obtain ⟨sequenceId, readId, read⟩ := bind_eq_ok.mp read
  obtain ⟨trackId, readTrackId, read⟩ := bind_eq_ok.mp read
  obtain ⟨resourceList, readList, read⟩ := bind_eq_ok.mp read
  obtain ⟨items, readItems, last⟩ := bind_eq_ok.mp read
  cases Except.ok.inj last
  have resources := resourceContents_of_read readItems
  simp [CPLSequence.content, SequenceContent.saved, sequenceContent, normalId, resources,
    getStringD_of_getString readId, getStringD_of_getString readTrackId,
    nodesAt_of_getChild readList]

theorem sequenceContents_of_read {nodes : List (String × PTree)} {sequences : List CPLSequence}
    (read : readSequences tracks cplEditRate nodes = .ok sequences) :
    sequences.map CPLSequence.content =
      (nodes.map fun entry => sequenceContent isTrackFileNode cplEditRate entry.2).map
        (SequenceContent.saved tracks) := by
  induction nodes generalizing sequences with
  | nil =>
      cases read
      rfl
  | cons entry rest ih =>
      unfold readSequences at read
      obtain ⟨sequence, readSequence, read⟩ := bind_eq_ok.mp read
      obtain ⟨others, readOthers, last⟩ := bind_eq_ok.mp read
      cases Except.ok.inj last
      rw [List.map_cons, List.map_cons, List.map_cons, ih readOthers, sequenceContent_of_read readSequence]

theorem segmentContent_of_read {node : PTree} {segment : SegmentValue}
    (read : readSegment tracks cplEditRate node = .ok segment) :
    segment.content = (segmentContent isTrackFileNode cplEditRate node).saved tracks := by
  unfold readSegment at read
  obtain ⟨segmentUUID, readId, read⟩ := bind_eq_ok.mp read
  obtain ⟨sequenceList, readList, read⟩ := bind_eq_ok.mp read
  obtain ⟨sequences, readAll, last⟩ := bind_eq_ok.mp read
  cases Except.ok.inj last
  have nonempty : ((fun content : SequenceContent => !content.resources.isEmpty) ∘
      CPLSequence.content) = fun sequence => !sequence.items.isEmpty := by
    funext sequence
    simp [CPLSequence.content]
  have kept : ((fun content : SequenceContent => !content.resources.isEmpty) ∘
      SequenceContent.saved tracks) = fun content => !content.resources.isEmpty := by
    funext content
    simp [SequenceContent.saved]
  have whole := congrArg (List.filter fun content => !content.resources.isEmpty)
    (sequenceContents_of_read readAll)
  rw [List.filter_map, nonempty, List.filter_map, kept] at whole
  rw [SegmentValue.content, whole]
  simp [SegmentContent.saved, segmentContent, normalId, getStringD_of_getString readId,
    nodesAt_of_getChild readList]

theorem segmentContents_of_read {nodes : List (String × PTree)} {segments : List SegmentValue}
    (read : readSegments tracks cplEditRate nodes = .ok segments) :
    segments.map SegmentValue.content =
      (nodes.map fun entry => segmentContent isTrackFileNode cplEditRate entry.2).map
        (SegmentContent.saved tracks) := by
  induction nodes generalizing segments with
  | nil =>
      cases read
      rfl
  | cons entry rest ih =>
      unfold readSegments at read
      obtain ⟨segment, readSegment, read⟩ := bind_eq_ok.mp read
      obtain ⟨others, readOthers, last⟩ := bind_eq_ok.mp read
      cases Except.ok.inj last
      rw [List.map_cons, List.map_cons, List.map_cons, ih readOthers, segmentContent_of_read readSegment]

end Loaded

/-- A playlist that is loaded and saved keeps its segments, and in them the track file resources
with their sequences. -/
theorem contents_of_resave {path : String} {tree saved : PTree} {tracks : List IMFTrack}
    {playlist : IMFCompositionPlaylist}
    (loaded : IMFCompositionPlaylist.load path tree tracks = .ok playlist)
    (written : playlist.write = .ok saved) :
    contents (fun _ => true) saved =
      (contents isTrackFileNode tree).map (SegmentContent.saved tracks) := by
  rw [contents_of_write written]
  rw [IMFCompositionPlaylist.load_eq] at loaded
  cases read : readPlaylist tree tracks with
  | error exn =>
      rw [read] at loaded
      cases loaded
  | ok value =>
      rw [read] at loaded
      cases Except.ok.inj loaded
      rw [(IMFCompositionPlaylist.build_spec path value).2.1]
      unfold readPlaylist at read
      obtain ⟨cplUUID, -, read⟩ := bind_eq_ok.mp read
      obtain ⟨headerNode, -, read⟩ := bind_eq_ok.mp read
      obtain ⟨header, -, read⟩ := bind_eq_ok.mp read
      obtain ⟨cplEditRate, readRate, read⟩ := bind_eq_ok.mp read
      obtain ⟨editRate, -, read⟩ := bind_eq_ok.mp read
      obtain ⟨segmentList, readList, read⟩ := bind_eq_ok.mp read
      obtain ⟨segments, readAll, last⟩ := bind_eq_ok.mp read
      cases Except.ok.inj last
      rw [segmentContents_of_read readAll]
      simp [contents, getStringD_of_getString readRate, nodesAt_of_getChild readList,
        Function.comp_def]

def leaf (text : String) : PTree := .node text []

/-- A playlist with a marker, and with a resource whose edit rate is not its track's. -/
def markerTree : PTree :=
  let marker := PTree.node ""
    [("<xmlattr>", .node "" [("xsi:type", leaf "MarkerResourceType")]),
      ("Id", leaf "urn:uuid:marker"), ("EditRate", leaf "24 1"), ("IntrinsicDuration", leaf "40")]
  let image := PTree.node ""
    [("<xmlattr>", .node "" [("xsi:type", leaf "TrackFileResourceType")]),
      ("Id", leaf "urn:uuid:first"), ("EditRate", leaf "24 1"), ("IntrinsicDuration", leaf "40"),
      ("SourceEncoding", leaf "urn:uuid:video-descriptor"), ("TrackFileId", leaf "urn:uuid:video")]
  let sequenceNode (id trackId : String) (resource : PTree) := PTree.node ""
    [("Id", leaf id), ("TrackId", leaf trackId),
      ("ResourceList", .node "" [("Resource", resource)])]
  let sequenceList := PTree.node ""
    [("MarkerSequence", sequenceNode "urn:uuid:markers" "urn:uuid:m1" marker),
      ("imf:MainImageSequence", sequenceNode "urn:uuid:image" "urn:uuid:v1" image)]
  let segment := PTree.node "" [("Id", leaf "urn:uuid:segment"), ("SequenceList", sequenceList)]
  .node "" [("CompositionPlaylist", .node ""
    [("Id", leaf "urn:uuid:cpl"), ("IssueDate", leaf "2017-03-01T21:56:47Z"),
      ("ContentTitle", leaf "title"), ("EditRate", leaf "24 1"),
      ("SegmentList", .node "" [("Segment", segment)])])]

/-- The marker sequence is gone, and the edit rate of the resource has changed. -/
theorem markers_are_lost : ∃ playlist saved,
    IMFCompositionPlaylist.load "cpl.xml" markerTree [Sample.video] = .ok playlist ∧
    playlist.write = .ok saved ∧
    (contents (fun _ => true) markerTree).map (fun segment => segment.sequences.map fun sequence =>
      (sequence.id, sequence.resources.map (·.editRate))) =
      [[("urn:uuid:markers", ["24 1"]), ("urn:uuid:image", ["24 1"])]] ∧
    (contents (fun _ => true) saved).map (fun segment => segment.sequences.map fun sequence =>
      (sequence.id, sequence.resources.map (·.editRate))) =
      [[("urn:uuid:image", ["25 1"])]] := by
  refine ⟨_, _, rfl, rfl, ?_, ?_⟩
  · decide
  · decide

theorem contents_of_resave_markers : ∃ playlist saved,
    IMFCompositionPlaylist.load "cpl.xml" markerTree [Sample.video] = .ok playlist ∧
    playlist.write = .ok saved ∧
    contents (fun _ => true) saved =
      (contents isTrackFileNode markerTree).map (SegmentContent.saved [Sample.video]) := by
  have saves : ∃ playlist, IMFCompositionPlaylist.load "cpl.xml" markerTree [Sample.video] =
      .ok playlist ∧ ∃ saved, playlist.write = .ok saved := ⟨_, rfl, _, rfl⟩
  obtain ⟨playlist, loaded, saved, written⟩ := saves
  exact ⟨playlist, saved, loaded, written, contents_of_resave loaded written⟩

end Imflib.Package
