import Imflib.Package.PlaylistIndex
import Imflib.Package.PlaylistXml

/-! Loading a playlist is reading its values from the tree and then building the objects. -/

namespace Imflib.Package

structure PlaylistValue where
  uuid : String
  header : XMLHeaderCompositionPlaylist
  editRate : RationalNumber
  segments : List SegmentValue
  deriving DecidableEq, Repr

section Read

variable (tracks : List IMFTrack) (cplEditRate : String)

def readResources : List (String × PTree) → Except Exn (List CPLResource)
  | [] => .ok []
  | (key, node) :: rest =>
      if key = "Resource" then do
        let resourceType ← getString ["<xmlattr>", "xsi:type"] node
        if IMFCompositionPlaylist.isTrackFileResource resourceType then
          match CPLResource.load node cplEditRate tracks with
          | .ok resource => do
              let others ← readResources rest
              pure (resource :: others)
          | .error (.invalidReferenceException what) => .error (.compositionPlaylistException what)
          | .error error => .error error
        else readResources rest
      else readResources rest

def readSequence (node : PTree) : Except Exn CPLSequence := do
  let sequenceId ← getString ["Id"] node
  let trackId ← getString ["TrackId"] node
  let resourceList ← getChild ["ResourceList"] node
  let items ← readResources tracks cplEditRate resourceList.children
  pure ⟨uuidClean sequenceId, uuidClean trackId, items⟩

def readSequences : List (String × PTree) → Except Exn (List CPLSequence)
  | [] => .ok []
  | (_, node) :: rest => do
      let sequence ← readSequence tracks cplEditRate node
      let others ← readSequences rest
      pure (sequence :: others)

def readSegment (node : PTree) : Except Exn SegmentValue := do
  let segmentUUID ← getString ["Id"] node
  let sequenceList ← getChild ["SequenceList"] node
  let sequences ← readSequences tracks cplEditRate sequenceList.children
  pure ⟨uuidClean segmentUUID, sequences⟩

def readSegments : List (String × PTree) → Except Exn (List SegmentValue)
  | [] => .ok []
  | (_, node) :: rest => do
      let segment ← readSegment tracks cplEditRate node
      let others ← readSegments rest
      pure (segment :: others)

end Read

def readPlaylist (pt : PTree) (tracks : List IMFTrack) : Except Exn PlaylistValue := do
  let cplUUID ← getString ["CompositionPlaylist", "Id"] pt
  let headerNode ← getChild ["CompositionPlaylist"] pt
  let header ← XMLHeaderCompositionPlaylist.read headerNode
  let cplEditRate ← getString ["CompositionPlaylist", "EditRate"] pt
  let editRate ← RationalNumber.fromIMFString cplEditRate
  let segmentList ← getChild ["CompositionPlaylist", "SegmentList"] pt
  let segments ← readSegments tracks cplEditRate segmentList.children
  pure ⟨uuidClean cplUUID, header, editRate, segments⟩

namespace IMFCompositionPlaylist

def placeSequence (segment : Nat) (playlist : IMFCompositionPlaylist) (sequence : CPLSequence) :
    IMFCompositionPlaylist :=
  let found := playlist.virtualTrackFor sequence.virtualTrackId
  found.1.link segment found.2 sequence

def placeSegment (playlist : IMFCompositionPlaylist) (segment : SegmentValue) :
    IMFCompositionPlaylist :=
  let address := playlist.segmentStore.size
  segment.sequences.foldl (placeSequence address)
    (playlist.insertEmptySegment segment.uuid (playlist.segments ++ [address]))

def build (path : String) (value : PlaylistValue) : IMFCompositionPlaylist :=
  value.segments.foldl placeSegment
    { new value.uuid path with header := value.header, editRate := value.editRate }

variable (tracks : List IMFTrack) (cplEditRate : String)

theorem appendItems_nil (playlist : IMFCompositionPlaylist) (sequence : Nat) :
    (playlist.modifySequence sequence fun value => { value with items := value.items ++ [] }) =
      playlist := by
  have same := playlist.sequenceStore.modify_eq_self sequence
    (fun value => { value with items := value.items ++ [] }) (by simp)
  rw [modifySequence, same]

theorem appendToSequence_append (playlist : IMFCompositionPlaylist) (sequence : Nat)
    (resource : CPLResource) (items : List CPLResource) :
    ((playlist.appendToSequence sequence resource).modifySequence sequence fun value =>
        { value with items := value.items ++ items }) =
      playlist.modifySequence sequence fun value =>
        { value with items := value.items ++ resource :: items } := by
  simp [appendToSequence, modifySequence, Store.modify_modify]

theorem loadResources_eq (sequence : Nat) (nodes : List (String × PTree))
    (playlist : IMFCompositionPlaylist) :
    loadResources tracks cplEditRate sequence playlist nodes =
      (readResources tracks cplEditRate nodes).map fun items =>
        playlist.modifySequence sequence fun value => { value with items := value.items ++ items } := by
  induction nodes generalizing playlist with
  | nil => exact congrArg Except.ok (appendItems_nil playlist sequence).symm
  | cons entry rest ih =>
      rcases entry with ⟨key, node⟩
      by_cases isResource : key = "Resource"
      · simp only [loadResources, readResources, isResource, if_true]
        cases getString ["<xmlattr>", "xsi:type"] node with
        | error _ => rfl
        | ok resourceType =>
            rw [ok_bind, ok_bind]
            split
            · cases CPLResource.load node cplEditRate tracks with
              | error exn => cases exn <;> rfl
              | ok resource =>
                  simp only [ih]
                  cases readResources tracks cplEditRate rest with
                  | error _ => rfl
                  | ok items =>
                      exact congrArg Except.ok
                        (appendToSequence_append playlist sequence resource items)
            · exact ih playlist
      · simp only [loadResources, readResources, isResource, if_false]
        exact ih playlist

/-- The sequence is allocated first and filled last, but nothing in between looks at it. -/
theorem placeSequence_eq (segment : Nat) (playlist : IMFCompositionPlaylist)
    (uuid virtualTrackId : String) (items : List CPLResource) :
    (let made := playlist.newSequence ⟨uuid, "", []⟩
      let playlist := made.1.setVirtualTrackId made.2 virtualTrackId
      let playlist := playlist.appendToSegment segment made.2
      let found := playlist.virtualTrackFor virtualTrackId
      (found.1.appendToVirtualTrack found.2 made.2).modifySequence made.2 fun value =>
        { value with items := value.items ++ items }) =
      playlist.placeSequence segment ⟨uuid, virtualTrackId, items⟩ := by
  have filled : (((playlist.sequenceStore.alloc ⟨uuid, "", []⟩).modify playlist.sequenceStore.size
      fun sequence => { sequence with virtualTrackId := virtualTrackId }).modify
      playlist.sequenceStore.size fun value => { value with items := value.items ++ items }) =
      playlist.sequenceStore.alloc ⟨uuid, virtualTrackId, items⟩ := by
    simp
  have frame := playlist.orNewVirtualTrack_frame (playlist.findVirtualTrackById virtualTrackId)
    virtualTrackId
    (playlist.segmentStore.modify segment fun segment =>
      { segment with items := segment.items ++ [playlist.sequenceStore.size] })
    ((playlist.sequenceStore.alloc ⟨uuid, "", []⟩).modify playlist.sequenceStore.size
      fun sequence => { sequence with virtualTrackId := virtualTrackId })
  obtain ⟨virtualTracks, trackStore, found⟩ := playlist.orNewVirtualTrack_eq
    (playlist.findVirtualTrackById virtualTrackId) virtualTrackId
  dsimp only
  refine (congrArg (fun found : IMFCompositionPlaylist × Nat =>
    (found.1.appendToVirtualTrack found.2 playlist.sequenceStore.size).modifySequence
      playlist.sequenceStore.size fun value => { value with items := value.items ++ items })
    frame).trans ?_
  simp only [placeSequence, virtualTrackFor, link, modifySequence, appendToVirtualTrack,
    modifyVirtualTrack, appendToSegment, modifySegment, newSequence, filled, found]

theorem loadSequence_eq (segment : Nat) (playlist : IMFCompositionPlaylist) (node : PTree) :
    loadSequence tracks cplEditRate segment playlist node =
      (readSequence tracks cplEditRate node).map (playlist.placeSequence segment) := by
  unfold loadSequence readSequence
  cases getString ["Id"] node with
  | error _ => rfl
  | ok sequenceId =>
  cases getString ["TrackId"] node with
  | error _ => rfl
  | ok trackId =>
  cases getChild ["ResourceList"] node with
  | error _ => rfl
  | ok resourceList =>
  simp only [ok_bind, loadResources_eq]
  cases readResources tracks cplEditRate resourceList.children with
  | error _ => rfl
  | ok items =>
      exact congrArg Except.ok
        (placeSequence_eq segment playlist (uuidClean sequenceId) (uuidClean trackId) items)

theorem loadSequences_eq (segment : Nat) (nodes : List (String × PTree))
    (playlist : IMFCompositionPlaylist) :
    loadSequences tracks cplEditRate segment playlist nodes =
      (readSequences tracks cplEditRate nodes).map fun sequences =>
        sequences.foldl (placeSequence segment) playlist := by
  induction nodes generalizing playlist with
  | nil => rfl
  | cons entry rest ih =>
      rcases entry with ⟨key, node⟩
      simp only [loadSequences, readSequences, loadSequence_eq]
      cases readSequence tracks cplEditRate node with
      | error _ => rfl
      | ok sequence =>
          simp only [map_ok, ok_bind, ih]
          cases readSequences tracks cplEditRate rest <;> rfl

theorem loadSegment_eq (playlist : IMFCompositionPlaylist) (node : PTree) :
    loadSegment tracks cplEditRate playlist node =
      (readSegment tracks cplEditRate node).map playlist.placeSegment := by
  unfold loadSegment readSegment
  cases getString ["Id"] node with
  | error _ => rfl
  | ok segmentUUID =>
  cases getChild ["SequenceList"] node with
  | error _ => rfl
  | ok sequenceList =>
  simp only [ok_bind, loadSequences_eq]
  cases readSequences tracks cplEditRate sequenceList.children <;> rfl

theorem loadSegments_eq (nodes : List (String × PTree)) (playlist : IMFCompositionPlaylist) :
    loadSegments tracks cplEditRate playlist nodes =
      (readSegments tracks cplEditRate nodes).map fun segments =>
        segments.foldl placeSegment playlist := by
  induction nodes generalizing playlist with
  | nil => rfl
  | cons entry rest ih =>
      rcases entry with ⟨key, node⟩
      simp only [loadSegments, readSegments, loadSegment_eq]
      cases readSegment tracks cplEditRate node with
      | error _ => rfl
      | ok segment =>
          simp only [map_ok, ok_bind, ih]
          cases readSegments tracks cplEditRate rest <;> rfl

theorem load_eq (path : String) (pt : PTree) (tracks : List IMFTrack) :
    load path pt tracks = (readPlaylist pt tracks).map (build path) := by
  unfold load readPlaylist
  cases getString ["CompositionPlaylist", "Id"] pt with
  | error _ => rfl
  | ok cplUUID =>
  cases getChild ["CompositionPlaylist"] pt with
  | error _ => rfl
  | ok headerNode =>
  simp only [ok_bind]
  cases XMLHeaderCompositionPlaylist.read headerNode with
  | error _ => rfl
  | ok header =>
  cases getString ["CompositionPlaylist", "EditRate"] pt with
  | error _ => rfl
  | ok cplEditRate =>
  simp only [ok_bind]
  cases RationalNumber.fromIMFString cplEditRate with
  | error _ => rfl
  | ok editRate =>
  cases getChild ["CompositionPlaylist", "SegmentList"] pt with
  | error _ => rfl
  | ok segmentList =>
  simp only [ok_bind, loadSegments_eq]
  cases readSegments tracks cplEditRate segmentList.children <;> rfl

variable {playlist : IMFCompositionPlaylist}

theorem virtualTrackFor_ready (indexed : playlist.Indexed) (id : String) :
    TrackReady playlist (playlist.virtualTrackFor id).1 (playlist.virtualTrackFor id).2 ∧
      (playlist.virtualTrackFor id).1.trackUUID (playlist.virtualTrackFor id).2 = id := by
  refine ⟨TrackReady.orNew indexed (fun track found => (KeyedList.find_eq_some _ found).1)
    (KeyedList.find_eq_none _), ?_⟩
  unfold virtualTrackFor
  cases found : playlist.findVirtualTrackById id with
  | some track => exact (KeyedList.find_eq_some _ found).2
  | none => exact congrArg CPLVirtualTrack.uuid (playlist.trackStore.cell_alloc_size _)

theorem Indexed.placeSequence (indexed : playlist.Indexed) {segment : Nat}
    (member : segment ∈ playlist.segments) (sequence : CPLSequence) :
    (playlist.placeSequence segment sequence).Indexed := by
  obtain ⟨ready, uuid⟩ := virtualTrackFor_ready indexed sequence.virtualTrackId
  exact ready.indexed.link (ready.segments.symm ▸ member) ready.member uuid.symm

theorem segments_placeSequence (indexed : playlist.Indexed) (segment : Nat)
    (sequence : CPLSequence) :
    (playlist.placeSequence segment sequence).segments = playlist.segments :=
  (virtualTrackFor_ready indexed sequence.virtualTrackId).1.segments

theorem segmentValue_placeSequence_self (indexed : playlist.Indexed) {segment : Nat}
    (member : segment ∈ playlist.segments) (sequence : CPLSequence) :
    (playlist.placeSequence segment sequence).segmentValue segment =
      ⟨(playlist.segmentValue segment).uuid,
        (playlist.segmentValue segment).sequences ++ [sequence]⟩ := by
  obtain ⟨ready, -⟩ := virtualTrackFor_ready indexed sequence.virtualTrackId
  have linked := segmentValue_link_self ready.indexed (ready.segments.symm ▸ member)
    (playlist.virtualTrackFor sequence.virtualTrackId).2 sequence
  rw [ready.segmentValue, ready.segmentUUID] at linked
  exact linked

theorem segmentValue_placeSequence_of_ne (indexed : playlist.Indexed) {segment other : Nat}
    (member : other ∈ playlist.segments) (different : other ≠ segment) (sequence : CPLSequence) :
    (playlist.placeSequence segment sequence).segmentValue other = playlist.segmentValue other := by
  obtain ⟨ready, -⟩ := virtualTrackFor_ready indexed sequence.virtualTrackId
  have linked := segmentValue_link_of_ne ready.indexed (ready.segments.symm ▸ member) different
    (playlist.virtualTrackFor sequence.virtualTrackId).2 sequence
  rw [ready.segmentValue] at linked
  exact linked

theorem placeSequences_spec (sequences : List CPLSequence) {playlist : IMFCompositionPlaylist}
    (indexed : playlist.Indexed) {segment : Nat} (member : segment ∈ playlist.segments) :
    let placed := sequences.foldl (placeSequence segment) playlist
    placed.Indexed ∧ placed.segments = playlist.segments ∧
      placed.segmentValue segment = ⟨(playlist.segmentValue segment).uuid,
        (playlist.segmentValue segment).sequences ++ sequences⟩ ∧
      ∀ other ∈ playlist.segments, other ≠ segment →
        placed.segmentValue other = playlist.segmentValue other := by
  induction sequences generalizing playlist with
  | nil => simpa using indexed
  | cons sequence rest ih =>
      have segments := segments_placeSequence indexed segment sequence
      obtain ⟨placed, kept, filled, others⟩ :=
        ih (indexed.placeSequence member sequence) (segments.symm ▸ member)
      refine ⟨placed, kept.trans segments, ?_, ?_⟩
      · rw [List.foldl_cons, filled, segmentValue_placeSequence_self indexed member sequence]
        simp
      · intro other listed different
        rw [List.foldl_cons, others other (segments.symm ▸ listed) different]
        exact segmentValue_placeSequence_of_ne indexed listed different sequence

theorem placeSegment_spec (indexed : playlist.Indexed) (segment : SegmentValue) :
    (playlist.placeSegment segment).Indexed ∧
      (playlist.placeSegment segment).timeline = playlist.timeline ++ [segment] := by
  have inserted : (playlist.segments ++ [playlist.segmentStore.size]).Perm
      (playlist.segmentStore.size :: playlist.segments) := List.perm_append_singleton _ _
  have prepared := indexed.insertEmptySegment segment.uuid inserted
  have own := playlist.segmentValue_insertEmptySegment_self segment.uuid
    (playlist.segments ++ [playlist.segmentStore.size])
  have last : playlist.segmentStore.size ∈ (playlist.insertEmptySegment segment.uuid
      (playlist.segments ++ [playlist.segmentStore.size])).segments :=
    List.mem_append_right _ (List.mem_singleton_self _)
  obtain ⟨placed, segments, filled, others⟩ := placeSequences_spec segment.sequences prepared last
  refine ⟨placed, ?_⟩
  have earlier : playlist.segments.map (playlist.placeSegment segment).segmentValue =
      playlist.timeline := by
    refine List.map_congr_left fun other member => ?_
    have different : other ≠ playlist.segmentStore.size :=
      fun same => indexed.fresh_segment (same ▸ member)
    have kept := segmentValue_insertEmptySegment_of_mem indexed member segment.uuid
      (playlist.segments ++ [playlist.segmentStore.size])
    exact (others other (List.mem_append_left _ member) different).trans kept
  have added : (playlist.placeSegment segment).segmentValue playlist.segmentStore.size = segment := by
    refine filled.trans ?_
    rw [own]
    rfl
  have list : (playlist.placeSegment segment).segments =
      playlist.segments ++ [playlist.segmentStore.size] := segments
  rw [timeline, list, List.map_append, earlier, List.map_singleton, added]

theorem placeSegments_spec (segments : List SegmentValue) {playlist : IMFCompositionPlaylist}
    (indexed : playlist.Indexed) :
    (segments.foldl placeSegment playlist).Indexed ∧
      (segments.foldl placeSegment playlist).timeline = playlist.timeline ++ segments := by
  induction segments generalizing playlist with
  | nil => simpa using indexed
  | cons segment rest ih =>
      obtain ⟨placed, timeline⟩ := placeSegment_spec indexed segment
      obtain ⟨built, whole⟩ := ih placed
      refine ⟨built, ?_⟩
      rw [List.foldl_cons, whole, timeline, List.append_assoc]
      rfl

def TracksFilled (playlist : IMFCompositionPlaylist) : Prop :=
  ∀ track ∈ playlist.virtualTracks, (playlist.virtualTrack track).items ≠ []

theorem TracksFilled.placeSequence (filled : playlist.TracksFilled) (indexed : playlist.Indexed)
    (segment : Nat) (sequence : CPLSequence) :
    (playlist.placeSequence segment sequence).TracksFilled := by
  obtain ⟨ready, uuid⟩ := virtualTrackFor_ready indexed sequence.virtualTrackId
  have index : (playlist.placeSequence segment sequence).index = _ :=
    index_link _ segment _ sequence uuid.symm
  intro track member
  change (playlist.placeSequence segment sequence).index.trackItems track ≠ []
  rw [index]
  by_cases same : track = (playlist.virtualTrackFor sequence.virtualTrackId).2
  · simp [CrossIndex.link, same]
  · obtain ⟨old, items⟩ := ready.others track member same
    have kept : (playlist.virtualTrackFor sequence.virtualTrackId).1.index.trackItems track ≠ [] :=
      fun empty => filled track old (items.symm.trans empty)
    simpa [CrossIndex.link, same] using kept

theorem TracksFilled.placeSequences {playlist : IMFCompositionPlaylist}
    (filled : playlist.TracksFilled) (sequences : List CPLSequence)
    (indexed : playlist.Indexed) {segment : Nat} (member : segment ∈ playlist.segments) :
    (sequences.foldl (IMFCompositionPlaylist.placeSequence segment) playlist).TracksFilled := by
  induction sequences generalizing playlist with
  | nil => exact filled
  | cons sequence rest ih =>
      have segments := segments_placeSequence indexed segment sequence
      exact ih (filled.placeSequence indexed segment sequence)
        (indexed.placeSequence member sequence) (segments.symm ▸ member)

theorem TracksFilled.placeSegments {playlist : IMFCompositionPlaylist}
    (filled : playlist.TracksFilled) (segments : List SegmentValue)
    (indexed : playlist.Indexed) :
    (segments.foldl placeSegment playlist).TracksFilled := by
  induction segments generalizing playlist with
  | nil => exact filled
  | cons segment rest ih =>
      have inserted : (playlist.segments ++ [playlist.segmentStore.size]).Perm
          (playlist.segmentStore.size :: playlist.segments) := List.perm_append_singleton _ _
      have prepared := indexed.insertEmptySegment segment.uuid inserted
      have stillFilled : (playlist.insertEmptySegment segment.uuid
          (playlist.segments ++ [playlist.segmentStore.size])).TracksFilled := filled
      exact ih (stillFilled.placeSequences segment.sequences prepared
        (List.mem_append_right _ (List.mem_singleton_self _))) (placeSegment_spec indexed segment).1

def details (playlist : IMFCompositionPlaylist) :
    String × String × RationalNumber × XMLHeaderCompositionPlaylist :=
  (playlist.uuid, playlist.path, playlist.editRate, playlist.header)

theorem details_placeSequence (segment : Nat) (sequence : CPLSequence)
    (playlist : IMFCompositionPlaylist) :
    (playlist.placeSequence segment sequence).details = playlist.details := by
  have found : (playlist.virtualTrackFor sequence.virtualTrackId).1.details = playlist.details := by
    obtain ⟨virtualTracks, trackStore, same⟩ := playlist.orNewVirtualTrack_eq
      (playlist.findVirtualTrackById sequence.virtualTrackId) sequence.virtualTrackId
    rw [virtualTrackFor, same]
    rfl
  exact found

theorem details_placeSequences (segment : Nat) (sequences : List CPLSequence)
    (playlist : IMFCompositionPlaylist) :
    (sequences.foldl (placeSequence segment) playlist).details = playlist.details := by
  induction sequences generalizing playlist with
  | nil => rfl
  | cons sequence rest ih => exact (ih _).trans (details_placeSequence segment sequence playlist)

theorem details_placeSegments (segments : List SegmentValue) (playlist : IMFCompositionPlaylist) :
    (segments.foldl placeSegment playlist).details = playlist.details := by
  induction segments generalizing playlist with
  | nil => rfl
  | cons segment rest ih =>
      exact (ih _).trans (details_placeSequences _ segment.sequences _)

theorem build_tracksFilled (path : String) (value : PlaylistValue) :
    (build path value).TracksFilled :=
  TracksFilled.placeSegments (fun _ member => by cases member) value.segments
    (Indexed.of_empty rfl rfl)

/-- The objects that are built have the content that was read. -/
theorem build_spec (path : String) (value : PlaylistValue) :
    (build path value).Indexed ∧ (build path value).timeline = value.segments ∧
      (build path value).details = (value.uuid, path, value.editRate, value.header) := by
  have start : Indexed
      { new value.uuid path with header := value.header, editRate := value.editRate } :=
    Indexed.of_empty rfl rfl
  obtain ⟨indexed, timeline⟩ := placeSegments_spec value.segments start
  exact ⟨indexed, timeline, details_placeSegments value.segments _⟩

theorem eq_build_of_load {path : String} {pt : PTree} {tracks : List IMFTrack}
    (loaded : load path pt tracks = .ok playlist) :
    ∃ value, readPlaylist pt tracks = .ok value ∧ playlist = build path value := by
  rw [load_eq] at loaded
  cases read : readPlaylist pt tracks with
  | error exn =>
      rw [read] at loaded
      cases loaded
  | ok value =>
      rw [read] at loaded
      exact ⟨value, rfl, (Except.ok.inj loaded).symm⟩

theorem path_of_load {path : String} {pt : PTree} {tracks : List IMFTrack}
    (loaded : load path pt tracks = .ok playlist) : playlist.path = path := by
  obtain ⟨value, -, rfl⟩ := eq_build_of_load loaded
  exact congrArg (fun details => details.2.1) (build_spec path value).2.2

theorem load_spec {path : String} {pt : PTree} {tracks : List IMFTrack}
    (loaded : load path pt tracks = .ok playlist) : playlist.Indexed ∧ playlist.TracksFilled := by
  obtain ⟨value, -, rfl⟩ := eq_build_of_load loaded
  exact ⟨(build_spec path value).1, build_tracksFilled path value⟩

end IMFCompositionPlaylist

end Imflib.Package
