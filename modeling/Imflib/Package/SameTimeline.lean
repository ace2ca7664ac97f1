import Imflib.Package.PackageReading
import Imflib.Package.PlaylistCells

/-! Playlists with the same content, and how written ones are read back one after another. Files may
be read more than once, and the reader makes the identifier of an essence descriptor each time. -/

namespace Imflib.Package

section Reread

variable (madeUUID : String → String)

/-- The track as it is read once more, with the identifier that is made for its descriptor then. -/
def IMFTrack.reread (track : IMFTrack) : IMFTrack :=
  { track with
    essenceDescriptor := { track.essenceDescriptor with uuid := madeUUID track.uuid } }

theorem keepsUUID_reread : KeepsUUID (IMFTrack.reread madeUUID) := fun _ => rfl

def TrackFile.reread (asset : TrackFile) : TrackFile :=
  { asset with track := asset.track.reread madeUUID }

theorem TrackFile.getFileName_reread (asset : TrackFile) :
    (asset.reread madeUUID).getFileName = asset.getFileName := rfl

def File.reread : File → File
  | .mxf (.ok track) => .mxf (.ok (track.reread madeUUID))
  | file => file

theorem File.reread_eq_mxf {file : File} {track : IMFTrack}
    (read : file.reread madeUUID = .mxf (.ok track)) :
    ∃ before : IMFTrack, file = .mxf (.ok before) ∧ before.reread madeUUID = track := by
  cases file with
  | mxf reading =>
      cases reading with
      | ok before =>
          cases read
          exact ⟨before, rfl, rfl⟩
      | error text => cases read
  | xml pt => cases read
  | other => cases read

theorem File.mxf_of_reread {file : File} {reading : Except String IMFTrack}
    (read : file.reread madeUUID = .mxf reading) : ∃ before, file = .mxf before := by
  cases file with
  | mxf before => exact ⟨before, rfl⟩
  | xml pt => cases read
  | other => cases read

theorem File.reread_reread (other : String → String) (file : File) :
    (file.reread madeUUID).reread other = file.reread other := by
  cases file with
  | mxf reading => cases reading <;> rfl
  | xml pt => rfl
  | other => rfl

def IMFTrack.anonymous (track : IMFTrack) : IMFTrack := track.reread fun _ => ""

def anonymousFiles (disk : FileSystem File) : FileSystem File := disk.map (File.reread fun _ => "")

theorem anonymousFiles_reread (disk : FileSystem File) :
    anonymousFiles (disk.map (File.reread madeUUID)) = anonymousFiles disk := by
  simp only [anonymousFiles, FileSystem.map_map, File.reread_reread]

end Reread

theorem exists_left_of_forall₂ {α β : Type} {related : α → β → Prop} {left : List α}
    {right : List β} (pairs : List.Forall₂ related left right) {second : β}
    (member : second ∈ right) : ∃ first ∈ left, related first second := by
  induction pairs with
  | nil => cases member
  | cons pair _ ih =>
      rcases List.mem_cons.mp member with rfl | behind
      · exact ⟨_, List.mem_cons_self, pair⟩
      · obtain ⟨first, inside, related⟩ := ih behind
        exact ⟨first, List.mem_cons_of_mem _ inside, related⟩

/-- Two playlists that differ at most in their path and their virtual tracks, and in what the
tracks have been read as. -/
structure SameTimeline (reread : IMFTrack → IMFTrack) (playlist other : IMFCompositionPlaylist) :
    Prop where
  uuid : other.uuid = playlist.uuid
  editRate : other.editRate = playlist.editRate
  header : other.header = playlist.header
  timeline : other.timeline = playlist.timeline.map (SegmentValue.mapTracks reread)

namespace IMFCompositionPlaylist

variable {playlist other : IMFCompositionPlaylist}

theorem map_sequence_sequences (playlist : IMFCompositionPlaylist) :
    playlist.sequences.map playlist.sequence = playlist.timeline.flatMap SegmentValue.sequences := by
  rw [sequences, timeline, List.map_flatMap, List.flatMap_map]
  rfl

theorem resources_eq (playlist : IMFCompositionPlaylist) :
    playlist.resources = playlist.timeline.flatMap fun segment =>
      segment.sequences.flatMap CPLSequence.items := by
  rw [resources, ← List.flatMap_assoc, ← map_sequence_sequences, List.flatMap_map]

theorem distinct_iff (playlist : IMFCompositionPlaylist) :
    playlist.Distinct ↔ (playlist.timeline.map SegmentValue.uuid).Nodup ∧
      ((playlist.timeline.flatMap SegmentValue.sequences).map CPLSequence.uuid).Nodup := by
  have segments : playlist.segments.map playlist.segmentUUID =
      playlist.timeline.map SegmentValue.uuid := by
    rw [timeline, List.map_map]
    rfl
  have sequences : playlist.sequences.map playlist.sequenceUUID =
      (playlist.timeline.flatMap SegmentValue.sequences).map CPLSequence.uuid := by
    rw [← map_sequence_sequences, List.map_map]
    rfl
  rw [← segments, ← sequences]
  exact ⟨fun distinct => ⟨distinct.segments, distinct.sequences⟩, fun both => ⟨both.1, both.2⟩⟩

theorem forall_segment_iff (property : List CPLSequence → Prop) :
    (∀ segment ∈ playlist.segments,
      property ((playlist.segment segment).items.map playlist.sequence)) ↔
      ∀ segment ∈ playlist.timeline, property segment.sequences := by
  rw [timeline, List.forall_mem_map]
  rfl

end IMFCompositionPlaylist

namespace SameTimeline

variable {reread : IMFTrack → IMFTrack} {playlist other : IMFCompositionPlaylist}

theorem resources (same : SameTimeline reread playlist other) :
    other.resources = playlist.resources.map (CPLResource.mapTrack reread) := by
  rw [IMFCompositionPlaylist.resources_eq, IMFCompositionPlaylist.resources_eq, same.timeline,
    List.flatMap_map, List.map_flatMap]
  congr 1
  funext segment
  rw [SegmentValue.mapTracks, List.flatMap_map, List.map_flatMap]
  rfl

theorem distinct (same : SameTimeline reread playlist other) (distinct : playlist.Distinct) :
    other.Distinct := by
  have sequences (segments : List SegmentValue) :
      ((segments.map (SegmentValue.mapTracks reread)).flatMap SegmentValue.sequences).map
        CPLSequence.uuid = (segments.flatMap SegmentValue.sequences).map CPLSequence.uuid := by
    rw [List.flatMap_map, List.map_flatMap, List.map_flatMap]
    congr 1
    funext segment
    rw [SegmentValue.mapTracks, List.map_map]
    rfl
  rw [IMFCompositionPlaylist.distinct_iff] at distinct ⊢
  rw [same.timeline, sequences, List.map_map]
  exact distinct

theorem forall_segment (same : SameTimeline reread playlist other)
    (property : List CPLSequence → Prop)
    (holds : ∀ segment ∈ playlist.segments,
      property (((playlist.segment segment).items.map playlist.sequence).map
        (CPLSequence.mapTracks reread))) :
    ∀ segment ∈ other.segments, property ((other.segment segment).items.map other.sequence) := by
  rw [IMFCompositionPlaylist.forall_segment_iff, same.timeline, List.forall_mem_map]
  exact (playlist.forall_segment_iff fun sequences =>
    property (sequences.map (CPLSequence.mapTracks reread))).mp holds

end SameTimeline

namespace IMFPackage

variable {disk : FileSystem File} {reread : IMFTrack → IMFTrack} {tracks : List IMFTrack}

theorem readTracks_lists (assets : List TrackFile) (read : IMFPackage × List String)
    (found : ∀ asset ∈ assets,
      disk.read (read.1.pathOf asset.getFileName) = some (.mxf (.ok asset.track))) :
    (assets.map TrackFile.getFileName).foldlM (readPath disk) read = .ok
      ({ read.1 with
        videoTracks := read.1.videoTracks ++ (assets.filter fun asset => asset.track.type = .video).map
          fun asset => ⟨asset.track, read.1.pathOf asset.getFileName⟩
        audioTracks := read.1.audioTracks ++ (assets.filter fun asset => asset.track.type = .audio).map
          fun asset => ⟨asset.track, read.1.pathOf asset.getFileName⟩ }, read.2) := by
  induction assets generalizing read with
  | nil => simp
  | cons asset rest ih =>
      have first := readPath_track asset.extension_getFileName (found asset List.mem_cons_self)
      have pathOf := read.1.pathOf_addTrack ⟨asset.track, read.1.pathOf asset.getFileName⟩
      have behind := ih (read.1.addTrack ⟨asset.track, read.1.pathOf asset.getFileName⟩, read.2)
        fun other member => by
          rw [pathOf]
          exact found other (List.mem_cons_of_mem _ member)
      rw [List.map_cons, List.foldlM_cons, first, ok_bind, behind]
      dsimp only at pathOf ⊢
      rw [pathOf, addTrack]
      cases type : asset.track.type with
      | video => simp [type]
      | audio => simp [type]

theorem parseAndAddXML_same {package : IMFPackage} {playlist : IMFCompositionPlaylist}
    {path : String} {pt : PTree} (written : playlist.write = .ok pt)
    (found : disk.read path = some (.xml pt)) (keeps : KeepsUUID reread)
    (sameTracks : package.tracks.map TrackFile.track = tracks.map reread)
    (distinct : (tracks.map IMFTrack.uuid).Nodup) (resolved : playlist.Resolved tracks)
    (nonempty : ∀ address ∈ playlist.sequences, (playlist.sequence address).items ≠ []) :
    ∃ loaded, IMFCompositionPlaylist.load path pt (tracks.map reread) = .ok loaded ∧
      SameTimeline reread playlist loaded ∧
      parseAndAddXML disk package path = .ok (package.addCompositionPlaylist loaded) := by
  obtain ⟨loaded, read, uuid, editRate, header, timeline⟩ :=
    IMFCompositionPlaylist.load_of_write_reread path keeps written distinct resolved
  rw [IMFCompositionPlaylist.timeline_filled nonempty] at timeline
  obtain ⟨root, rfl, -⟩ := IMFCompositionPlaylist.write_eq_ok written
  have isPlaylist : ((PTree.empty.addChild "CompositionPlaylist" root).getChild?
      ["CompositionPlaylist"]).isSome = true := by
    rw [PTree.getChild?_addChild_self [] root _ rfl]
    rfl
  refine ⟨loaded, read, ⟨uuid, editRate, header, timeline⟩, rethrow_eq_ok.mpr ?_⟩
  simp [readXml, found, isPlaylist, sameTracks, read]

/-- A playlist that has been loaded from a file, with the content of one that was written. -/
def ReadBack (reread : IMFTrack → IMFTrack) (tracks : List IMFTrack)
    (playlist loaded : IMFCompositionPlaylist) : Prop :=
  SameTimeline reread playlist loaded ∧
    ∃ pt, IMFCompositionPlaylist.load loaded.path pt (tracks.map reread) = .ok loaded

/-- Written playlists are read back in their order, wherever they are. -/
theorem parsePlaylists_same (path : IMFCompositionPlaylist → String)
    (playlists : List IMFCompositionPlaylist) (package : IMFPackage) (keeps : KeepsUUID reread)
    (sameTracks : package.tracks.map TrackFile.track = tracks.map reread)
    (distinct : (tracks.map IMFTrack.uuid).Nodup)
    (resolved : ∀ playlist ∈ playlists, playlist.Resolved tracks)
    (nonempty : ∀ playlist ∈ playlists, ∀ address ∈ playlist.sequences,
      (playlist.sequence address).items ≠ [])
    (found : ∀ playlist ∈ playlists, ∃ pt, playlist.write = .ok pt ∧
      disk.read (path playlist) = some (.xml pt)) :
    ∃ loaded, (playlists.map path).foldlM (parseAndAddXML disk) package =
        .ok { package with compositionPlaylists := package.compositionPlaylists ++ loaded } ∧
      List.Forall₂ (fun playlist loaded => loaded.path = path playlist ∧
        ReadBack reread tracks playlist loaded) playlists loaded := by
  induction playlists generalizing package with
  | nil => exact ⟨[], by simp, .nil⟩
  | cons playlist rest ih =>
      obtain ⟨pt, written, content⟩ := found playlist List.mem_cons_self
      obtain ⟨first, read, same, parsed⟩ := parseAndAddXML_same written content keeps sameTracks
        distinct (resolved playlist List.mem_cons_self) (nonempty playlist List.mem_cons_self)
      obtain ⟨loaded, folded, all⟩ := ih (package.addCompositionPlaylist first) sameTracks
        (fun other member => resolved other (List.mem_cons_of_mem _ member))
        (fun other member => nonempty other (List.mem_cons_of_mem _ member))
        (fun other member => found other (List.mem_cons_of_mem _ member))
      have at_ : first.path = path playlist := IMFCompositionPlaylist.path_of_load read
      refine ⟨first :: loaded, ?_, .cons ⟨at_, same, pt, at_.symm ▸ read⟩ all⟩
      rw [List.map_cons, List.foldlM_cons, parsed, ok_bind, folded]
      simp [addCompositionPlaylist]

end IMFPackage

end Imflib.Package
