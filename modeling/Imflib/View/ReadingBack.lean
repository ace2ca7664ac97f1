import Imflib.Package.SameTimeline
import Imflib.View.SavedPackage
import Imflib.View.SessionInvariant

/-! What is read from the folder of a package that was saved, if its files are read once more. -/

namespace Imflib.View

open Imflib.Package

structure WrittenFrom (fileSize : File → Nat) (copied saved : WorkingPackage) : Prop where
  managed : Managed (bare copied)
  placed : copied.package.location ≠ ""
  written : WorkingPackage.Written fileSize copied saved
  files : WritesXml (XmlName (copied.disk.folderOf copied.package.getFullPath)) copied.disk saved.disk

def xmlNames (package : IMFPackage) : List String :=
  package.compositionPlaylists.map (fun playlist => playlistName playlist.uuid) ++
    [packageListName package.uuid]

theorem writtenFrom {fileSize : File → Nat} {refused : Refusals} {copied saved : WorkingPackage}
    (managed : Managed (bare copied)) (placed : copied.package.location ≠ "")
    (succeeded : copied.write fileSize refused = .done saved) : WrittenFrom fileSize copied saved := by
  have list := (managed.packageList_file placed).1
  have written := written_of_names (fun _ member => (managed.playlist_file_bare placed member).1)
    list succeeded
  have files := (managed.write_writing_bare placed fileSize refused).files
  rw [succeeded] at files
  exact ⟨managed, placed, written, files⟩

namespace WrittenFrom

variable {fileSize : File → Nat} {copied saved : WorkingPackage}

theorem playlist (from_ : WrittenFrom fileSize copied saved) {playlist : IMFCompositionPlaylist}
    (member : playlist ∈ copied.package.compositionPlaylists) :
    ∃ pt, playlist.write = .ok pt ∧ saved.disk.file
      (copied.disk.folderOf copied.package.getFullPath, playlistName playlist.uuid) =
        some (.xml pt) := by
  have distinct := from_.managed.distinct
  rw [bare, madeUUIDs_bare, madeUUIDs_placed from_.placed] at distinct
  exact file_of_playlist (fun _ inside => (from_.managed.playlist_file_bare from_.placed inside).1)
    from_.written from_.files (List.nodup_cons.mp distinct).2 member

theorem packageList (from_ : WrittenFrom fileSize copied saved) :
    ∃ pt, pt.getChild? ["CompositionPlaylist"] = none ∧ saved.disk.file
      (copied.disk.folderOf copied.package.getFullPath, packageListName copied.package.uuid) =
        some (.xml pt) := by
  have list : copied.disk.entry copied.package.orNewPackageList.path =
      (copied.disk.folderOf copied.package.getFullPath, packageListName copied.package.uuid) :=
    (from_.managed.packageList_file from_.placed).1
  obtain ⟨pt, other, -, content⟩ := file_of_packageList list from_.written from_.files
  exact ⟨pt, other, content⟩

theorem names_mappedAssets (from_ : WrittenFrom fileSize copied saved) :
    saved.package.mappedAssets.map IMFPackageItem.getFileName =
      copied.package.tracks.map TrackFile.getFileName ++ xmlNames copied.package := by
  have listed := congrArg (List.map Prod.snd) (from_.managed.mappedAssets_listed from_.placed)
  rw [List.map_map] at listed
  rw [from_.written.package]
  have items : (barePackage copied.package).compositionPlaylists.map IMFCompositionPlaylist.item =
      copied.package.compositionPlaylists.map IMFCompositionPlaylist.item := by
    rw [barePackage, List.map_map]
    rfl
  have uuids : listedOf (barePackage copied.package) = listedOf copied.package := by
    simp [listedOf, barePackage, IMFPackage.tracks, List.map_map, Function.comp_def, barePlaylist,
      IMFCompositionPlaylist.new]
  have names : (listedOf copied.package).map Prod.snd =
      copied.package.tracks.map TrackFile.getFileName ++ xmlNames copied.package := by
    simp [listedOf, xmlNames, Function.comp_def]
  rw [← names, ← uuids]
  refine Eq.trans ?_ listed
  simp only [IMFPackage.mappedAssets, IMFPackage.assets, bare, items]
  rfl

theorem plain_xmlNames (from_ : WrittenFrom fileSize copied saved) :
    ∀ name ∈ xmlNames copied.package, ∃ base, name = base ++ ".xml" ∧ '/' ∉ base.toList := by
  intro name member
  rcases List.mem_append.mp member with listed | list
  · obtain ⟨playlist, inside, rfl⟩ := List.mem_map.mp listed
    have bareInside : barePlaylist playlist ∈ (bare copied).package.compositionPlaylists :=
      List.mem_map.mpr ⟨playlist, inside, rfl⟩
    have plain := from_.managed.plain_playlist from_.placed bareInside
    exact ⟨_, rfl, plain⟩
  · cases List.mem_singleton.mp list
    exact ⟨_, rfl, from_.managed.plain_packageList from_.placed⟩

section Read

def readTracks (madeUUID : String → String) (fresh : IMFPackage) (tracks : List TrackFile) :
    List TrackFile :=
  tracks.map fun asset => ⟨asset.track.reread madeUUID, fresh.pathOf asset.getFileName⟩

def readPackage (madeUUID : String → String) (fresh : IMFPackage) (copied saved : WorkingPackage)
    (loaded : List IMFCompositionPlaylist) : IMFPackage :=
  { fresh with
    uuid := saved.package.uuid
    headerAssetMap := saved.package.headerAssetMap
    videoTracks := readTracks madeUUID fresh copied.package.videoTracks
    audioTracks := readTracks madeUUID fresh copied.package.audioTracks
    compositionPlaylists := loaded }

variable {fresh : IMFPackage} {madeUUID : String → String} {tracks : List TrackFile}
  {loaded : List IMFCompositionPlaylist}

theorem map_readTracks : (readTracks madeUUID fresh tracks).map TrackFile.track =
    (tracks.map TrackFile.track).map (IMFTrack.reread madeUUID) := by
  rw [readTracks, List.map_map, List.map_map]
  rfl

theorem tracks_readPackage : (readPackage madeUUID fresh copied saved loaded).tracks =
    readTracks madeUUID fresh copied.package.tracks := by
  rw [IMFPackage.tracks, IMFPackage.tracks, readTracks, List.map_append]
  rfl

theorem map_tracks_readPackage :
    (readPackage madeUUID fresh copied saved loaded).tracks.map TrackFile.track =
      (copied.package.tracks.map TrackFile.track).map (IMFTrack.reread madeUUID) := by
  rw [tracks_readPackage, map_readTracks]

theorem filter_tracks (kinds : TracksByKind copied.package) :
    (copied.package.tracks.filter fun asset => asset.track.type = .video) =
        copied.package.videoTracks ∧
      (copied.package.tracks.filter fun asset => asset.track.type = .audio) =
        copied.package.audioTracks := by
  have all {tracks : List TrackFile} {type : TrackType}
      (same : ∀ asset ∈ tracks, asset.track.type = type) :
      (tracks.filter fun asset => asset.track.type = type) = tracks :=
    List.filter_eq_self.mpr fun asset member => decide_eq_true (same asset member)
  have none_ {tracks : List TrackFile} {type other : TrackType} (different : type ≠ other)
      (same : ∀ asset ∈ tracks, asset.track.type = type) :
      (tracks.filter fun asset => asset.track.type = other) = [] :=
    List.filter_eq_nil_iff.mpr fun asset member => by simp [same asset member, different]
  rw [IMFPackage.tracks, List.filter_append, List.filter_append, all kinds.video, all kinds.audio,
    none_ (by decide) kinds.video, none_ (by decide) kinds.audio, List.append_nil, List.nil_append]
  exact ⟨rfl, rfl⟩

end Read

end WrittenFrom

/-- An empty package under a path that leads to the folder of one that was written, in which the
tracks of that one lie. -/
structure OpensAt (copied saved : WorkingPackage) (fresh : IMFPackage) : Prop where
  location : fresh.location ≠ ""
  name : fresh.name ≠ ""
  videoTracks : fresh.videoTracks = []
  audioTracks : fresh.audioTracks = []
  compositionPlaylists : fresh.compositionPlaylists = []
  outputProfiles : fresh.outputProfiles = []
  packageList : fresh.packageList = none
  folder : saved.disk.folderOf fresh.getFullPath = copied.disk.folderOf copied.package.getFullPath
  files : ∀ asset ∈ copied.package.tracks, saved.disk.file
    (copied.disk.folderOf copied.package.getFullPath, asset.getFileName) =
      some (.mxf (.ok asset.track))

namespace OpensAt

variable {copied saved : WorkingPackage} {fresh : IMFPackage} {madeUUID : String → String}

theorem read_pathOf (opens : OpensAt copied saved fresh) {name : String}
    (plain : '/' ∉ name.toList) (nonempty : name ≠ "") :
    (saved.disk.map (File.reread madeUUID)).read (fresh.pathOf name) =
      (saved.disk.file (copied.disk.folderOf copied.package.getFullPath, name)).map
        (File.reread madeUUID) := by
  rw [FileSystem.read_map, FileSystem.read, IMFPackage.pathOf,
    FileSystem.entry_join _ _ plain nonempty, opens.folder]

theorem read_track (opens : OpensAt copied saved fresh) {asset : TrackFile}
    (member : asset ∈ copied.package.tracks) :
    (saved.disk.map (File.reread madeUUID)).read (fresh.pathOf asset.getFileName) =
      some (.mxf (.ok (asset.track.reread madeUUID))) := by
  rw [opens.read_pathOf asset.slash_not_mem_getFileName asset.getFileName_ne_empty,
    opens.files asset member]
  rfl

end OpensAt

namespace WrittenFrom

variable {fileSize : File → Nat} {copied saved : WorkingPackage} {fresh : IMFPackage}
  {madeUUID : String → String}

theorem read_xml (from_ : WrittenFrom fileSize copied saved) (opens : OpensAt copied saved fresh)
    {name : String} (listed : name ∈ xmlNames copied.package) {pt : PTree}
    (found : saved.disk.file (copied.disk.folderOf copied.package.getFullPath, name) =
      some (.xml pt)) :
    (saved.disk.map (File.reread madeUUID)).read (fresh.pathOf name) = some (.xml pt) := by
  obtain ⟨base, rfl, plain⟩ := from_.plain_xmlNames name listed
  have nonempty : base ++ ".xml" ≠ "" := append_ne_empty base (by decide)
  rw [opens.read_pathOf (slash_not_mem_append plain (by decide)) nonempty, found]
  rfl

theorem read_assetMap (from_ : WrittenFrom fileSize copied saved) (opens : OpensAt copied saved fresh) :
    ∃ refused disk pt, IMFPackage.assetMapTree fileSize refused disk saved.package = .ok pt ∧
      (saved.disk.map (File.reread madeUUID)).read (fresh.pathOf "ASSETMAP.xml") =
        some (.xml pt) := by
  obtain ⟨refused, disk, pt, written, content⟩ := from_.written.assetMap
  refine ⟨refused, disk, pt, written, ?_⟩
  rw [FileSystem.read, from_.files.entry, assetMap_file] at content
  rw [opens.read_pathOf (by decide) (by decide), content]
  rfl

theorem read_tracks (kinds : TracksByKind copied.package) (opens : OpensAt copied saved fresh) :
    (copied.package.tracks.map TrackFile.getFileName).foldlM
      (IMFPackage.readPath (saved.disk.map (File.reread madeUUID)))
      ({ fresh with
        uuid := saved.package.uuid
        headerAssetMap := saved.package.headerAssetMap }, []) =
      .ok (readPackage madeUUID fresh copied saved [], []) := by
  have found : ∀ asset ∈ copied.package.tracks.map (TrackFile.reread madeUUID),
      (saved.disk.map (File.reread madeUUID)).read (fresh.pathOf asset.getFileName) =
        some (.mxf (.ok asset.track)) := by
    rw [List.forall_mem_map]
    intro asset member
    rw [asset.getFileName_reread]
    exact opens.read_track member
  have lists := IMFPackage.readTracks_lists
    (copied.package.tracks.map (TrackFile.reread madeUUID))
    ({ fresh with
      uuid := saved.package.uuid
      headerAssetMap := saved.package.headerAssetMap }, []) found
  have names : (copied.package.tracks.map (TrackFile.reread madeUUID)).map TrackFile.getFileName =
      copied.package.tracks.map TrackFile.getFileName := List.map_map
  have ofKind (type : TrackType) :
      ((copied.package.tracks.map (TrackFile.reread madeUUID)).filter fun asset =>
        asset.track.type = type) =
        (copied.package.tracks.filter fun asset => asset.track.type = type).map
          (TrackFile.reread madeUUID) := List.filter_map
  obtain ⟨video, audio⟩ := filter_tracks kinds
  rw [names, ofKind, ofKind, video, audio, List.map_map, List.map_map] at lists
  refine lists.trans ?_
  dsimp only
  rw [opens.videoTracks, opens.audioTracks, opens.compositionPlaylists]
  rfl

theorem read_xmlNames (from_ : WrittenFrom fileSize copied saved) (disk : FileSystem File)
    (package : IMFPackage) : (xmlNames copied.package).foldlM (IMFPackage.readPath disk)
      (package, []) = .ok (package, (xmlNames copied.package).map package.pathOf) := by
  refine IMFPackage.readXmlNames (xmlNames copied.package) (package, []) fun name member => ?_
  obtain ⟨base, rfl, plain⟩ := from_.plain_xmlNames name member
  exact extension_xml plain

/-- The playlists are read when all tracks are there. -/
theorem read_playlists (from_ : WrittenFrom fileSize copied saved) (opens : OpensAt copied saved fresh)
    (distinct : (trackUUIDs copied.package).Nodup)
    (playlists : ∀ playlist ∈ copied.package.compositionPlaylists,
      Sound playlist ∧ HoldsTracks copied.package playlist) :
    ∃ loaded, (copied.package.compositionPlaylists.map fun playlist =>
        fresh.pathOf (playlistName playlist.uuid)).foldlM
          (IMFPackage.parseAndAddXML (saved.disk.map (File.reread madeUUID)))
          (readPackage madeUUID fresh copied saved []) =
        .ok (readPackage madeUUID fresh copied saved loaded) ∧
      List.Forall₂ (fun playlist loaded =>
        loaded.path = fresh.pathOf (playlistName playlist.uuid) ∧
          IMFPackage.ReadBack (IMFTrack.reread madeUUID)
            (copied.package.tracks.map TrackFile.track) playlist loaded)
        copied.package.compositionPlaylists loaded := by
  have distinctTracks : ((copied.package.tracks.map TrackFile.track).map IMFTrack.uuid).Nodup := by
    rw [List.map_map]
    exact distinct
  refine IMFPackage.parsePlaylists_same (fun playlist => fresh.pathOf (playlistName playlist.uuid))
    copied.package.compositionPlaylists (readPackage madeUUID fresh copied saved [])
    (keepsUUID_reread madeUUID) map_tracks_readPackage distinctTracks ?_ ?_ ?_
  · intro playlist member address inside resource held
    exact (playlists playlist member).2 resource ⟨address, held⟩
  · intro playlist member
    exact (playlists playlist member).1.resources
  · intro playlist member
    obtain ⟨pt, wrote, content⟩ := from_.playlist member
    have listed : playlistName playlist.uuid ∈ xmlNames copied.package :=
      List.mem_append_left _ (List.mem_map.mpr ⟨playlist, member, rfl⟩)
    exact ⟨pt, wrote, from_.read_xml opens listed content⟩

theorem read_packageList (from_ : WrittenFrom fileSize copied saved)
    (opens : OpensAt copied saved fresh) (package : IMFPackage) :
    IMFPackage.parseAndAddXML (saved.disk.map (File.reread madeUUID)) package
      (fresh.pathOf (packageListName copied.package.uuid)) = .ok package := by
  obtain ⟨pt, other, content⟩ := from_.packageList
  have listed : packageListName copied.package.uuid ∈ xmlNames copied.package :=
    List.mem_append_right _ List.mem_cons_self
  exact IMFPackage.parseAndAddXML_other (from_.read_xml opens listed content) other

theorem readAssetMap (from_ : WrittenFrom fileSize copied saved) (kinds : TracksByKind copied.package)
    (opens : OpensAt copied saved fresh) (distinct : (trackUUIDs copied.package).Nodup)
    (playlists : ∀ playlist ∈ copied.package.compositionPlaylists,
      Sound playlist ∧ HoldsTracks copied.package playlist) :
    ∃ loaded, fresh.readAssetMap (saved.disk.map (File.reread madeUUID))
        (fresh.pathOf "ASSETMAP.xml") = .ok (readPackage madeUUID fresh copied saved loaded) ∧
      List.Forall₂ (fun playlist loaded =>
        loaded.path = fresh.pathOf (playlistName playlist.uuid) ∧
          IMFPackage.ReadBack (IMFTrack.reread madeUUID)
            (copied.package.tracks.map TrackFile.track) playlist loaded)
        copied.package.compositionPlaylists loaded := by
  obtain ⟨refused, disk, pt, written, content⟩ := from_.read_assetMap opens
  obtain ⟨loaded, parsed, pairs⟩ := from_.read_playlists opens distinct playlists
  refine ⟨loaded, ?_, pairs⟩
  have standard : saved.package.headerAssetMap = .standard := by
    rw [from_.written.package]
    exact from_.managed.header
  have names : (saved.package.mappedAssets.map IMFPackageItem.getFileName).foldlM
      (IMFPackage.readPath (saved.disk.map (File.reread madeUUID)))
      ({ fresh with
        uuid := saved.package.uuid
        headerAssetMap := saved.package.headerAssetMap }, []) =
      .ok (readPackage madeUUID fresh copied saved [], (xmlNames copied.package).map
        (readPackage madeUUID fresh copied saved []).pathOf) := by
    rw [from_.names_mappedAssets, List.foldlM_append]
    exact bind_eq_ok.mpr ⟨_, read_tracks kinds opens, from_.read_xmlNames _ _⟩
  have parses : ((xmlNames copied.package).map
      (readPackage madeUUID fresh copied saved []).pathOf).foldlM
        (IMFPackage.parseAndAddXML (saved.disk.map (File.reread madeUUID)))
        (readPackage madeUUID fresh copied saved []) =
        .ok (readPackage madeUUID fresh copied saved loaded) := by
    rw [xmlNames, List.map_append, List.foldlM_append, List.map_map, List.map_singleton]
    refine bind_eq_ok.mpr ⟨_, parsed, ?_⟩
    rw [List.foldlM_cons]
    exact bind_eq_ok.mpr ⟨_, from_.read_packageList opens _, rfl⟩
  exact IMFPackage.readAssetMap_written written (by rw [standard]; decide)
    (by rw [standard]; decide) content names parses

end WrittenFrom

/-- A playlist that has been read back is as sound as it was. -/
theorem Sound.of_readBack {reread : IMFTrack → IMFTrack} {tracks : List IMFTrack}
    {playlist loaded : IMFCompositionPlaylist} (sound : Sound playlist)
    (read : IMFPackage.ReadBack reread tracks playlist loaded) : Sound loaded := by
  obtain ⟨same, pt, load⟩ := read
  refine Sound.of_initial (.loaded load (same.distinct sound.distinct) ?_ ?_ ?_)
  · have nonempty : ∀ segment ∈ playlist.segments,
        (playlist.segment segment).items.map playlist.sequence ≠ [] := by
      intro segment member empty
      exact sound.filled.groups segment member (List.map_eq_nil_iff.mp empty)
    intro segment member empty
    refine same.forall_segment (· ≠ []) (fun segment member empty => ?_) segment member ?_
    · exact nonempty segment member (List.map_eq_nil_iff.mp empty)
    · rw [empty, List.map_nil]
  · have nonempty : ∀ segment ∈ playlist.segments, ∀ sequence ∈
        (playlist.segment segment).items.map playlist.sequence, sequence.items ≠ [] := by
      intro segment member sequence inside
      obtain ⟨address, listed, rfl⟩ := List.mem_map.mp inside
      exact sound.resources address (IMFCompositionPlaylist.mem_sequences_of_mem member listed)
    have still := same.forall_segment
      (fun sequences => ∀ sequence ∈ sequences, sequence.items ≠ []) fun segment member => by
        refine List.forall_mem_map.mpr fun sequence inside empty => ?_
        exact nonempty segment member sequence inside (List.map_eq_nil_iff.mp empty)
    intro address member
    obtain ⟨segment, listed, inside⟩ := List.mem_flatMap.mp member
    exact still segment listed _ (List.mem_map_of_mem inside)
  · have once : ∀ segment ∈ playlist.segments, ((((playlist.segment segment).items.map
        playlist.sequence).map (CPLSequence.mapTracks reread)).map
          CPLSequence.virtualTrackId).Nodup := by
      intro segment member
      rw [List.map_map, List.map_map]
      exact sound.onePerTrack segment member
    intro segment member
    have still := same.forall_segment
      (fun sequences => (sequences.map CPLSequence.virtualTrackId).Nodup) once segment member
    rwa [List.map_map] at still

theorem HoldsTracks.of_readBack {reread : IMFTrack → IMFTrack} {package after : IMFPackage}
    {tracks : List IMFTrack} {playlist loaded : IMFCompositionPlaylist}
    (holds : HoldsTracks package playlist)
    (read : IMFPackage.ReadBack reread tracks playlist loaded)
    (sameTracks : after.tracks.map TrackFile.track =
      (package.tracks.map TrackFile.track).map reread) : HoldsTracks after loaded := by
  obtain ⟨same, pt, load⟩ := read
  intro resource held
  have listed := IMFCompositionPlaylist.mem_resources_of_held load held
  rw [same.resources] at listed
  obtain ⟨old, inside, rfl⟩ := List.mem_map.mp listed
  obtain ⟨track, editRate⟩ := holds old (.of_mem_resources inside)
  rw [sameTracks, same.editRate]
  exact ⟨List.mem_map_of_mem track, editRate⟩

end Imflib.View
