import Imflib.Package.AssetOrder
import Imflib.Package.TrackCopying

/-! What is loaded from the files that an asset map lists. -/

namespace Imflib.Package

def HoldsPlaylist (disk : FileSystem File) (path : String) (playlist : IMFCompositionPlaylist) :
    Prop :=
  playlist.path = path ∧ ∃ xml id, disk.read path = some (.xml xml) ∧
    xml.text? ["CompositionPlaylist", "Id"] = some id ∧ playlist.uuid = uuidClean id

/-- The tracks that an asset map lists: videos first, each in the order of the map. -/
def listedTracks (disk : FileSystem File) (package : IMFPackage) (pt : PTree) : List TrackFile :=
  let read := tracksIn disk
    (((readNames pt).filter fun name => FilePath.extension name = ".mxf").map package.pathOf)
  (read.filter fun asset => asset.track.type = .video) ++
    read.filter fun asset => asset.track.type = .audio

/-- The paths of the files with an extension that an asset map lists. -/
theorem mem_pathsOf {package : IMFPackage} {pt : PTree} {extension path : String} :
    path ∈ ((readNames pt).filter fun name => FilePath.extension name = extension).map
        package.pathOf ↔
      ∃ name ∈ readNames pt, FilePath.extension name = extension ∧ path = package.pathOf name := by
  simp only [List.mem_map, List.mem_filter, decide_eq_true_eq]
  constructor
  · rintro ⟨name, ⟨listed, extended⟩, rfl⟩
    exact ⟨name, listed, extended, rfl⟩
  · rintro ⟨name, listed, extended, rfl⟩
    exact ⟨name, ⟨listed, extended⟩, rfl⟩

structure LoadedFrom (disk : FileSystem File) (pt : PTree) (package : IMFPackage) : Prop where
  map : disk.read (package.pathOf "ASSETMAP.xml") = some (.xml pt)
  tracks : package.tracks = listedTracks disk package pt
  tracksRead : ∀ asset ∈ package.tracks,
    disk.read asset.path = some (.mxf (.ok asset.track)) ∧
      ∃ name ∈ readNames pt, FilePath.extension name = ".mxf" ∧ asset.path = package.pathOf name
  tracksListed : ∀ name ∈ readNames pt, FilePath.extension name = ".mxf" →
    ∃ asset ∈ package.tracks, asset.path = package.pathOf name
  documents : ∀ name ∈ readNames pt, FilePath.extension name = ".xml" →
    ∃ xml, disk.read (package.pathOf name) = some (.xml xml)
  playlistsRead : ∀ playlist ∈ package.compositionPlaylists,
    ∃ name ∈ readNames pt, FilePath.extension name = ".xml" ∧
      HoldsPlaylist disk (package.pathOf name) playlist
  playlistsListed : ∀ name ∈ readNames pt, FilePath.extension name = ".xml" →
    isPlaylist disk (package.pathOf name) = true →
    ∃ playlist ∈ package.compositionPlaylists, playlist.path = package.pathOf name
  packageList : package.packageList = none
  outputProfiles : package.outputProfiles = []

theorem HoldsPlaylist.uuid_eq {disk : FileSystem File} {path otherPath : String}
    {playlist other : IMFCompositionPlaylist} (holds : HoldsPlaylist disk path playlist)
    (otherHolds : HoldsPlaylist disk otherPath other)
    (same : disk.entry otherPath = disk.entry path) : other.uuid = playlist.uuid := by
  obtain ⟨-, xml, id, found, text, uuid⟩ := holds
  obtain ⟨-, otherXml, otherId, otherFound, otherText, otherUUID⟩ := otherHolds
  rw [FileSystem.read, same, ← FileSystem.read, found] at otherFound
  cases Option.some.inj otherFound
  rw [text] at otherText
  rw [otherUUID, uuid, Option.some.inj otherText]

section Load

variable {disk : FileSystem File} {package loaded : IMFPackage} {filename : String} {pt : PTree}

theorem mem_tracksIn {paths : List String} {asset : TrackFile} :
    asset ∈ tracksIn disk paths ↔
      asset.path ∈ paths ∧ disk.read asset.path = some (.mxf (.ok asset.track)) := by
  unfold tracksIn
  rw [List.mem_filterMap]
  constructor
  · intro found
    obtain ⟨path, member, same⟩ := found
    split at same
    · rename_i track content
      cases Option.some.inj same
      exact ⟨member, content⟩
    · cases same
  · intro found
    refine ⟨asset.path, found.1, ?_⟩
    rw [found.2]

theorem mem_tracks_addTracks (noTracks : package.tracks = []) (assets : List TrackFile)
    (asset : TrackFile) : asset ∈ (package.addTracks assets).tracks ↔ asset ∈ assets := by
  obtain ⟨noVideo, noAudio⟩ := List.append_eq_nil_iff.mp noTracks
  rw [IMFPackage.addTracks_eq, IMFPackage.tracks, noVideo, noAudio, List.nil_append,
    List.nil_append, List.mem_append, List.mem_filter, List.mem_filter]
  cases type : asset.track.type <;> simp

theorem holdsPlaylist_of_playlistIn {tracks : List IMFTrack} {path : String}
    {playlist : IMFCompositionPlaylist} (held : playlistIn disk tracks path = some playlist) :
    HoldsPlaylist disk path playlist := by
  unfold playlistIn at held
  split at held
  · rename_i xml found
    split at held
    · cases loads : IMFCompositionPlaylist.load path xml tracks with
      | error error =>
          rw [loads] at held
          cases held
      | ok read =>
          rw [loads] at held
          cases Option.some.inj held
          obtain ⟨value, reads, rfl⟩ := IMFCompositionPlaylist.eq_build_of_load loads
          have details := (IMFCompositionPlaylist.build_spec path value).2.2
          simp only [IMFCompositionPlaylist.details, Prod.mk.injEq] at details
          obtain ⟨cplUUID, id, rest⟩ := bind_eq_ok.mp reads
          obtain ⟨headerNode, -, rest⟩ := bind_eq_ok.mp rest
          obtain ⟨header, -, rest⟩ := bind_eq_ok.mp rest
          obtain ⟨cplEditRate, -, rest⟩ := bind_eq_ok.mp rest
          obtain ⟨editRate, -, rest⟩ := bind_eq_ok.mp rest
          obtain ⟨segmentList, -, rest⟩ := bind_eq_ok.mp rest
          obtain ⟨segments, -, last⟩ := bind_eq_ok.mp rest
          refine ⟨details.2.1, xml, cplUUID, found, text_of_getString id, ?_⟩
          rw [details.1, ← Except.ok.inj last]
    · cases held
  · cases held

theorem documents_pass (map : disk.read filename = some (.xml pt))
    (loads : package.readAssetMap disk filename = .ok loaded) {name : String}
    (listed : name ∈ readNames pt) (xml : FilePath.extension name = ".xml") :
    firstFailure (xmlChecks disk (readTracks disk package pt) (package.pathOf name)) = none := by
  have checks := (loads_iff map).mp ⟨loaded, loads⟩
  rw [firstFailure_append] at checks
  have documents := firstFailure_eq_none.mp (Option.or_eq_none_iff.mp checks).2
  exact firstFailure_eq_none.mpr fun check member => documents check
    (List.mem_flatMap.mpr ⟨_, mem_pathsOf.mpr ⟨name, listed, xml, rfl⟩, member⟩)

theorem document_of_loads (map : disk.read filename = some (.xml pt))
    (loads : package.readAssetMap disk filename = .ok loaded) {name : String}
    (listed : name ∈ readNames pt) (xml : FilePath.extension name = ".xml") :
    ∃ tree, disk.read (package.pathOf name) = some (.xml tree) := by
  have passed := documents_pass map loads listed xml
  unfold xmlChecks at passed
  split at passed
  · exact ⟨_, ‹_›⟩
  · cases passed

/-- If the package is loaded, so is every playlist that its map lists. -/
theorem playlistIn_of_loads (map : disk.read filename = some (.xml pt))
    (loads : package.readAssetMap disk filename = .ok loaded) {name : String}
    (listed : name ∈ readNames pt) (xml : FilePath.extension name = ".xml")
    (holds : isPlaylist disk (package.pathOf name) = true) :
    ∃ playlist, playlistIn disk (readTracks disk package pt) (package.pathOf name) =
      some playlist := by
  have passed := documents_pass map loads listed xml
  unfold isPlaylist at holds
  split at holds
  · rename_i tree found
    rw [xmlChecks, found] at passed
    simp only [holds, if_pos] at passed
    rw [← failure_loadPlaylist _ (package.pathOf name), failure_eq_none] at passed
    obtain ⟨playlist, reads⟩ := passed
    refine ⟨playlist, ?_⟩
    rw [playlistIn, found]
    simp only [holds, if_pos, reads, Except.toOption]
  · cases holds

theorem loadedFrom_of_read (map : disk.read (package.pathOf "ASSETMAP.xml") = some (.xml pt))
    (loads : package.readAssetMap disk (package.pathOf "ASSETMAP.xml") = .ok loaded)
    (noTracks : package.tracks = []) (noPlaylists : package.compositionPlaylists = [])
    (noList : package.packageList = none) (noProfiles : package.outputProfiles = []) :
    LoadedFrom disk pt loaded := by
  obtain ⟨isTrack, uuid, header, same⟩ := readAssetMap_eq_ok map loads
  have pathOf : loaded.pathOf = package.pathOf := by
    rw [same, IMFPackage.addTracks_eq]
    rfl
  have tracks : ∀ asset, asset ∈ loaded.tracks ↔ asset ∈ tracksIn disk (((readNames pt).filter
      fun name => FilePath.extension name = ".mxf").map package.pathOf) := by
    rw [same]
    exact @mem_tracks_addTracks { package with uuid := uuid, headerAssetMap := header } noTracks _
  have playlists : loaded.compositionPlaylists =
      (((readNames pt).filter fun name => FilePath.extension name = ".xml").map
        package.pathOf).filterMap (playlistIn disk (readTracks disk package pt)) := by
    rw [same]
    dsimp only
    rw [noPlaylists, List.nil_append]
  refine
    { map := ?_
      tracks := ?_
      tracksRead := ?_
      tracksListed := ?_
      documents := ?_
      playlistsRead := ?_
      playlistsListed := ?_
      packageList := ?_
      outputProfiles := ?_ }
  · rw [pathOf]
    exact map
  · obtain ⟨noVideo, noAudio⟩ := List.append_eq_nil_iff.mp noTracks
    rw [listedTracks, pathOf, same, IMFPackage.addTracks_eq, IMFPackage.tracks, noVideo, noAudio,
      List.nil_append, List.nil_append]
  · intro asset member
    obtain ⟨path, content⟩ := mem_tracksIn.mp ((tracks asset).mp member)
    rw [pathOf]
    exact ⟨content, mem_pathsOf.mp path⟩
  · intro name member mxf
    obtain ⟨track, content⟩ := isTrack name member mxf
    refine ⟨⟨track, package.pathOf name⟩, (tracks _).mpr (mem_tracksIn.mpr
      ⟨mem_pathsOf.mpr ⟨name, member, mxf, rfl⟩, content⟩), ?_⟩
    rw [pathOf]
  · intro name member xml
    rw [pathOf]
    exact document_of_loads map loads member xml
  · intro playlist member
    rw [playlists] at member
    obtain ⟨path, inside, held⟩ := List.mem_filterMap.mp member
    obtain ⟨name, listed, xml, rfl⟩ := mem_pathsOf.mp inside
    refine ⟨name, listed, xml, ?_⟩
    rw [pathOf]
    exact holdsPlaylist_of_playlistIn held
  · intro name member xml holds
    rw [pathOf] at holds ⊢
    obtain ⟨playlist, held⟩ := playlistIn_of_loads map loads member xml holds
    refine ⟨playlist, ?_, (holdsPlaylist_of_playlistIn held).1⟩
    rw [playlists]
    exact List.mem_filterMap.mpr ⟨_, mem_pathsOf.mpr ⟨name, member, xml, rfl⟩, held⟩
  · rw [same, IMFPackage.addTracks_eq]
    exact noList
  · rw [same, IMFPackage.addTracks_eq]
    exact noProfiles

theorem loadedFrom {directory : String} (loads : IMFPackage.load disk directory = .ok loaded) :
    ∃ pt, LoadedFrom disk pt loaded := by
  obtain ⟨pt, read, -⟩ := bind_eq_ok.mp (rethrow_eq_ok.mp loads)
  exact ⟨pt, loadedFrom_of_read (readXml_eq_ok read) loads rfl rfl rfl rfl⟩

theorem readNames_eq (pt : PTree) : readNames pt = (listedAssets pt).map Prod.snd := by
  rw [readNames, chunkLists, listedAssets, childrenAt]
  generalize (pt.getChild? ["AssetMap", "AssetList"]).elim [] PTree.children = assets
  induction assets with
  | nil => rfl
  | cons asset rest ih =>
      rw [List.flatMap_cons, List.map_append, ← ih, listedIn]
      by_cases isAsset : asset.1 = "Asset"
      · simp only [isAsset, decide_true, List.filter_cons_of_pos, if_true, List.map_cons,
          List.flatten_cons, List.map_append, List.map_map]
        rfl
      · simp [isAsset]

end Load

section Names

variable {package : IMFPackage} {name : String}

theorem IMFPackageItem.getFileName_of_path {item : IMFPackageItem}
    (path : item.path = package.pathOf name) (extension : FilePath.extension name =
      if item.type = .video ∨ item.type = .audio then ".mxf" else ".xml") :
    item.getFileName = FilePath.filename name := by
  have extended : FilePath.extension name ≠ "" := by
    rw [extension]
    split <;> decide
  have last : FilePath.filename item.path = FilePath.filename name := by
    rw [path]
    exact FilePath.filename_behind _ extended
  rw [getFileName, ← extension, FilePath.stem_congr last, FilePath.stem_append_extension]

theorem TrackFile.getFileName_of_path {asset : TrackFile} (path : asset.path = package.pathOf name)
    (mxf : FilePath.extension name = ".mxf") : asset.getFileName = FilePath.filename name := by
  apply IMFPackageItem.getFileName_of_path (show asset.item.path = _ from path)
  rw [mxf, item]
  cases asset.track.type <;> rfl

theorem IMFCompositionPlaylist.getFileName_of_path {playlist : IMFCompositionPlaylist}
    (path : playlist.path = package.pathOf name) (xml : FilePath.extension name = ".xml") :
    playlist.item.getFileName = FilePath.filename name :=
  IMFPackageItem.getFileName_of_path (show playlist.item.path = _ from path) xml

end Names

/-- Tracks that were loaded lie under their bare names. -/
theorem LoadedFrom.named {disk : FileSystem File} {package : IMFPackage} {pt : PTree}
    (loaded : LoadedFrom disk pt package) : NamedByPath package.tracks := by
  intro asset member
  obtain ⟨-, name, -, mxf, path⟩ := loaded.tracksRead asset member
  rw [asset.getFileName_of_path path mxf, path]
  refine FilePath.filename_behind _ ?_
  rw [mxf]
  decide

end Imflib.Package
