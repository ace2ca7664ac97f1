import Imflib.Package.LoadErrors
import Imflib.Package.PlaylistResave

/-! Loading a package does not depend on the order in which the asset map lists the assets. -/

namespace Imflib.Package

section Searches

variable {tracks others : List IMFTrack}

def SameSearches (tracks others : List IMFTrack) : Prop :=
  ∀ uuid, KeyedList.find IMFTrack.uuid uuid tracks = KeyedList.find IMFTrack.uuid uuid others

theorem SameSearches.loadResource (same : SameSearches tracks others) (node : PTree)
    (cplEditRate : String) :
    CPLResource.load node cplEditRate tracks = CPLResource.load node cplEditRate others := by
  unfold CPLResource.load
  simp only [same _]

theorem SameSearches.readResources (same : SameSearches tracks others) (cplEditRate : String)
    (nodes : List (String × PTree)) :
    readResources tracks cplEditRate nodes = readResources others cplEditRate nodes := by
  induction nodes with
  | nil => rfl
  | cons child rest ih =>
      obtain ⟨key, node⟩ := child
      simp only [Package.readResources, ih, same.loadResource]

theorem SameSearches.readSequences (same : SameSearches tracks others) (cplEditRate : String)
    (nodes : List (String × PTree)) :
    readSequences tracks cplEditRate nodes = readSequences others cplEditRate nodes := by
  induction nodes with
  | nil => rfl
  | cons child rest ih =>
      simp only [Package.readSequences, readSequence, ih, same.readResources]

theorem SameSearches.readSegments (same : SameSearches tracks others) (cplEditRate : String)
    (nodes : List (String × PTree)) :
    readSegments tracks cplEditRate nodes = readSegments others cplEditRate nodes := by
  induction nodes with
  | nil => rfl
  | cons child rest ih =>
      simp only [Package.readSegments, readSegment, ih, same.readSequences]

theorem SameSearches.loadPlaylist (same : SameSearches tracks others) (path : String) (pt : PTree) :
    IMFCompositionPlaylist.load path pt tracks = IMFCompositionPlaylist.load path pt others := by
  rw [IMFCompositionPlaylist.load_eq, IMFCompositionPlaylist.load_eq]
  simp only [readPlaylist, same.readSegments]

end Searches

def SamePlaylist (first second : PTree) : Prop :=
  ∀ path, first.getChild? ("CompositionPlaylist" :: path) =
    second.getChild? ("CompositionPlaylist" :: path)

theorem SamePlaylist.load {first second : PTree} (same : SamePlaylist first second) (path : String)
    (tracks : List IMFTrack) :
    IMFCompositionPlaylist.load path first tracks = IMFCompositionPlaylist.load path second tracks := by
  unfold IMFCompositionPlaylist.load
  simp only [getString, getChild, PTree.getString, PTree.getChild, same _]

def playlistIn (disk : FileSystem File) (tracks : List IMFTrack) (path : String) :
    Option IMFCompositionPlaylist :=
  match disk.read path with
  | some (.xml pt) =>
      if (pt.getChild? ["CompositionPlaylist"]).isSome then
        (IMFCompositionPlaylist.load path pt tracks).toOption
      else none
  | _ => none

structure LoadedInOrder (disk : FileSystem File) (before : IMFPackage) (pt : PTree)
    (loaded : IMFPackage) : Prop where
  tracks : loaded.tracks.map TrackFile.track = readTracks disk before pt
  videoTracks : loaded.videoTracks = (before.addTracks (tracksIn disk
    (((readNames pt).filter fun name => FilePath.extension name = ".mxf").map
      before.pathOf))).videoTracks
  audioTracks : loaded.audioTracks = (before.addTracks (tracksIn disk
    (((readNames pt).filter fun name => FilePath.extension name = ".mxf").map
      before.pathOf))).audioTracks
  compositionPlaylists : loaded.compositionPlaylists = before.compositionPlaylists ++
    (((readNames pt).filter fun name => FilePath.extension name = ".xml").map
      before.pathOf).filterMap (playlistIn disk (readTracks disk before pt))

section Load

variable {disk : FileSystem File} {package loaded : IMFPackage} {filename : String} {pt : PTree}

theorem readXml_eq_ok {path : String} (read : readXml disk path = .ok pt) :
    disk.read path = some (.xml pt) := by
  unfold readXml at read
  split at read
  · rename_i found
    exact Except.ok.inj read ▸ found
  · cases read
  · cases read

theorem parseXMLs_filterMap {paths : List String}
    (parsed : paths.foldlM (IMFPackage.parseAndAddXML disk) package = .ok loaded) :
    loaded =
      { package with
        compositionPlaylists := package.compositionPlaylists ++
          paths.filterMap (playlistIn disk (package.tracks.map TrackFile.track)) } := by
  induction paths generalizing package with
  | nil =>
      cases parsed
      rw [List.filterMap_nil, List.append_nil]
  | cons path rest ih =>
      rw [List.foldlM_cons] at parsed
      obtain ⟨next, first, later⟩ := bind_eq_ok.mp parsed
      obtain ⟨xml, read, step⟩ := bind_eq_ok.mp (rethrow_eq_ok.mp first)
      have found := readXml_eq_ok read
      rw [ih later]
      split at step
      · rename_i root
        obtain ⟨playlist, loads, last⟩ := bind_eq_ok.mp step
        have here : playlistIn disk (package.tracks.map TrackFile.track) path = some playlist := by
          rw [playlistIn, found]
          simp only [if_pos root, loads, Except.toOption]
        rw [← Except.ok.inj last, List.filterMap_cons_some here]
        simp [IMFPackage.addCompositionPlaylist, IMFPackage.tracks]
      · rename_i notRoot
        have here : playlistIn disk (package.tracks.map TrackFile.track) path = none := by
          rw [playlistIn, found]
          simp only [if_neg notRoot]
        rw [← Except.ok.inj step, List.filterMap_cons_none here]

theorem readAssetMap_eq_ok (map : disk.read filename = some (.xml pt))
    (loads : package.readAssetMap disk filename = .ok loaded) :
    (∀ name ∈ readNames pt, FilePath.extension name = ".mxf" →
      ∃ track, disk.read (package.pathOf name) = some (.mxf (.ok track))) ∧
    ∃ uuid header, loaded =
      { ({ package with uuid := uuid, headerAssetMap := header } : IMFPackage).addTracks
          (tracksIn disk (((readNames pt).filter fun name =>
            FilePath.extension name = ".mxf").map package.pathOf)) with
        compositionPlaylists := package.compositionPlaylists ++
          (((readNames pt).filter fun name => FilePath.extension name = ".xml").map
            package.pathOf).filterMap (playlistIn disk (readTracks disk package pt)) } := by
  obtain ⟨read, found, rest⟩ := bind_eq_ok.mp (rethrow_eq_ok.mp loads)
  rw [readXml, map] at found
  cases Except.ok.inj found
  obtain ⟨packageId, -, rest⟩ := bind_eq_ok.mp rest
  obtain ⟨headerChild, -, rest⟩ := bind_eq_ok.mp rest
  obtain ⟨header, -, rest⟩ := bind_eq_ok.mp rest
  obtain ⟨assets, list, rest⟩ := bind_eq_ok.mp rest
  obtain ⟨state, assetsRead, parsed⟩ := bind_eq_ok.mp rest
  obtain ⟨isTrack, added, documents⟩ := readAssets_eq_ok _ (some_of_getChild list) assetsRead
  rw [documents] at parsed
  have known : state.1.tracks.map TrackFile.track = readTracks disk package pt := by
    rw [added, ← readTracks_withHeader disk package pt (uuidClean packageId) header]
    rfl
  have playlists : state.1.compositionPlaylists = package.compositionPlaylists := by
    rw [added, IMFPackage.addTracks_eq]
  refine ⟨isTrack, uuidClean packageId, header, ?_⟩
  rw [parseXMLs_filterMap parsed, known, playlists, added]
  rfl

theorem loadedInOrder (map : disk.read filename = some (.xml pt))
    (loads : package.readAssetMap disk filename = .ok loaded) :
    LoadedInOrder disk package pt loaded := by
  obtain ⟨-, uuid, header, same⟩ := readAssetMap_eq_ok map loads
  rw [IMFPackage.addTracks_eq] at same
  constructor
  · rw [same, readTracks, IMFPackage.addTracks_eq]
    rfl
  · rw [same, IMFPackage.addTracks_eq]
  · rw [same, IMFPackage.addTracks_eq]
  · rw [same]

/-- Loading succeeds if and only if nothing is wrong with the map or with a file it names. -/
theorem loads_iff (map : disk.read filename = some (.xml pt)) :
    (∃ loaded, package.readAssetMap disk filename = .ok loaded) ↔
      firstFailure (headerChecks pt ++
        (childrenAt ["AssetMap", "AssetList"] pt).flatMap (assetChecks disk package) ++
        (((readNames pt).filter fun name => FilePath.extension name = ".xml").map
          package.pathOf).flatMap (xmlChecks disk (readTracks disk package pt))) = none := by
  rw [← failure_readTree, ← @failure_eq_none _ _ _ Exn.defect _, IMFPackage.readAssetMap,
    failure_rethrow, readXml, map]
  · rfl
  · intro error caught
    cases error <;> first | rfl | cases caught

end Load

section Checks

variable {tracks others : List IMFTrack}

theorem SameSearches.playlistChecks (same : SameSearches tracks others) :
    playlistChecks tracks = playlistChecks others := by
  have resources : resourceChecks tracks = resourceChecks others := by
    funext cplEditRate node
    simp only [resourceChecks, same _]
  have nodes : resourceNodeChecks tracks = resourceNodeChecks others := by
    funext cplEditRate child
    simp only [resourceNodeChecks, resources]
  have sequences : sequenceChecks tracks = sequenceChecks others := by
    funext cplEditRate child
    simp only [sequenceChecks, nodes]
  have segments : segmentChecks tracks = segmentChecks others := by
    funext cplEditRate child
    simp only [segmentChecks, sequences]
  funext pt
  simp only [Package.playlistChecks, segments]

theorem SamePlaylist.checks {first second : PTree} (same : SamePlaylist first second)
    (tracks : List IMFTrack) : playlistChecks tracks first = playlistChecks tracks second := by
  simp only [playlistChecks, present, PTree.getStringD, childrenAt, same _]

end Checks

/-- Two file systems that differ at most in XML files that are the same playlist, or none. -/
def SameFiles (disk other : FileSystem File) : Prop :=
  ∀ path, other.read path = disk.read path ∨ ∃ first second, disk.read path = some (.xml first) ∧
    other.read path = some (.xml second) ∧ SamePlaylist first second

namespace SameFiles

variable {disk other : FileSystem File} (same : SameFiles disk other)
include same

theorem tracksIn : tracksIn other = tracksIn disk := by
  funext paths
  unfold Package.tracksIn
  apply List.filterMap_congr
  intro path _
  rcases same path with alike | ⟨first, second, here, there, -⟩
  · rw [alike]
  · rw [here, there]

theorem trackFile : trackFile other = trackFile disk := by
  funext path
  unfold Package.trackFile
  rcases same path with alike | ⟨first, second, here, there, -⟩
  · rw [alike]
  · rw [here, there]

theorem assetChecks (package : IMFPackage) : assetChecks other package = assetChecks disk package := by
  have chunks : chunkChecks other package = chunkChecks disk package := by
    funext chunk
    simp only [chunkChecks, same.trackFile]
  funext asset
  simp only [Package.assetChecks, chunks]

theorem playlistIn (tracks : List IMFTrack) : playlistIn other tracks = playlistIn disk tracks := by
  funext path
  unfold Package.playlistIn
  rcases same path with alike | ⟨first, second, here, there, samePlaylist⟩
  · rw [alike]
  · simp only [here, there, samePlaylist [], samePlaylist.load]

theorem xmlChecks (tracks : List IMFTrack) : xmlChecks other tracks = xmlChecks disk tracks := by
  funext path
  unfold Package.xmlChecks
  rcases same path with alike | ⟨first, second, here, there, samePlaylist⟩
  · rw [alike]
  · simp only [here, there, samePlaylist [], samePlaylist.checks]

end SameFiles

def withAssets (children : List (String × PTree)) (pt : PTree) : PTree :=
  pt.modify ["AssetMap", "AssetList"] fun list => .node list.data children

section Reorder

variable {pt list : PTree} {children : List (String × PTree)}

theorem getChild?_withAssets (pt : PTree) (children : List (String × PTree)) :
    ∃ data, (withAssets children pt).getChild? ["AssetMap", "AssetList"] =
      some (.node data children) :=
  ⟨_, PTree.getChild?_modify_self _ _ pt⟩

theorem samePlaylist_withAssets (pt : PTree) (children : List (String × PTree)) :
    SamePlaylist pt (withAssets children pt) := by
  intro path
  exact (PTree.getChild?_modify_of_ne (by decide) _ path _ pt).symm

theorem headerChecks_withAssets (found : pt.getChild? ["AssetMap", "AssetList"] = some list) :
    headerChecks (withAssets children pt) = headerChecks pt := by
  have beside {key : String} (other : key ≠ "AssetList") :
      (withAssets children pt).getChild? ["AssetMap", key] = pt.getChild? ["AssetMap", key] :=
    PTree.getChild?_modify_beside other _ _ _ _ pt
  obtain ⟨data, now⟩ := getChild?_withAssets pt children
  have rootOf {tree child : PTree} (below : tree.getChild? ["AssetMap", "AssetList"] = some child) :
      (tree.getChild? ["AssetMap"]).isSome = true := by
    obtain ⟨root, present, -⟩ := Option.bind_eq_some_iff.mp below
    have first : tree.getChild? ["AssetMap"] = some root :=
      Option.bind_eq_some_iff.mpr ⟨root, present, rfl⟩
    rw [first, Option.isSome_some]
  simp only [headerChecks, present, integer, PTree.text?, beside (by decide : "Id" ≠ "AssetList"),
    beside (by decide : "Creator" ≠ "AssetList"), beside (by decide : "VolumeCount" ≠ "AssetList"),
    beside (by decide : "IssueDate" ≠ "AssetList"), beside (by decide : "Issuer" ≠ "AssetList"),
    found, now, rootOf found, rootOf now, Option.isSome_some]

theorem readNames_withAssets (found : pt.getChild? ["AssetMap", "AssetList"] = some list)
    (perm : children.Perm list.children) :
    (readNames pt).Perm (readNames (withAssets children pt)) := by
  obtain ⟨data, now⟩ := getChild?_withAssets pt children
  rw [readNames, readNames, chunkLists, chunkLists, childrenAt_of_some found,
    childrenAt_of_some now]
  exact (((perm.symm.filter _).map _).flatten).map _

end Reorder

section Order

variable {disk other : FileSystem File} {package : IMFPackage} {filename : String} {pt list : PTree}
  {children : List (String × PTree)}

/-- The map is another one afterwards, and nothing else has changed. -/
theorem sameFiles_of_write (map : disk.read filename = some (.xml pt))
    (rewritten : disk.write filename (.xml (withAssets children pt)) = some other) :
    SameFiles disk other := by
  obtain ⟨canonical, file⟩ := FileSystem.write_eq_some rewritten
  intro path
  rw [FileSystem.read, FileSystem.entry_congr canonical, file]
  by_cases here : disk.entry path = disk.entry filename
  · refine Or.inr ⟨pt, withAssets children pt, ?_, ?_, samePlaylist_withAssets pt children⟩
    · rw [FileSystem.read, here]
      exact map
    · rw [here, Function.update_self]
  · rw [Function.update_of_ne here]
    exact Or.inl rfl

/-- No two tracks have one identifier. A file that is listed twice is one track. -/
def OneTrackEach (tracks : List IMFTrack) : Prop :=
  ∀ first ∈ tracks, ∀ second ∈ tracks, first.uuid = second.uuid → first = second

theorem addTracks_perm (package : IMFPackage) {first second : List TrackFile}
    (perm : first.Perm second) :
    (package.addTracks first).videoTracks.Perm (package.addTracks second).videoTracks ∧
      (package.addTracks first).audioTracks.Perm (package.addTracks second).audioTracks := by
  rw [IMFPackage.addTracks_eq, IMFPackage.addTracks_eq]
  exact ⟨(perm.filter _).append_left _, (perm.filter _).append_left _⟩

theorem tracks_perm {first second : IMFPackage} (videos : first.videoTracks.Perm second.videoTracks)
    (audios : first.audioTracks.Perm second.audioTracks) :
    (first.tracks.map TrackFile.track).Perm (second.tracks.map TrackFile.track) :=
  (videos.append audios).map _

/-- With the assets of the map in another order, loading succeeds as well or as little, and it gives
the same tracks, and the same playlists with the same tracks in them. -/
theorem load_reordered (map : disk.read filename = some (.xml pt))
    (found : pt.getChild? ["AssetMap", "AssetList"] = some list)
    (perm : children.Perm list.children)
    (rewritten : disk.write filename (.xml (withAssets children pt)) = some other)
    (oneTrack : OneTrackEach (readTracks disk package pt)) :
    ((∃ loaded, package.readAssetMap disk filename = .ok loaded) ↔
      ∃ loaded, package.readAssetMap other filename = .ok loaded) ∧
    ∀ loaded reordered, package.readAssetMap disk filename = .ok loaded →
      package.readAssetMap other filename = .ok reordered →
      loaded.videoTracks.Perm reordered.videoTracks ∧
      loaded.audioTracks.Perm reordered.audioTracks ∧
      loaded.compositionPlaylists.Perm reordered.compositionPlaylists := by
  have same := sameFiles_of_write map rewritten
  have now : other.read filename = some (.xml (withAssets children pt)) := by
    obtain ⟨canonical, file⟩ := FileSystem.write_eq_some rewritten
    rw [FileSystem.read, FileSystem.entry_congr canonical, file, Function.update_self]
  have names := readNames_withAssets found perm
  have paths (extension : String) := ((names.filter fun name =>
    FilePath.extension name = extension).map package.pathOf)
  have files : (tracksIn disk (((readNames pt).filter fun name =>
      FilePath.extension name = ".mxf").map package.pathOf)).Perm
      (tracksIn other (((readNames (withAssets children pt)).filter fun name =>
        FilePath.extension name = ".mxf").map package.pathOf)) := by
    rw [same.tracksIn]
    exact (paths ".mxf").filterMap _
  obtain ⟨videos, audios⟩ := addTracks_perm package files
  have searches : SameSearches (readTracks disk package pt)
      (readTracks other package (withAssets children pt)) :=
    KeyedList.find_perm IMFTrack.uuid (tracks_perm videos audios) oneTrack
  constructor
  · rw [loads_iff map, loads_iff now]
    apply firstFailure_eq_none_congr
    obtain ⟨data, listed⟩ := getChild?_withAssets pt children
    rw [headerChecks_withAssets found, childrenAt_of_some found, childrenAt_of_some listed,
      same.assetChecks, same.xmlChecks]
    have documents : xmlChecks disk (readTracks disk package pt) =
        xmlChecks disk (readTracks other package (withAssets children pt)) := by
      funext path
      simp only [xmlChecks, searches.playlistChecks]
    rw [documents]
    exact (((perm.symm.flatMap_right _).append_left _).append ((paths ".xml").flatMap_right _))
  · intro loaded reordered loads reloads
    have first := loadedInOrder map loads
    have second := loadedInOrder now reloads
    rw [first.videoTracks, second.videoTracks, first.audioTracks, second.audioTracks,
      first.compositionPlaylists, second.compositionPlaylists, same.playlistIn]
    have playlists : playlistIn disk (readTracks disk package pt) =
        playlistIn disk (readTracks other package (withAssets children pt)) := by
      funext path
      simp only [playlistIn, searches.loadPlaylist]
    rw [playlists]
    exact ⟨videos, audios, ((paths ".xml").filterMap _).append_left _⟩

end Order

namespace Sample

def assetNode (name : String) : String × PTree :=
  ("Asset", .node "" [("Id", leaf name), ("ChunkList", .node ""
    [("Chunk", .node "" [("Path", leaf name), ("VolumeIndex", leaf "1")])])])

def playlistFirst : PTree :=
  .node "" [("AssetMap", .node ""
    [("Id", leaf "map"), ("Creator", leaf "creator"), ("VolumeCount", leaf "1"),
      ("IssueDate", leaf "2017-03-01T21:56:47Z"), ("Issuer", leaf "issuer"),
      ("AssetList", .node "" [assetNode "cpl.xml", assetNode "a.mxf"])])]

def mapPackage : IMFPackage := { IMFPackage.new with name := "p" }

def mapDisk : FileSystem File where
  canonical := id
  directory := fun folder => folder = "/p"
  file := fun entry =>
    if entry = ("/p", "ASSETMAP.xml") then some (.xml playlistFirst)
    else if entry = ("/p", "cpl.xml") then some (.xml markerTree)
    else if entry = ("/p", "a.mxf") then some (.mxf (.ok video))
    else none
  inside := by
    intro entry filled
    by_cases folder : entry.1 = "/p"
    · exact decide_eq_true folder
    · have elsewhere (name : String) : entry ≠ ("/p", name) := fun same => folder (congrArg Prod.fst same)
      simp only [elsewhere, if_false, Option.isSome_none] at filled
      cases filled

/-- The track may be listed before the playlist as well. -/
theorem track_listed_first : ∃ other loaded reordered,
    mapDisk.write "/p/ASSETMAP.xml"
      (.xml (withAssets [assetNode "a.mxf", assetNode "cpl.xml"] playlistFirst)) = some other ∧
    mapPackage.readAssetMap mapDisk "/p/ASSETMAP.xml" = .ok loaded ∧
    mapPackage.readAssetMap other "/p/ASSETMAP.xml" = .ok reordered ∧
    loaded.videoTracks.Perm reordered.videoTracks ∧
    loaded.audioTracks.Perm reordered.audioTracks ∧
    loaded.compositionPlaylists.Perm reordered.compositionPlaylists := by
  have map : mapDisk.read "/p/ASSETMAP.xml" = some (.xml playlistFirst) := by
    have here : mapDisk.entry "/p/ASSETMAP.xml" = ("/p", "ASSETMAP.xml") := by decide +kernel
    rw [FileSystem.read, here]
    rfl
  obtain ⟨loaded, loads⟩ : ∃ loaded, mapPackage.readAssetMap mapDisk "/p/ASSETMAP.xml" = .ok loaded :=
    (loads_iff map).mpr (by decide +kernel)
  obtain ⟨other, rewritten⟩ : ∃ other, mapDisk.write "/p/ASSETMAP.xml"
      (.xml (withAssets [assetNode "a.mxf", assetNode "cpl.xml"] playlistFirst)) = some other :=
    Option.isSome_iff_exists.mp (by decide +kernel)
  have oneTrack : readTracks mapDisk mapPackage playlistFirst = [video] := by decide +kernel
  obtain ⟨succeeds, same⟩ := load_reordered map rfl (List.Perm.swap _ _ []) rewritten (by
    rw [oneTrack]
    simp [OneTrackEach])
  obtain ⟨reordered, reloads⟩ := succeeds.mp ⟨loaded, loads⟩
  exact ⟨other, loaded, reordered, rewritten, loads, reloads, same loaded reordered loads reloads⟩

end Sample

end Imflib.Package
