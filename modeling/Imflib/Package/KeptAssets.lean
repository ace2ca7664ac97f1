import Imflib.Package.LoadedAssets
import Imflib.Package.PackingListAgreement

/-! What becomes of the assets of a package that is loaded and saved again. -/

namespace Imflib.Package

def markedAsPackingList (asset : PTree) : Bool :=
  asset.text? ["PackingList"] = some "true" ∨ asset.text? ["PackingList"] = some "1"

def unmarkedAssets (pt : PTree) : List (String × String) :=
  ((childrenAt ["AssetMap", "AssetList"] pt).filter fun asset =>
    markedAsPackingList asset.2 = false).flatMap listedIn

def holdsPackingList (disk : FileSystem File) (path : String) : Bool :=
  match disk.read path with
  | some (.xml pt) => (pt.getChild? ["PackingList"]).isSome
  | _ => false

def File.playlistId : File → Option String
  | .xml pt => (pt.text? ["CompositionPlaylist", "Id"]).map uuidClean
  | _ => none

def File.uuid : File → Option String
  | .mxf (.ok track) => some track.uuid
  | .mxf (.error _) | .other => none
  | .xml pt => (File.xml pt).playlistId

/-- The file of an asset is at a path, under its name: a track file as it was, a playlist with its
identifier where it was, and any other file where it was and as it was. -/
def FileFound (disk : FileSystem File) (package : IMFPackage) (saved : FileSystem File)
    (name path : String) : Prop :=
  ∃ file, saved.read (package.pathOf path) = some file ∧
    FilePath.filename path = FilePath.filename name ∧
    if FilePath.extension name = ".mxf" then disk.read (package.pathOf name) = some file
    else
      saved.entry (package.pathOf path) = disk.entry (package.pathOf name) ∧
        if isPlaylist disk (package.pathOf name) then
          file.playlistId = (disk.read (package.pathOf name)).bind File.playlistId
        else disk.read (package.pathOf name) = some file

/-- An asset is still listed with its identifier and with a path at which its file is found. -/
def Kept (disk : FileSystem File) (package : IMFPackage) (saved : FileSystem File) (after : PTree)
    (asset : String × String) : Prop :=
  ∃ listed ∈ unmarkedAssets after, uuidClean listed.1 = uuidClean asset.1 ∧
    FileFound disk package saved asset.2 listed.2

section Condition

variable (disk : FileSystem File) (package : IMFPackage) (before : PTree)

/-- The map lists a track or a playlist with the bare name of an asset, which carries its
identifier. -/
def Relisted (asset : String × String) : Prop :=
  ∃ name ∈ readNames before,
    (FilePath.extension name = ".mxf" ∨ FilePath.extension name = ".xml") ∧
    FilePath.filename name = FilePath.filename asset.2 ∧
    (disk.read (package.pathOf name)).bind File.uuid = some (uuidClean asset.1)

/-- The file of a track is under its bare name already, or that is free and the first track of this
name has the file. -/
def TrackArrives (name : String) : Prop :=
  disk.read (package.pathOf (FilePath.filename name)) = disk.read (package.pathOf name) ∨
    disk.read (package.pathOf (FilePath.filename name)) = none ∧
      ∃ first, firstNamed (listedTracks disk package before) (FilePath.filename name) = some first ∧
        disk.read first.path = disk.read (package.pathOf name)

/-- A document lies in the folder of the package, and not under the name of a list. -/
structure DocumentStays (name : String) : Prop where
  inFolder : disk.entry (package.pathOf name) =
    disk.entry (package.pathOf (FilePath.filename name))
  notList : disk.entry (package.pathOf name) ≠ disk.entry package.orNewPackageList.path
  notMap : disk.entry (package.pathOf name) ≠ disk.entry (package.pathOf "ASSETMAP.xml")

def Keepable (asset : String × String) : Prop :=
  Relisted disk package before asset ∧
    if FilePath.extension asset.2 = ".mxf" then TrackArrives disk package before asset.2
    else DocumentStays disk package asset.2

end Condition

section Names

theorem IMFPackageItem.filename_getFileName (item : IMFPackageItem) :
    FilePath.filename item.getFileName = item.getFileName := by
  unfold getFileName
  split
  · exact FilePath.filename_of_plain
      (slash_not_mem_append (FilePath.slash_not_mem_stem _) (by decide))
      (append_ne_empty _ (by decide))
  · exact FilePath.filename_of_plain
      (slash_not_mem_append (FilePath.slash_not_mem_stem _) (by decide))
      (append_ne_empty _ (by decide))

theorem playlistId_eq_none {pt : PTree} (other : pt.getChild? ["CompositionPlaylist"] = none) :
    (File.xml pt).playlistId = none := by
  have noId : pt.text? ["CompositionPlaylist", "Id"] = none := by
    simp only [PTree.getChild?, Option.bind_eq_none_iff, reduceCtorEq] at other
    simp only [PTree.text?, PTree.getChild?, Option.map_eq_none_iff, Option.bind_eq_none_iff]
    exact fun child found => absurd found (other child)
  rw [File.playlistId, noId, Option.map_none]

theorem isPlaylist_of_playlistId {disk : FileSystem File} {path id : String} {tree : PTree}
    (content : disk.read path = some (.xml tree)) (held : (File.xml tree).playlistId = some id) :
    isPlaylist disk path = true := by
  rw [isPlaylist, content]
  by_contra other
  rw [Bool.not_eq_true, Option.isSome_eq_false_iff, Option.isNone_iff_eq_none] at other
  rw [playlistId_eq_none other] at held
  cases held

theorem HoldsPlaylist.playlistId {disk : FileSystem File} {path : String}
    {playlist : IMFCompositionPlaylist} (holds : HoldsPlaylist disk path playlist) :
    ∃ tree, disk.read path = some (.xml tree) ∧
      (File.xml tree).playlistId = some playlist.uuid := by
  obtain ⟨-, tree, id, content, text, uuid⟩ := holds
  refine ⟨tree, content, ?_⟩
  rw [File.playlistId, text, Option.map_some, uuid]

theorem mem_readNames_of_unmarked {pt : PTree} {asset : String × String}
    (member : asset ∈ unmarkedAssets pt) : asset.2 ∈ readNames pt := by
  rw [readNames_eq]
  refine List.mem_map_of_mem ?_
  obtain ⟨node, inside, listed⟩ := List.mem_flatMap.mp member
  exact List.mem_flatMap.mpr ⟨node, (List.mem_filter.mp inside).1, listed⟩

end Names

section SavedMap

variable {fileSize : File → Nat} {refused : Refusals} {disk : FileSystem File}

theorem markedAsPackingList_mappedAsset (item : IMFPackageItem) (size : Nat) :
    markedAsPackingList (mappedAsset item size) = decide (item.type = .pkl) := by
  unfold markedAsPackingList mappedAsset
  by_cases pkl : item.type = .pkl <;> simp [pkl]

theorem unmarkedAssets_assetMapTree {package : IMFPackage} {list : IMFPackageList} {pt : PTree}
    (listed : package.packageList = some list)
    (written : package.assetMapTree fileSize refused disk = .ok pt) :
    unmarkedAssets pt = package.assets.map fun item => (uuidStr item.uuid, item.getFileName) := by
  obtain ⟨root, size, rfl, -, -, -, nodes⟩ := assetMapTree_eq_ok written
  have assets : package.mappedAssets.filter (fun item => decide (item.type = .pkl) = false) =
      package.assets := by
    rw [IMFPackage.mappedAssets, listed]
    exact IMFPackage.filter_assets package list false
  rw [unmarkedAssets, childrenAt, PTree.getChild?_addChild_self _ _ _ rfl, nodes,
    Option.elim_some, PTree.children_node, List.filter_map, List.flatMap_map, List.map_eq_flatMap]
  simp only [listedIn_mappedAsset, Function.comp_def, markedAsPackingList_mappedAsset, assets]

theorem isSome_packingList {list : IMFPackageList} {assets : List IMFPackageItem} {pt : PTree}
    (made : list.tree fileSize refused disk assets = .ok pt) :
    (pt.getChild? ["PackingList"]).isSome = true := by
  obtain ⟨assetListNode, -, same⟩ := bind_eq_ok.mp made
  cases Except.ok.inj same
  rw [PTree.getChild?_addChild_self _ _ _ rfl]
  rfl

end SavedMap

/-- Names under which `Write` writes. -/
def IsXml (entry : String × String) : Prop := ∃ base, entry.2 = base ++ ".xml"

theorem isXml_entry (disk : FileSystem File) {path : String}
    (named : ∃ base, FilePath.filename path = base ++ ".xml") : IsXml (disk.entry path) := named

section Save

variable {working saved : WorkingPackage} {pt after : PTree} {fileSize : File → Nat}
  {refused : Refusals}

theorem save_stages (saves : working.save fileSize refused = .done saved) :
    ∃ first second, WorkingPackage.Stages fileSize refused (working.copyTrackFiles refused).state first
      second saved := by
  obtain ⟨-, writes⟩ := WorkingPackage.save_done saves
  have succeeded :
      ((working.copyTrackFiles refused).state.write fileSize refused).error = none := by
    rw [writes]
    rfl
  have stages := (working.copyTrackFiles refused).state.write_stages succeeded
  rw [writes] at stages
  exact stages

theorem orNewPackageList_copyTrackFiles (working : WorkingPackage) (refused : Refusals) :
    (working.copyTrackFiles refused).state.package.orNewPackageList =
      working.package.orNewPackageList := by
  obtain ⟨videoTracks, audioTracks, same, -⟩ := working.copyTrackFiles_package refused
  rw [same]
  rfl

structure SavedMap (working saved : WorkingPackage) (after : PTree) : Prop where
  map : saved.disk.read (working.package.pathOf "ASSETMAP.xml") = some (.xml after)
  notPlaylist : after.getChild? ["CompositionPlaylist"] = none
  assets : unmarkedAssets after =
    (working.package.tracks.map fun asset => (uuidStr asset.track.uuid, asset.getFileName)) ++
      working.package.compositionPlaylists.map fun playlist =>
        (uuidStr playlist.uuid, playlist.item.getFileName)
  bare : ∀ name ∈ readNames after, FilePath.filename name = name

theorem savedMap (noProfiles : working.package.outputProfiles = [])
    (saves : working.save fileSize refused = .done saved) : ∃ after, SavedMap working saved after := by
  obtain ⟨first, second, stages⟩ := save_stages saves
  have listings := working.listing_copyTrackFiles refused
  have path := working.copyTrackFiles_pathOf refused
  have playlists := working.copyTrackFiles_compositionPlaylists refused
  have profiles := (working.copyTrackFiles_outputProfiles refused).trans noProfiles
  generalize (working.copyTrackFiles refused).state = copied
    at stages listings path playlists profiles
  obtain ⟨after, tree, content⟩ := stages.mapContent
  have list : saved.package.packageList = some copied.package.orNewPackageList := by
    rw [stages.afterPackage, stages.secondPackage]
  have assets : saved.package.assets = copied.package.assets := by
    rw [stages.afterPackage, stages.secondPackage]
    rfl
  refine ⟨after, path ▸ content, ?_, ?_, ?_⟩
  · obtain ⟨root, -, rfl, -⟩ := assetMapTree_eq_ok tree
    simp
  · have tracks := congrArg (List.map fun listing : IMFTrack × String =>
      (uuidStr listing.1.uuid, listing.2)) listings
    rw [List.map_map, List.map_map] at tracks
    rw [unmarkedAssets_assetMapTree list tree, assets, IMFPackage.assets, profiles, playlists,
      List.map_nil, List.append_nil, List.map_append, List.map_map, List.map_map]
    exact congrArg (· ++ _) tracks
  · intro name member
    rw [readNames_eq, listedAssets_assetMapTree tree, List.map_map] at member
    obtain ⟨item, -, rfl⟩ := List.mem_map.mp member
    exact item.filename_getFileName

namespace LoadedFrom

variable (loaded : LoadedFrom working.disk pt working.package)

include loaded

theorem writesXml (saves : working.save fileSize refused = .done saved) :
    WritesXml IsXml (working.copyTrackFiles refused).state.disk saved.disk := by
  obtain ⟨-, writes⟩ := WorkingPackage.save_done saves
  have playlists := working.copyTrackFiles_compositionPlaylists refused
  have list := (working.copyTrackFiles_packageList refused).trans loaded.packageList
  generalize (working.copyTrackFiles refused).state = copied at writes playlists list
  have writing : Writing IsXml copied (copied.write fileSize refused).state := by
    apply copied.write_writing
    · intro playlist member
      rw [playlists] at member
      obtain ⟨name, -, xml, path, -⟩ := loaded.playlistsRead playlist member
      have extended : FilePath.extension name ≠ "" := by
        rw [xml]
        decide
      have named : FilePath.filename playlist.path = FilePath.filename name := by
        rw [path, IMFPackage.pathOf]
        exact FilePath.filename_behind _ extended
      apply isXml_entry
      refine ⟨FilePath.stem name, ?_⟩
      rw [← xml, FilePath.stem_append_extension, named]
    · apply isXml_entry
      rw [IMFPackage.orNewPackageList_of_none list, IMFPackage.pathOf, ← String.append_assoc]
      exact FilePath.filename_append _ (by decide) (by decide)
    · apply isXml_entry
      refine ⟨"ASSETMAP", ?_⟩
      rw [IMFPackage.pathOf, FilePath.filename_join _ (by decide) (by decide)]
      rfl
  rw [writes] at writing
  exact writing.files

theorem holdsPlaylist {playlist : IMFCompositionPlaylist}
    (member : playlist ∈ working.package.compositionPlaylists) :
    HoldsPlaylist working.disk playlist.path playlist := by
  obtain ⟨name, -, -, holds⟩ := loaded.playlistsRead playlist member
  rw [holds.1]
  exact holds

theorem uuid_of_track {asset : TrackFile} (member : asset ∈ working.package.tracks) :
    (working.disk.read asset.path).bind File.uuid = some asset.track.uuid := by
  rw [(loaded.tracksRead asset member).1]
  rfl

theorem uuid_of_playlist {playlist : IMFCompositionPlaylist}
    (member : playlist ∈ working.package.compositionPlaylists) :
    (working.disk.read playlist.path).bind File.uuid = some playlist.uuid := by
  obtain ⟨tree, content, held⟩ := (loaded.holdsPlaylist member).playlistId
  rw [content, Option.bind_some, File.uuid, held]

theorem relisted_iff (savedMap : SavedMap working saved after) (asset : String × String) :
    (∃ listed ∈ unmarkedAssets after, uuidClean listed.1 = uuidClean asset.1 ∧
      listed.2 = FilePath.filename asset.2) ↔ Relisted working.disk working.package pt asset := by
  rw [savedMap.assets]
  constructor
  · rintro ⟨listed, member, id, bare⟩
    rcases List.mem_append.mp member with track | document
    · obtain ⟨found, inside, rfl⟩ := List.mem_map.mp track
      obtain ⟨-, name, read, mxf, path⟩ := loaded.tracksRead found inside
      refine ⟨name, read, Or.inl mxf, ?_, ?_⟩
      · rw [← found.getFileName_of_path path mxf]
        exact bare
      · rw [← path, loaded.uuid_of_track inside, ← id, uuidClean_uuidStr]
    · obtain ⟨playlist, inside, rfl⟩ := List.mem_map.mp document
      obtain ⟨name, read, xml, path, -⟩ := loaded.playlistsRead playlist inside
      refine ⟨name, read, Or.inr xml, ?_, ?_⟩
      · rw [← playlist.getFileName_of_path path xml]
        exact bare
      · rw [← path, loaded.uuid_of_playlist inside, ← id, uuidClean_uuidStr]
  · rintro ⟨name, read, mxf | xml, bare, uuid⟩
    · obtain ⟨found, inside, path⟩ := loaded.tracksListed name read mxf
      rw [← path, loaded.uuid_of_track inside] at uuid
      refine ⟨_, List.mem_append_left _ (List.mem_map_of_mem inside), ?_, ?_⟩
      · rw [uuidClean_uuidStr]
        exact Option.some.inj uuid
      · exact (found.getFileName_of_path path mxf).trans bare
    · obtain ⟨tree, content⟩ := loaded.documents name read xml
      have held := uuid
      rw [content, Option.bind_some, File.uuid] at held
      obtain ⟨playlist, inside, path⟩ :=
        loaded.playlistsListed name read xml (isPlaylist_of_playlistId content held)
      rw [← path, loaded.uuid_of_playlist inside] at uuid
      refine ⟨_, List.mem_append_right _ (List.mem_map_of_mem inside), ?_, ?_⟩
      · rw [uuidClean_uuidStr]
        exact Option.some.inj uuid
      · exact (playlist.getFileName_of_path path xml).trans bare

section Track

variable {name : String} (listed : name ∈ readNames pt) (mxf : FilePath.extension name = ".mxf")
  (saves : working.save fileSize refused = .done saved)

include listed mxf saves

theorem read_track :
    saved.disk.read (working.package.pathOf (FilePath.filename name)) =
      (working.disk.read (working.package.pathOf (FilePath.filename name))).or
        ((firstNamed (listedTracks working.disk working.package pt) (FilePath.filename name)).bind
          fun first => working.disk.read first.path) := by
  obtain ⟨asset, member, path⟩ := loaded.tracksListed name listed mxf
  have bare := asset.getFileName_of_path path mxf
  have notXml : ¬ IsXml ((working.copyTrackFiles refused).state.disk.entry
      (working.package.pathOf asset.getFileName)) := by
    intro xml
    obtain ⟨base, named⟩ := xml
    rw [IMFPackage.pathOf, asset.entry_target, asset.getFileName_eq] at named
    exact mxf_ne_xml _ _ named
  have present (other : TrackFile) (inside : other ∈ working.package.tracks) :
      working.disk.fileExists other.path = true := by
    rw [FileSystem.fileExists, (loaded.tracksRead other inside).1, Option.isSome_some]
  rw [← bare, (loaded.writesXml saves).read notXml,
    WorkingPackage.read_copyTrackFiles loaded.named asset (WorkingPackage.save_done saves).1 present,
    loaded.tracks]

theorem track_found_iff :
    FileFound working.disk working.package saved.disk name (FilePath.filename name) ↔
      TrackArrives working.disk working.package pt name := by
  obtain ⟨asset, member, path⟩ := loaded.tracksListed name listed mxf
  have content := (loaded.tracksRead asset member).1
  rw [path] at content
  have placed := loaded.read_track listed mxf saves
  rw [FileFound, TrackArrives, content, placed]
  simp only [mxf, if_pos, FilePath.filename_filename, true_and]
  cases there : working.disk.read (working.package.pathOf (FilePath.filename name)) with
  | some file =>
      simp only [Option.some_or, Option.some.injEq, reduceCtorEq, false_and, or_false]
      exact ⟨fun ⟨_, held, same⟩ => held.trans same.symm, fun same => ⟨file, rfl, same.symm⟩⟩
  | none =>
      simp only [Option.none_or, reduceCtorEq, false_or, true_and, Option.bind_eq_some_iff]
      constructor
      · rintro ⟨file, ⟨first, found, held⟩, same⟩
        exact ⟨first, found, held.trans same.symm⟩
      · rintro ⟨first, found, held⟩
        exact ⟨_, ⟨first, found, held⟩, rfl⟩

end Track

theorem isPlaylist_of_holds {path : String} {playlist : IMFCompositionPlaylist}
    (member : playlist ∈ working.package.compositionPlaylists)
    (same : working.disk.entry path = working.disk.entry playlist.path) :
    isPlaylist working.disk path = true := by
  obtain ⟨tree, found, held⟩ := (loaded.holdsPlaylist member).playlistId
  rw [FileSystem.read, ← same, ← FileSystem.read] at found
  exact isPlaylist_of_playlistId found held

section Document

variable {name : String} (listed : name ∈ readNames pt) (xml : FilePath.extension name = ".xml")
  (saves : working.save fileSize refused = .done saved)

include listed xml

theorem playlistId_isSome (root : isPlaylist working.disk (working.package.pathOf name) = true) :
    ∃ playlist ∈ working.package.compositionPlaylists,
      playlist.path = working.package.pathOf name ∧
      (working.disk.read (working.package.pathOf name)).bind File.playlistId =
        some playlist.uuid := by
  obtain ⟨playlist, member, path⟩ := loaded.playlistsListed name listed xml root
  obtain ⟨tree, found, held⟩ := (loaded.holdsPlaylist member).playlistId
  refine ⟨playlist, member, path, ?_⟩
  rw [← path, found, Option.bind_some, held]

/-- Where there is no playlist afterwards, there was none before. -/
theorem document_of_noPlaylist {tree : PTree}
    (noPlaylist : tree.getChild? ["CompositionPlaylist"] = none)
    (content : if isPlaylist working.disk (working.package.pathOf name) then
        (File.xml tree).playlistId =
          (working.disk.read (working.package.pathOf name)).bind File.playlistId
      else working.disk.read (working.package.pathOf name) = some (.xml tree)) :
    isPlaylist working.disk (working.package.pathOf name) = false ∧
      working.disk.read (working.package.pathOf name) = some (.xml tree) := by
  by_cases root : isPlaylist working.disk (working.package.pathOf name) = true
  · obtain ⟨playlist, -, -, id⟩ := loaded.playlistId_isSome listed xml root
    rw [if_pos root, id, playlistId_eq_none noPlaylist] at content
    cases content
  · rw [if_neg root] at content
    exact ⟨Bool.eq_false_iff.mpr root, content⟩

include saves

theorem playlist_written (root : isPlaylist working.disk (working.package.pathOf name) = true)
    (notList : working.disk.entry (working.package.pathOf name) ≠
      working.disk.entry working.package.orNewPackageList.path)
    (notMap : working.disk.entry (working.package.pathOf name) ≠
      working.disk.entry (working.package.pathOf "ASSETMAP.xml")) :
    ∃ file, saved.disk.read (working.package.pathOf name) = some file ∧
      file.playlistId = (working.disk.read (working.package.pathOf name)).bind File.playlistId := by
  obtain ⟨playlist, member, path, id⟩ := loaded.playlistId_isSome listed xml root
  obtain ⟨first, second, stages⟩ := save_stages saves
  have entry := working.entry_copyTrackFiles refused
  have playlists := working.copyTrackFiles_compositionPlaylists refused
  have lists := orNewPackageList_copyTrackFiles working refused
  have map := working.copyTrackFiles_pathOf refused
  generalize (working.copyTrackFiles refused).state = copied
    at stages entry playlists lists map
  obtain ⟨other, inside, same, tree, written, content⟩ :=
    stages.playlists playlist (playlists.symm ▸ member)
  rw [entry] at same
  rw [path] at content
  -- The playlist that was written there last may be another one, but not with another identifier.
  have sameId : other.uuid = playlist.uuid := by
    rw [playlists] at inside
    exact (loaded.holdsPlaylist member).uuid_eq (loaded.holdsPlaylist inside) same
  refine ⟨.xml tree, ?_, ?_⟩
  · rw [stages.read, content]
    · rwa [entry, lists]
    · rwa [entry, map]
  · rw [id, File.playlistId, text?_playlist written, Option.map_some, uuidClean_uuidStr, sameId]

omit listed in
theorem document_unchanged (other : isPlaylist working.disk (working.package.pathOf name) = false)
    (notList : working.disk.entry (working.package.pathOf name) ≠
      working.disk.entry working.package.orNewPackageList.path)
    (notMap : working.disk.entry (working.package.pathOf name) ≠
      working.disk.entry (working.package.pathOf "ASSETMAP.xml")) :
    saved.disk.read (working.package.pathOf name) =
      working.disk.read (working.package.pathOf name) := by
  obtain ⟨copies, writes⟩ := WorkingPackage.save_done saves
  have last : FilePath.filename (working.package.pathOf name) = FilePath.filename name := by
    refine FilePath.filename_behind _ ?_
    rw [xml]
    decide
  have copied : (working.copyTrackFiles refused).state.disk.read (working.package.pathOf name) =
      working.disk.read (working.package.pathOf name) := by
    rw [FileSystem.read, FileSystem.read, working.entry_copyTrackFiles refused]
    apply WorkingPackage.file_copyTrackFiles loaded.named copies
    intro track _
    rw [FileSystem.entry, last, ← FilePath.stem_append_extension, xml, track.getFileName_eq]
    exact (mxf_ne_xml _ _).symm
  rw [← copied]
  have entry := working.entry_copyTrackFiles refused
  have playlists := working.copyTrackFiles_compositionPlaylists refused
  have lists := orNewPackageList_copyTrackFiles working refused
  have map := working.copyTrackFiles_pathOf refused
  generalize (working.copyTrackFiles refused).state = before at writes entry playlists lists map
  have writing : Writing (· ≠ working.disk.entry (working.package.pathOf name)) before
      (before.write fileSize refused).state := by
    apply before.write_writing
    · intro playlist member
      rw [playlists] at member
      rw [entry]
      intro same
      rw [loaded.isPlaylist_of_holds member same.symm] at other
      cases other
    · rw [entry, lists]
      exact Ne.symm notList
    · rw [entry, map]
      exact Ne.symm notMap
  rw [writes] at writing
  exact writing.files.read (by rw [entry]; exact fun apart => apart rfl)

omit loaded listed xml in
/-- Under the name of the packing list stands the new one, unless that is the asset map. -/
theorem list_overwrites
    (list : working.disk.entry (working.package.pathOf name) =
      working.disk.entry working.package.orNewPackageList.path)
    (notMap : working.disk.entry (working.package.pathOf name) ≠
      working.disk.entry (working.package.pathOf "ASSETMAP.xml")) :
    ∃ tree, saved.disk.read (working.package.pathOf name) = some (.xml tree) ∧
      tree.getChild? ["CompositionPlaylist"] = none ∧
      (tree.getChild? ["PackingList"]).isSome = true := by
  obtain ⟨first, second, stages⟩ := save_stages saves
  have entry := working.entry_copyTrackFiles refused
  have lists := orNewPackageList_copyTrackFiles working refused
  have map := working.copyTrackFiles_pathOf refused
  generalize (working.copyTrackFiles refused).state = copied at stages entry lists map
  obtain ⟨tree, made, content⟩ := stages.listContent
  have listEntry : second.disk.entry = working.disk.entry := by
    rw [stages.listWrites.entry, stages.firstEntry, entry]
  refine ⟨tree, ?_, (packageList_eq_ok made).1, isSome_packingList made⟩
  rw [stages.mapWrites.read (by rwa [listEntry, entry, map]), FileSystem.read, listEntry, list,
    ← listEntry, ← FileSystem.read, ← lists]
  exact content

end Document

section Asset

variable (savedMap : SavedMap working saved after)

include savedMap

theorem isPlaylist_of_map {asset : String × String} (member : asset ∈ unmarkedAssets pt)
    (xml : FilePath.extension asset.2 = ".xml") (same : pt = after) :
    isPlaylist working.disk (working.package.pathOf asset.2) = true := by
  rw [same, savedMap.assets] at member
  rcases List.mem_append.mp member with track | document
  · obtain ⟨found, inside, rfl⟩ := List.mem_map.mp track
    obtain ⟨-, name, -, mxf, path⟩ := loaded.tracksRead found inside
    rw [found.getFileName_of_path path mxf,
      FilePath.extension_congr (FilePath.filename_filename name), mxf] at xml
    exact absurd xml (by decide)
  · obtain ⟨playlist, inside, rfl⟩ := List.mem_map.mp document
    obtain ⟨name, read, nameXml, path, -⟩ := loaded.playlistsRead playlist inside
    rw [same] at read
    refine loaded.isPlaylist_of_holds inside ?_
    rw [playlist.getFileName_of_path path nameXml, savedMap.bare name read, path]

variable (saves : working.save fileSize refused = .done saved)

include saves

theorem document_found_iff {asset : String × String} (member : asset ∈ unmarkedAssets pt)
    (listed : asset.2 ∈ readNames pt) (xml : FilePath.extension asset.2 = ".xml")
    (notPacking : holdsPackingList working.disk (working.package.pathOf asset.2) = false) :
    FileFound working.disk working.package saved.disk asset.2 (FilePath.filename asset.2) ↔
      DocumentStays working.disk working.package asset.2 := by
  have entry : saved.disk.entry = working.disk.entry :=
    (loaded.writesXml saves).entry.trans (working.entry_copyTrackFiles refused)
  have notMxf : FilePath.extension asset.2 ≠ ".mxf" := by
    rw [xml]
    decide
  rw [FileFound]
  simp only [notMxf, if_false, FilePath.filename_filename, true_and, entry]
  constructor
  · rintro ⟨file, read, inFolder, content⟩
    rw [FileSystem.read, entry, inFolder, ← entry, ← FileSystem.read] at read
    have notMap : working.disk.entry (working.package.pathOf asset.2) ≠
        working.disk.entry (working.package.pathOf "ASSETMAP.xml") := by
      intro map
      have held := savedMap.map
      rw [FileSystem.read, entry, ← map, ← entry, ← FileSystem.read, read] at held
      cases Option.some.inj held
      obtain ⟨other, before⟩ := loaded.document_of_noPlaylist listed xml savedMap.notPlaylist content
      rw [FileSystem.read, map, ← FileSystem.read, loaded.map] at before
      have root := loaded.isPlaylist_of_map savedMap member xml
        (File.xml.inj (Option.some.inj before))
      exact Bool.false_ne_true (other.symm.trans root)
    refine ⟨inFolder.symm, fun list => ?_, notMap⟩
    obtain ⟨tree, held, noPlaylist, packing⟩ := list_overwrites saves list notMap
    rw [read] at held
    cases Option.some.inj held
    obtain ⟨-, before⟩ := loaded.document_of_noPlaylist listed xml noPlaylist content
    rw [holdsPackingList, before] at notPacking
    exact Bool.false_ne_true (notPacking.symm.trans packing)
  · rintro ⟨inFolder, notList, notMap⟩
    have placed : saved.disk.read (working.package.pathOf (FilePath.filename asset.2)) =
        saved.disk.read (working.package.pathOf asset.2) := by
      rw [FileSystem.read, FileSystem.read, entry, inFolder]
    rw [placed]
    by_cases root : isPlaylist working.disk (working.package.pathOf asset.2) = true
    · obtain ⟨file, read, id⟩ := loaded.playlist_written listed xml saves root notList notMap
      exact ⟨file, read, inFolder.symm, by rwa [if_pos root]⟩
    · have unchanged := loaded.document_unchanged xml saves (Bool.eq_false_iff.mpr root) notList
        notMap
      obtain ⟨tree, found⟩ := loaded.documents asset.2 listed xml
      exact ⟨_, unchanged.trans found, inFolder.symm, by rwa [if_neg root]⟩

theorem kept_iff {asset : String × String} (member : asset ∈ unmarkedAssets pt)
    (notPacking : holdsPackingList working.disk (working.package.pathOf asset.2) = false) :
    Kept working.disk working.package saved.disk after asset ↔
      Keepable working.disk working.package pt asset := by
  have listed := mem_readNames_of_unmarked member
  have relisted := loaded.relisted_iff savedMap asset
  -- What is listed has one of the two extensions.
  have found_iff (again : Relisted working.disk working.package pt asset) :
      FileFound working.disk working.package saved.disk asset.2 (FilePath.filename asset.2) ↔
        if FilePath.extension asset.2 = ".mxf" then
          TrackArrives working.disk working.package pt asset.2
        else DocumentStays working.disk working.package asset.2 := by
    obtain ⟨name, -, kind, bare, -⟩ := again
    rw [FilePath.extension_congr bare] at kind
    rcases kind with mxf | xml
    · rw [if_pos mxf]
      exact loaded.track_found_iff listed mxf saves
    · rw [if_neg (by rw [xml]; decide)]
      exact loaded.document_found_iff savedMap saves member listed xml notPacking
  constructor
  · rintro ⟨entry, inside, id, found⟩
    have bare : entry.2 = FilePath.filename asset.2 := by
      obtain ⟨-, -, same, -⟩ := found
      rw [← same, savedMap.bare entry.2 (mem_readNames_of_unmarked inside)]
    have again := relisted.mp ⟨entry, inside, id, bare⟩
    exact ⟨again, (found_iff again).mp (bare ▸ found)⟩
  · rintro ⟨again, stays⟩
    obtain ⟨entry, inside, id, bare⟩ := relisted.mpr again
    exact ⟨entry, inside, id, bare ▸ (found_iff again).mpr stays⟩

end Asset

end LoadedFrom

/-- When a package is loaded and saved again, all of its assets are kept exactly if each of them is
listed by a track or a playlist of its name, and its file stays or comes under that name. -/
theorem assets_kept_iff {disk : FileSystem File} {directory : String} {package : IMFPackage}
    (loads : IMFPackage.load disk directory = .ok package)
    (saves : (WorkingPackage.mk disk package).save fileSize refused = .done saved) :
    ∃ before after, disk.read (package.pathOf "ASSETMAP.xml") = some (.xml before) ∧
      saved.disk.read (package.pathOf "ASSETMAP.xml") = some (.xml after) ∧
      ((∀ asset ∈ unmarkedAssets before, holdsPackingList disk (package.pathOf asset.2) = false →
          Kept disk package saved.disk after asset) ↔
        ∀ asset ∈ unmarkedAssets before, holdsPackingList disk (package.pathOf asset.2) = false →
          Keepable disk package before asset) := by
  obtain ⟨before, loaded⟩ := loadedFrom loads
  have loaded : LoadedFrom (WorkingPackage.mk disk package).disk before
    (WorkingPackage.mk disk package).package := loaded
  obtain ⟨after, savedMap⟩ := savedMap loaded.outputProfiles saves
  refine ⟨before, after, loaded.map, savedMap.map, ?_⟩
  exact forall₃_congr fun asset member notPacking => loaded.kept_iff savedMap saves member notPacking

end Save

namespace Sample

def listedAs (id name : String) : String × PTree :=
  ("Asset", .node "" [("Id", leaf id), ("ChunkList", .node ""
    [("Chunk", .node "" [("Path", leaf name), ("VolumeIndex", leaf "1")])])])

def mapOf (assets : List (String × PTree)) : PTree :=
  .node "" [("AssetMap", .node ""
    [("Id", leaf "urn:uuid:map"), ("Creator", leaf "creator"), ("VolumeCount", leaf "1"),
      ("IssueDate", leaf "2017-03-01T21:56:47Z"), ("Issuer", leaf "issuer"),
      ("AssetList", .node "" assets)])]

def profileTree : PTree := .node "" [("OutputProfile", .node "" [("Id", leaf "urn:uuid:profile")])]

def foldersDisk (assets : List (String × PTree)) : FileSystem File where
  canonical := id
  directory := fun folder => folder = "/d/p" ∨ folder = "/d/p/x" ∨ folder = "/d/p/y"
  file := fun entry =>
    if entry = ("/d/p", "ASSETMAP.xml") then some (.xml (mapOf assets))
    else if entry = ("/d/p", "opl.xml") then some (.xml profileTree)
    else if entry = ("/d/p", "cpl.xml") then some (.xml markerTree)
    else if entry = ("/d/p/x", "a.mxf") then some (.mxf (.ok video))
    else if entry = ("/d/p/y", "a.mxf") then some (.mxf (.ok audio))
    else none
  inside := by
    intro entry filled
    by_cases present : entry = ("/d/p", "ASSETMAP.xml") ∨ entry = ("/d/p", "opl.xml") ∨
        entry = ("/d/p", "cpl.xml") ∨ entry = ("/d/p/x", "a.mxf") ∨ entry = ("/d/p/y", "a.mxf")
    · rcases present with rfl | rfl | rfl | rfl | rfl <;> decide
    · simp only [not_or] at present
      obtain ⟨map, profile, playlist, video, audio⟩ := present
      simp only [map, profile, playlist, video, audio, if_false, Option.isSome_none] at filled
      cases filled

/-- The package that is loaded, and what is left when it is saved. -/
def resaved (disk : FileSystem File) (directory : String) : Option (IMFPackage × WorkingPackage) :=
  match IMFPackage.load disk directory with
  | .error _ => none
  | .ok package =>
      match (WorkingPackage.mk disk package).save (fun _ => 0) .none with
      | ⟨saved, none⟩ => some (package, saved)
      | ⟨_, some _⟩ => none

theorem resaved_eq_some {disk : FileSystem File} {directory : String}
    {result : IMFPackage × WorkingPackage} (resaves : resaved disk directory = some result) :
    IMFPackage.load disk directory = .ok result.1 ∧
      (WorkingPackage.mk disk result.1).save (fun _ => 0) .none = .done result.2 := by
  unfold resaved at resaves
  split at resaves
  · cases resaves
  · rename_i package loads
    split at resaves
    · rename_i saved saves
      cases Option.some.inj resaves
      exact ⟨loads, saves⟩
    · cases resaves

/-- The asset map in the folder of a package, if there is one. -/
def mapOn (disk : FileSystem File) (package : IMFPackage) : Option PTree :=
  match disk.read (package.pathOf "ASSETMAP.xml") with
  | some (.xml pt) => some pt
  | _ => none

theorem mapOn_eq_some {disk : FileSystem File} {package : IMFPackage} {pt : PTree}
    (map : mapOn disk package = some pt) :
    disk.read (package.pathOf "ASSETMAP.xml") = some (.xml pt) := by
  unfold mapOn at map
  split at map
  · rename_i found
    rw [found, Option.some.inj map]
  · cases map

def lostDisk : FileSystem File :=
  foldersDisk [listedAs "urn:uuid:video" "x/a.mxf", listedAs "urn:uuid:audio" "y/a.mxf",
    listedAs "urn:uuid:profile" "opl.xml"]

/-- A track whose name is taken is not found under it, and an output profile is not listed. -/
def losesAssets (disk : FileSystem File) : Bool :=
  (resaved disk "/d/p").any fun result => (mapOn disk result.1).any fun before =>
    (mapOn result.2.disk result.1).any fun after =>
      (("urn:uuid:audio", "y/a.mxf") ∈ unmarkedAssets before ∧
        holdsPackingList disk (result.1.pathOf "y/a.mxf") = false ∧
        (disk.read (result.1.pathOf "y/a.mxf")).bind File.uuid = some "audio" ∧
        ∀ entry ∈ unmarkedAssets after,
          (result.2.disk.read (result.1.pathOf entry.2)).bind File.uuid ≠ some "audio") ∧
      ("urn:uuid:profile", "opl.xml") ∈ unmarkedAssets before ∧
        holdsPackingList disk (result.1.pathOf "opl.xml") = false ∧
        ∀ entry ∈ unmarkedAssets after, uuidClean entry.1 ≠ uuidClean "urn:uuid:profile"

theorem assets_lost : ∃ package saved before after,
    IMFPackage.load lostDisk "/d/p" = .ok package ∧
    (WorkingPackage.mk lostDisk package).save (fun _ => 0) .none = .done saved ∧
    lostDisk.read (package.pathOf "ASSETMAP.xml") = some (.xml before) ∧
    saved.disk.read (package.pathOf "ASSETMAP.xml") = some (.xml after) ∧
    (("urn:uuid:audio", "y/a.mxf") ∈ unmarkedAssets before ∧
      holdsPackingList lostDisk (package.pathOf "y/a.mxf") = false ∧
      ¬ Kept lostDisk package saved.disk after ("urn:uuid:audio", "y/a.mxf")) ∧
    ("urn:uuid:profile", "opl.xml") ∈ unmarkedAssets before ∧
      holdsPackingList lostDisk (package.pathOf "opl.xml") = false ∧
      ¬ Kept lostDisk package saved.disk after ("urn:uuid:profile", "opl.xml") := by
  have loses : losesAssets lostDisk = true := by decide +kernel
  obtain ⟨⟨package, saved⟩, resaves, loses⟩ := (Option.any_eq_true _ _).mp loses
  obtain ⟨before, map, loses⟩ := (Option.any_eq_true _ _).mp loses
  obtain ⟨after, newMap, loses⟩ := (Option.any_eq_true _ _).mp loses
  obtain ⟨loads, saves⟩ := resaved_eq_some resaves
  obtain ⟨⟨track, notList, uuid, nowhere⟩, profile, notPacking, unlisted⟩ := of_decide_eq_true loses
  refine ⟨package, saved, before, after, loads, saves, mapOn_eq_some map, mapOn_eq_some newMap,
    ⟨track, notList, ?_⟩, profile, notPacking, ?_⟩
  · rintro ⟨entry, member, -, file, read, -, content⟩
    have mxf : FilePath.extension "y/a.mxf" = ".mxf" := by decide +kernel
    rw [if_pos mxf] at content
    refine nowhere entry member ?_
    rw [read, ← content]
    exact uuid
  · rintro ⟨entry, member, id, -⟩
    exact unlisted entry member id

def keptAssets : List (String × PTree) :=
  [listedAs "urn:uuid:video" "x/a.mxf", listedAs "urn:uuid:cpl" "cpl.xml"]

def keptDisk : FileSystem File := foldersDisk keptAssets

/-- The track is moved out of its folder, and the playlist is written where it was. -/
theorem assets_in_folders_kept : ∃ package saved after,
    IMFPackage.load keptDisk "/d/p" = .ok package ∧
    (WorkingPackage.mk keptDisk package).save (fun _ => 0) .none = .done saved ∧
    saved.disk.read (package.pathOf "ASSETMAP.xml") = some (.xml after) ∧
    Kept keptDisk package saved.disk after ("urn:uuid:video", "x/a.mxf") ∧
    Kept keptDisk package saved.disk after ("urn:uuid:cpl", "cpl.xml") := by
  have found : (resaved keptDisk "/d/p").any (fun result =>
      result.1.location = "/d" ∧ result.1.name = "p" ∧ result.1.packageList = none ∧
        result.1.uuid = "map") = true := by
    decide +kernel
  obtain ⟨⟨package, saved⟩, resaves, folder⟩ := (Option.any_eq_true _ _).mp found
  obtain ⟨location, name, noList, uuid⟩ := of_decide_eq_true folder
  obtain ⟨loads, saves⟩ := resaved_eq_some resaves
  have pathOf (file : String) : package.pathOf file = "/d" ++ "/" ++ "p" ++ "/" ++ file := by
    rw [IMFPackage.pathOf, IMFPackage.getFullPath, location, name]
  obtain ⟨before, after, map, newMap, kept⟩ := assets_kept_iff loads saves
  have same : before = mapOf keptAssets := by
    have entry : keptDisk.entry ("/d" ++ "/" ++ "p" ++ "/" ++ "ASSETMAP.xml") =
        ("/d/p", "ASSETMAP.xml") := by
      decide +kernel
    rw [pathOf, FileSystem.read, entry] at map
    exact (File.xml.inj (Option.some.inj map)).symm
  have assets : unmarkedAssets before =
      [("urn:uuid:video", "x/a.mxf"), ("urn:uuid:cpl", "cpl.xml")] := by
    rw [same]
    decide +kernel
  have paths : package.pathOf = fun file => "/d" ++ "/" ++ "p" ++ "/" ++ file := funext pathOf
  have tracks : listedTracks keptDisk package before = [⟨video, "/d/p/x/a.mxf"⟩] := by
    rw [listedTracks, same, paths]
    decide +kernel
  have track : Keepable keptDisk package before ("urn:uuid:video", "x/a.mxf") := by
    refine ⟨⟨"x/a.mxf", by rw [same]; decide +kernel, Or.inl (by decide +kernel), rfl, ?_⟩, ?_⟩
    · rw [pathOf]
      decide +kernel
    · rw [if_pos (by decide +kernel)]
      refine Or.inr ⟨?_, ⟨video, "/d/p/x/a.mxf"⟩, ?_, ?_⟩
      · rw [pathOf]
        exact Option.isNone_iff_eq_none.mp (by decide +kernel)
      · rw [tracks]
        decide +kernel
      · rw [pathOf]
        exact congrArg keptDisk.file (by decide +kernel)
  have playlist : Keepable keptDisk package before ("urn:uuid:cpl", "cpl.xml") := by
    refine ⟨⟨"cpl.xml", by rw [same]; decide +kernel, Or.inr (by decide +kernel), rfl, ?_⟩, ?_⟩
    · rw [pathOf]
      decide +kernel
    · rw [if_neg (by decide +kernel)]
      constructor
      · rw [paths]
        decide +kernel
      · rw [IMFPackage.orNewPackageList_of_none noList, uuid, paths]
        decide +kernel
      · rw [paths]
        decide +kernel
  have all := kept.mpr fun asset member _ => by
    rw [assets, List.mem_cons, List.mem_singleton] at member
    rcases member with rfl | rfl
    · exact track
    · exact playlist
  refine ⟨package, saved, after, loads, saves, newMap, all _ ?_ ?_, all _ ?_ ?_⟩
  · simp [assets]
  · rw [pathOf]
    decide +kernel
  · simp [assets]
  · rw [pathOf]
    decide +kernel

end Sample

end Imflib.Package
