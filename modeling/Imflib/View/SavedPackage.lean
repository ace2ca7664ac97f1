import Imflib.Package.SaveErrors
import Imflib.View.PackageInvariant

/-! Saved packages: when the asset map tells the truth about the files of the package. -/

namespace Imflib.View

open Imflib.Package

/-- A path by which `Load` finds the folder of a package. -/
def LeadsTo (disk : FileSystem File) (directory fullPath : String) : Prop :=
  disk.folderOf (FilePath.parentPath directory ++ "/" ++ FilePath.filename directory) =
    disk.folderOf fullPath

theorem leadsTo_self (disk : FileSystem File) {location name : String}
    (folder : FilePath.folder location.toList = location) (plain : '/' ∉ name.toList)
    (nonempty : name ≠ "") :
    LeadsTo disk (location ++ "/" ++ name) (location ++ "/" ++ name) := by
  rw [LeadsTo, FilePath.parentPath_join location plain, FilePath.filename_join location plain nonempty,
    folder]

def trackUUIDs (package : IMFPackage) : List String := package.tracks.map (·.track.uuid)

structure FaithfulMap (saved : WorkingPackage) (pt : PTree) : Prop where
  ids : ((listedAssets pt).map Prod.fst).Nodup
  paths : ((listedAssets pt).map Prod.snd).Nodup
  /-- Under each path is the file that carries the identifier. -/
  found : ∀ asset ∈ listedAssets pt,
    (saved.disk.read (saved.package.pathOf asset.2)).bind File.assetId = some asset.1
  loaded : ∀ directory, LeadsTo saved.disk directory saved.package.getFullPath →
    ∃ package, IMFPackage.load saved.disk directory = .ok package ∧
      (∀ uuid, uuid ∈ trackUUIDs package ↔ uuid ∈ trackUUIDs saved.package) ∧
      ∀ uuid, uuid ∈ playlistUUIDs package ↔ uuid ∈ playlistUUIDs saved.package

def Faithful (saved : WorkingPackage) : Prop :=
  ∃ pt, saved.disk.read (saved.package.pathOf "ASSETMAP.xml") = some (.xml pt) ∧
    FaithfulMap saved pt

/-- No two tracks have one identifier, and no two files have one name without extension. -/
def DistinctTracks (package : IMFPackage) : Prop :=
  (trackUUIDs package).Nodup ∧ (package.tracks.map fun asset => FilePath.stem asset.path).Nodup

theorem nodup_getFileName (package : IMFPackage) :
    (package.tracks.map TrackFile.getFileName).Nodup ↔
      (package.tracks.map fun asset => FilePath.stem asset.path).Nodup := by
  have extend : Function.Injective (fun base : String => base ++ ".mxf") :=
    fun _ _ same => (String.append_left_inj _).mp same
  have names : package.tracks.map TrackFile.getFileName =
      (package.tracks.map fun asset => FilePath.stem asset.path).map (· ++ ".mxf") := by
    rw [List.map_map]
    exact List.map_congr_left fun asset _ => asset.getFileName_eq
  rw [names, List.nodup_map_iff extend]

def listedOf (package : IMFPackage) : List (String × String) :=
  package.tracks.map (fun asset => (uuidStr asset.track.uuid, asset.getFileName)) ++
    package.compositionPlaylists.map (fun playlist =>
      (uuidStr playlist.uuid, playlistName playlist.uuid)) ++
    [(uuidStr package.uuid, packageListName package.uuid)]

namespace Managed

variable {working : WorkingPackage}

section Placed

variable (managed : Managed working) (placed : working.package.location ≠ "")

include managed placed

theorem mappedAssets_listed :
    ({ working.package with packageList := some working.package.orNewPackageList } :
      IMFPackage).mappedAssets.map (fun item => (uuidStr item.uuid, item.getFileName)) =
      listedOf working.package := by
  have playlists : (working.package.compositionPlaylists.map IMFCompositionPlaylist.item).map
      (fun item => (uuidStr item.uuid, item.getFileName)) =
      working.package.compositionPlaylists.map fun playlist =>
        (uuidStr playlist.uuid, playlistName playlist.uuid) := by
    rw [List.map_map]
    refine List.map_congr_left fun playlist member => Prod.ext rfl ?_
    exact (managed.playlist_file placed member).2
  have list : (uuidStr working.package.orNewPackageList.item.uuid,
      working.package.orNewPackageList.item.getFileName) =
      (uuidStr working.package.uuid, packageListName working.package.uuid) := by
    refine Prod.ext ?_ (managed.packageList_file placed).2
    rw [managed.packageList]
    rfl
  simp only [IMFPackage.mappedAssets, IMFPackage.assets, managed.outputProfiles, List.map_append,
    List.map_nil, List.append_nil, Option.toList_some, List.map_cons]
  rw [playlists, list]
  simp only [listedOf, List.map_map]
  rfl

theorem names_nodup :
    (working.package.compositionPlaylists.map (fun playlist => playlistName playlist.uuid) ++
      [packageListName working.package.uuid]).Nodup := by
  have distinct := managed.distinct
  rw [madeUUIDs_placed placed] at distinct
  refine List.nodup_append.mpr ⟨?_, List.nodup_singleton _, ?_⟩
  · have names := (List.nodup_cons.mp distinct).2.map (f := playlistName) fun _ _ => playlistName_inj
    rwa [playlistUUIDs, List.map_map] at names
  · intro name member other isList clash
    obtain ⟨playlist, -, rfl⟩ := List.mem_map.mp member
    rw [List.mem_singleton.mp isList] at clash
    exact (names_apart _ _).1 clash

/-- Distinct tracks are what makes the asset map unambiguous. -/
theorem listedOf_nodup : ((listedOf working.package).map Prod.fst).Nodup ∧
    ((listedOf working.package).map Prod.snd).Nodup ↔ DistinctTracks working.package := by
  have ids : (listedOf working.package).map Prod.fst =
      (trackUUIDs working.package ++
        (playlistUUIDs working.package ++ [working.package.uuid])).map uuidStr := by
    simp [listedOf, trackUUIDs, playlistUUIDs, List.map_map, Function.comp_def]
  have paths : (listedOf working.package).map Prod.snd =
      working.package.tracks.map TrackFile.getFileName ++
        (working.package.compositionPlaylists.map (fun playlist => playlistName playlist.uuid) ++
          [packageListName working.package.uuid]) := by
    simp [listedOf, List.map_map, Function.comp_def]
  have made : (playlistUUIDs working.package ++ [working.package.uuid]).Perm
      (madeUUIDs working.package) := by
    rw [madeUUIDs_placed placed]
    exact List.perm_append_singleton _ _
  have madeApart : ∀ uuid ∈ trackUUIDs working.package,
      ∀ other ∈ playlistUUIDs working.package ++ [working.package.uuid], uuid ≠ other := by
    intro uuid member other isMade clash
    obtain ⟨asset, inside, rfl⟩ := List.mem_map.mp member
    exact managed.stored.unusedTracks other (made.mem_iff.mp isMade) asset inside clash
  have namesApart : ∀ name ∈ working.package.tracks.map TrackFile.getFileName,
      ∀ other ∈ working.package.compositionPlaylists.map (fun playlist =>
        playlistName playlist.uuid) ++ [packageListName working.package.uuid], name ≠ other := by
    intro name member other xml clash
    obtain ⟨asset, -, rfl⟩ := List.mem_map.mp member
    rw [asset.getFileName_eq] at clash
    rcases List.mem_append.mp xml with playlist | list
    · obtain ⟨playlist, -, rfl⟩ := List.mem_map.mp playlist
      exact mxf_ne_xml _ _ clash
    · rw [List.mem_singleton.mp list] at clash
      exact mxf_ne_xml _ _ clash
  rw [ids, paths, List.nodup_map_iff uuidStr_injective]
  exact and_congr
    (List.nodup_append.trans (and_iff_left ⟨made.nodup_iff.mpr managed.distinct, madeApart⟩))
    ((List.nodup_append.trans (and_iff_left ⟨managed.names_nodup placed, namesApart⟩)).trans
      (nodup_getFileName working.package))

end Placed

end Managed

section Written

variable {fileSize : File → Nat} {refused : Refusals} {working saved : WorkingPackage}
  (names : ∀ playlist ∈ working.package.compositionPlaylists, working.disk.entry playlist.path =
    (working.disk.folderOf working.package.getFullPath, playlistName playlist.uuid))
  (list : working.disk.entry working.package.orNewPackageList.path =
    (working.disk.folderOf working.package.getFullPath, packageListName working.package.uuid))

include names list in
/-- The files that `Write` makes have names of their own. -/
theorem written_of_names (succeeded : working.write fileSize refused = .done saved) :
    WorkingPackage.Written fileSize working saved := by
  have noError : (working.write fileSize refused).error = none := by
    rw [succeeded]
    rfl
  have written : WorkingPackage.Written fileSize working (working.write fileSize refused).state := by
    apply working.write_succeeded
    · intro playlist member
      rw [names playlist member, list, assetMap_file]
      have apart := names_apart playlist.uuid working.package.uuid
      exact ⟨fun same => apart.1 (congrArg Prod.snd same),
        fun same => apart.2.1 (congrArg Prod.snd same)⟩
    · rw [list, assetMap_file]
      exact fun same => (names_apart "" working.package.uuid).2.2 (congrArg Prod.snd same)
    · exact noError
  rw [succeeded] at written
  exact written

variable (written : WorkingPackage.Written fileSize working saved)
  (files : WritesXml (XmlName (working.disk.folderOf working.package.getFullPath)) working.disk
    saved.disk)

include written files

include names in
theorem file_of_playlist (distinct : (playlistUUIDs working.package).Nodup)
    {playlist : IMFCompositionPlaylist}
    (member : playlist ∈ working.package.compositionPlaylists) :
    ∃ pt, playlist.write = .ok pt ∧ saved.disk.file
      (working.disk.folderOf working.package.getFullPath, playlistName playlist.uuid) =
        some (.xml pt) := by
  have entry := names playlist member
  obtain ⟨other, inside, same, pt, wrote, content⟩ := written.playlists playlist member
  rw [entry, names other inside] at same
  have sameUUID : other.uuid = playlist.uuid := playlistName_inj (congrArg Prod.snd same)
  have own : other = playlist := List.inj_on_of_nodup_map distinct inside member sameUUID
  rw [FileSystem.read, files.entry, entry] at content
  exact ⟨pt, own ▸ wrote, content⟩

include list in
theorem file_of_packageList :
    ∃ pt, pt.getChild? ["CompositionPlaylist"] = none ∧
      (File.xml pt).assetId = some (uuidStr working.package.orNewPackageList.uuid) ∧
      saved.disk.file
        (working.disk.folderOf working.package.getFullPath, packageListName working.package.uuid) =
          some (.xml pt) := by
  obtain ⟨_, disk, pt, tree, content⟩ := written.packageList
  obtain ⟨other, id⟩ := packageList_eq_ok tree
  rw [FileSystem.read, files.entry, list] at content
  exact ⟨pt, other, id, content⟩

end Written

structure SavedFrom (fileSize : File → Nat) (copied saved : WorkingPackage) : Prop where
  managed : Managed copied
  placed : copied.package.location ≠ ""
  written : WorkingPackage.Written fileSize copied saved
  files : WritesXml (XmlName (copied.disk.folderOf copied.package.getFullPath)) copied.disk saved.disk

theorem savedFrom {fileSize : File → Nat} {refused : Refusals} {prepared saved : WorkingPackage}
    (managed : Managed prepared) (placed : prepared.package.location ≠ "")
    (succeeded : prepared.save fileSize refused = .done saved) :
    (prepared.copyTrackFiles refused).error = none ∧
      SavedFrom fileSize (prepared.copyTrackFiles refused).state saved := by
  obtain ⟨copies, writes⟩ := WorkingPackage.save_done succeeded
  have copied := managed.copyTrackFiles refused
  have stillPlaced : (prepared.copyTrackFiles refused).state.package.location ≠ "" := by
    rwa [prepared.copyTrackFiles_location]
  have written := written_of_names (fun _ member => (copied.playlist_file stillPlaced member).1)
    (copied.packageList_file stillPlaced).1 writes
  have files := (copied.write_writing stillPlaced fileSize refused).files
  rw [writes] at files
  exact ⟨copies, copied, stillPlaced, written, files⟩

namespace SavedFrom

variable {fileSize : File → Nat} {copied saved : WorkingPackage}

theorem pathOf (from_ : SavedFrom fileSize copied saved) :
    saved.package.pathOf = copied.package.pathOf := by
  rw [from_.written.package]
  rfl

theorem assetMap (from_ : SavedFrom fileSize copied saved) :
    ∃ pt, saved.disk.read (saved.package.pathOf "ASSETMAP.xml") = some (.xml pt) ∧
      listedAssets pt = listedOf copied.package := by
  obtain ⟨_, disk, pt, written, content⟩ := from_.written.assetMap
  refine ⟨pt, ?_, ?_⟩
  · rw [from_.pathOf]
    exact content
  · rw [listedAssets_assetMapTree written, from_.written.package]
    exact from_.managed.mappedAssets_listed from_.placed

theorem playlist (from_ : SavedFrom fileSize copied saved) {playlist : IMFCompositionPlaylist}
    (member : playlist ∈ copied.package.compositionPlaylists) :
    ∃ pt, playlist.write = .ok pt ∧ saved.disk.file
      (copied.disk.folderOf copied.package.getFullPath, playlistName playlist.uuid) =
        some (.xml pt) := by
  have distinct := from_.managed.distinct
  rw [madeUUIDs_placed from_.placed] at distinct
  exact file_of_playlist (fun _ inside => (from_.managed.playlist_file from_.placed inside).1)
    from_.written from_.files (List.nodup_cons.mp distinct).2 member

theorem packageList (from_ : SavedFrom fileSize copied saved) :
    ∃ pt, pt.getChild? ["CompositionPlaylist"] = none ∧
      (File.xml pt).assetId = some (uuidStr copied.package.uuid) ∧ saved.disk.file
      (copied.disk.folderOf copied.package.getFullPath, packageListName copied.package.uuid) =
        some (.xml pt) := by
  obtain ⟨pt, other, id, content⟩ := file_of_packageList
    (from_.managed.packageList_file from_.placed).1 from_.written from_.files
  refine ⟨pt, other, ?_, content⟩
  rw [id, from_.managed.packageList]

def Settles (copied saved : WorkingPackage) : Prop :=
  ∀ asset ∈ copied.package.tracks, saved.disk.file
    (copied.disk.folderOf copied.package.getFullPath, asset.getFileName) =
      some (.mxf (.ok asset.track))

theorem found (from_ : SavedFrom fileSize copied saved) (settles : Settles copied saved) :
    ∀ asset ∈ listedOf copied.package,
      (saved.disk.read (saved.package.pathOf asset.2)).bind File.assetId = some asset.1 := by
  have at_ {name : String} (plain : '/' ∉ name.toList) (nonempty : name ≠ "") :
      saved.disk.read (saved.package.pathOf name) =
        saved.disk.file (copied.disk.folderOf copied.package.getFullPath, name) := by
    rw [FileSystem.read, from_.files.entry, from_.pathOf, IMFPackage.pathOf,
      FileSystem.entry_join _ _ plain nonempty]
  have xml {base : String} (plain : '/' ∉ base.toList) :=
    at_ (slash_not_mem_append plain (by decide : '/' ∉ ".xml".toList)) (append_ne_empty base (by decide))
  intro asset member
  rcases List.mem_append.mp member with trackOrPlaylist | list
  · rcases List.mem_append.mp trackOrPlaylist with listed | listed
    · obtain ⟨asset, inside, rfl⟩ := List.mem_map.mp listed
      rw [at_ asset.slash_not_mem_getFileName asset.getFileName_ne_empty, settles asset inside]
      rfl
    · obtain ⟨playlist, inside, rfl⟩ := List.mem_map.mp listed
      obtain ⟨pt, written, content⟩ := from_.playlist inside
      rw [playlistName, xml (from_.managed.plain_playlist from_.placed inside), ← playlistName, content]
      exact assetId_playlist written
  · cases List.mem_singleton.mp list
    obtain ⟨pt, -, id, content⟩ := from_.packageList
    rw [packageListName, xml (from_.managed.plain_packageList from_.placed), ← packageListName, content]
    exact id

def xmlNames (_ : SavedFrom fileSize copied saved) : List String :=
  copied.package.compositionPlaylists.map (fun playlist => playlistName playlist.uuid) ++
    [packageListName copied.package.uuid]

theorem extension_xmlNames (from_ : SavedFrom fileSize copied saved) :
    ∀ name ∈ from_.xmlNames, FilePath.extension name = ".xml" := by
  intro name member
  rcases List.mem_append.mp member with listed | list
  · obtain ⟨playlist, inside, rfl⟩ := List.mem_map.mp listed
    exact extension_xml (from_.managed.plain_playlist from_.placed inside)
  · cases List.mem_singleton.mp list
    exact extension_xml (from_.managed.plain_packageList from_.placed)

theorem names_mappedAssets (from_ : SavedFrom fileSize copied saved) :
    saved.package.mappedAssets.map IMFPackageItem.getFileName =
      copied.package.tracks.map TrackFile.getFileName ++ from_.xmlNames := by
  have listed := congrArg (List.map Prod.snd) (from_.managed.mappedAssets_listed from_.placed)
  rw [List.map_map] at listed
  rw [from_.written.package]
  refine listed.trans ?_
  simp [listedOf, xmlNames, Function.comp_def]

theorem parse_xmlNames (from_ : SavedFrom fileSize copied saved) {read : IMFPackage}
    (located : ∀ base : String, '/' ∉ base.toList →
      saved.disk.read (read.pathOf (base ++ ".xml")) =
        saved.disk.file (copied.disk.folderOf copied.package.getFullPath, base ++ ".xml"))
    (distinct : ((read.tracks.map TrackFile.track).map IMFTrack.uuid).Nodup) :
    ∃ parsed, (from_.xmlNames.map read.pathOf).foldlM (IMFPackage.parseAndAddXML saved.disk) read =
        .ok parsed ∧ parsed.tracks = read.tracks ∧
      parsed.compositionPlaylists.map IMFCompositionPlaylist.uuid =
        read.compositionPlaylists.map IMFCompositionPlaylist.uuid ++
          copied.package.compositionPlaylists.map IMFCompositionPlaylist.uuid := by
  have resolved : ∀ playlist ∈ copied.package.compositionPlaylists,
      playlist.Resolved (read.tracks.map TrackFile.track) := by
    intro playlist member address inside
    rw [IMFCompositionPlaylist.sequences, (from_.managed.playlists playlist member).2] at inside
    cases inside
  have playlistFiles : ∀ playlist ∈ copied.package.compositionPlaylists, ∃ pt,
      playlist.write = .ok pt ∧
        saved.disk.read (read.pathOf (playlistName playlist.uuid)) = some (.xml pt) := by
    intro playlist member
    obtain ⟨pt, written, content⟩ := from_.playlist member
    refine ⟨pt, written, ?_⟩
    rw [playlistName, located _ (from_.managed.plain_playlist from_.placed member)]
    exact content
  obtain ⟨parsed, playlistsParsed, keepsTracks, playlists⟩ := IMFPackage.parsePlaylists
    (fun playlist => read.pathOf (playlistName playlist.uuid)) copied.package.compositionPlaylists
    read distinct resolved playlistFiles
  obtain ⟨list, other, -, content⟩ := from_.packageList
  have passed : IMFPackage.parseAndAddXML saved.disk parsed
      (read.pathOf (packageListName copied.package.uuid)) = .ok parsed := by
    refine IMFPackage.parseAndAddXML_other ?_ other
    rw [packageListName, located _ (from_.managed.plain_packageList from_.placed)]
    exact content
  refine ⟨parsed, ?_, keepsTracks, playlists⟩
  rw [xmlNames, List.map_append, List.foldlM_append, List.map_map, List.map_singleton]
  refine bind_eq_ok.mpr ⟨parsed, playlistsParsed, ?_⟩
  rw [List.foldlM_cons, passed]
  rfl

theorem readAssetMap (from_ : SavedFrom fileSize copied saved) (settles : Settles copied saved)
    (distinct : (trackUUIDs copied.package).Nodup) {fresh : IMFPackage}
    (folder : saved.disk.folderOf fresh.getFullPath =
      copied.disk.folderOf copied.package.getFullPath)
    (noTracks : fresh.tracks = []) (noPlaylists : fresh.compositionPlaylists = []) :
    ∃ package, fresh.readAssetMap saved.disk (fresh.pathOf "ASSETMAP.xml") = .ok package ∧
      (trackUUIDs package).Perm (trackUUIDs copied.package) ∧
      playlistUUIDs package = playlistUUIDs copied.package := by
  have at_ {name : String} (plain : '/' ∉ name.toList) (nonempty : name ≠ "") :
      saved.disk.read (fresh.pathOf name) =
        saved.disk.file (copied.disk.folderOf copied.package.getFullPath, name) := by
    rw [FileSystem.read, IMFPackage.pathOf, FileSystem.entry_join _ _ plain nonempty, folder]
  obtain ⟨_, disk, pt, written, content⟩ := from_.written.assetMap
  have mapContent : saved.disk.read (fresh.pathOf "ASSETMAP.xml") = some (.xml pt) := by
    rw [FileSystem.read, from_.files.entry, assetMap_file] at content
    rw [FileSystem.read, assetMap_file, folder]
    exact content
  have standard : saved.package.headerAssetMap = .standard := by
    rw [from_.written.package]
    exact from_.managed.header
  -- All tracks are read first.
  obtain ⟨read, tracksRead, samePath, playlists, tracks⟩ :=
    IMFPackage.readTracks copied.package.tracks
      ({ fresh with
        uuid := saved.package.uuid
        headerAssetMap := saved.package.headerAssetMap }, []) fun asset member =>
          (at_ asset.slash_not_mem_getFileName asset.getFileName_ne_empty).trans
            (settles asset member)
  have noneBefore : ({ fresh with
      uuid := saved.package.uuid
      headerAssetMap := saved.package.headerAssetMap } : IMFPackage).tracks = [] := noTracks
  have same : (trackUUIDs read).Perm (trackUUIDs copied.package) := by
    rw [noneBefore, List.map_nil, List.append_nil] at tracks
    have uuids := tracks.map IMFTrack.uuid
    rwa [List.map_map, List.map_map] at uuids
  have distinctRead : ((read.tracks.map TrackFile.track).map IMFTrack.uuid).Nodup := by
    rw [List.map_map]
    exact same.nodup_iff.mpr distinct
  have xmlFiles : from_.xmlNames.foldlM (IMFPackage.readPath saved.disk) (read, []) =
      .ok (read, [] ++ from_.xmlNames.map read.pathOf) :=
    IMFPackage.readXmlNames from_.xmlNames (read, []) from_.extension_xmlNames
  have located : ∀ base : String, '/' ∉ base.toList →
      saved.disk.read (read.pathOf (base ++ ".xml")) =
        saved.disk.file (copied.disk.folderOf copied.package.getFullPath, base ++ ".xml") := by
    intro base plain
    rw [samePath]
    exact at_ (slash_not_mem_append plain (by decide)) (append_ne_empty base (by decide))
  obtain ⟨parsed, parses, keepsTracks, loadedPlaylists⟩ := from_.parse_xmlNames located distinctRead
  refine ⟨parsed, ?_, ?_, ?_⟩
  · refine IMFPackage.readAssetMap_written written ?_ ?_ mapContent ?_ parses
    · rw [standard]
      decide
    · rw [standard]
      decide
    · rw [from_.names_mappedAssets, List.foldlM_append, tracksRead]
      exact xmlFiles
  · rwa [trackUUIDs, keepsTracks]
  · rw [playlistUUIDs, loadedPlaylists, playlists]
    exact congrArg (List.map IMFCompositionPlaylist.uuid · ++ _) noPlaylists

theorem faithful (from_ : SavedFrom fileSize copied saved) (settles : Settles copied saved)
    (distinct : DistinctTracks copied.package) : Faithful saved := by
  obtain ⟨pt, content, listed⟩ := from_.assetMap
  obtain ⟨ids, paths⟩ := (from_.managed.listedOf_nodup from_.placed).mpr distinct
  refine ⟨pt, content, ?_⟩
  refine
    { ids := listed ▸ ids
      paths := listed ▸ paths
      found := listed ▸ from_.found settles
      loaded := ?_ }
  intro directory leads
  have folder : saved.disk.folderOf saved.package.getFullPath =
      copied.disk.folderOf copied.package.getFullPath := by
    rw [FileSystem.folderOf_congr from_.files.canonical, from_.written.package]
    rfl
  obtain ⟨package, loaded, tracks, playlists⟩ := @readAssetMap _ _ _ from_ settles distinct.1
    { IMFPackage.new with
      location := FilePath.parentPath directory
      name := FilePath.filename directory } (leads.trans folder) rfl rfl
  have sameTracks : trackUUIDs saved.package = trackUUIDs copied.package := by
    rw [from_.written.package]
    rfl
  have samePlaylists : playlistUUIDs saved.package = playlistUUIDs copied.package := by
    rw [from_.written.package]
    rfl
  refine ⟨package, loaded, fun uuid => ?_, fun uuid => ?_⟩
  · rw [sameTracks, tracks.mem_iff]
  · rw [samePlaylists, playlists]

theorem distinctTracks (from_ : SavedFrom fileSize copied saved) (faithful : Faithful saved) :
    DistinctTracks copied.package := by
  obtain ⟨pt, content, faithfulMap⟩ := faithful
  obtain ⟨written, sameContent, listed⟩ := from_.assetMap
  rw [content] at sameContent
  cases Option.some.inj sameContent
  refine (from_.managed.listedOf_nodup from_.placed).mp ?_
  rw [← listed]
  exact ⟨faithfulMap.ids, faithfulMap.paths⟩

end SavedFrom

theorem distinctTracks_congr {first second : IMFPackage}
    (same : first.tracks.map TrackFile.listing = second.tracks.map TrackFile.listing) :
    DistinctTracks first ↔ DistinctTracks second := by
  have uuids (package : IMFPackage) : trackUUIDs package =
      (package.tracks.map TrackFile.listing).map (·.1.uuid) := by
    rw [List.map_map]
    rfl
  have names (package : IMFPackage) : package.tracks.map TrackFile.getFileName =
      (package.tracks.map TrackFile.listing).map (·.2) := by
    rw [List.map_map]
    rfl
  rw [DistinctTracks, DistinctTracks, ← nodup_getFileName, ← nodup_getFileName, uuids, uuids, names,
    names, same]

theorem Managed.ready {working : WorkingPackage} (managed : Managed working)
    (placed : working.package.location ≠ "") (distinct : DistinctTracks working.package) :
    ∀ asset ∈ working.package.tracks,
      Ready working.disk.canonical working.package.getFullPath asset working.disk := by
  intro asset member
  refine ⟨rfl, ?_⟩
  have ownFile := managed.stored.files distinct.1
  have names := (nodup_getFileName working.package).mpr distinct.2
  cases held : working.disk.read (working.package.getFullPath ++ "/" ++ asset.getFileName) with
  | none => exact Or.inr ⟨rfl, ownFile asset member⟩
  | some content =>
      have target := asset.entry_target working.disk working.package.getFullPath
      have heldAt := held
      rw [FileSystem.read, target] at heldAt
      rcases managed.stored.folder placed _ _ heldAt with
        ⟨other, inside, there, named⟩ | ⟨⟨base, xml⟩, -⟩
      · have same : other = asset := List.inj_on_of_nodup_map names inside member named
        rw [same, ← target] at there
        rw [← held, FileSystem.read, ← there]
        exact Or.inl (ownFile asset member)
      · rw [asset.getFileName_eq] at xml
        exact absurd xml (mxf_ne_xml _ _)

/-- Tracks that were moved are where the asset map says, after XML files of the package have been
written too. -/
theorem Managed.settled_after {prepared : WorkingPackage} {refused : Refusals}
    (managed : Managed prepared) (placed : prepared.package.location ≠ "")
    (distinct : DistinctTracks prepared.package)
    (copies : (prepared.copyTrackFiles refused).error = none) {after : FileSystem File}
    (files : WritesXml (XmlName (prepared.disk.folderOf prepared.package.getFullPath))
      (prepared.copyTrackFiles refused).state.disk after) :
    ∀ asset ∈ (prepared.copyTrackFiles refused).state.package.tracks, after.file
      (prepared.disk.folderOf prepared.package.getFullPath, asset.getFileName) =
        some (.mxf (.ok asset.track)) := by
  have names := (nodup_getFileName prepared.package).mpr distinct.2
  intro asset member
  have listed : asset.listing ∈ prepared.package.tracks.map TrackFile.listing := by
    rw [← prepared.listing_copyTrackFiles refused]
    exact List.mem_map_of_mem member
  obtain ⟨before, inside, same⟩ := List.mem_map.mp listed
  obtain ⟨canonical, target⟩ := WorkingPackage.copyTrackFiles_settles inside
    (managed.ready placed distinct before inside)
    (fun other otherMember same => by rw [List.inj_on_of_nodup_map names otherMember inside same])
    copies
  have sameTrack : before.track = asset.track := congrArg Prod.fst same
  have sameName : before.getFileName = asset.getFileName := congrArg Prod.snd same
  rw [FileSystem.read, before.entry_target, sameName, sameTrack,
    FileSystem.folderOf_congr canonical] at target
  refine ((files.files _).resolve_right fun xml => ?_).trans target
  obtain ⟨-, base, named⟩ := xml.1
  rw [asset.getFileName_eq] at named
  exact mxf_ne_xml _ _ named

theorem SavedFrom.settles {fileSize : File → Nat} {refused : Refusals}
    {prepared saved : WorkingPackage} (managed : Managed prepared)
    (placed : prepared.package.location ≠ "") (distinct : DistinctTracks prepared.package)
    (copies : (prepared.copyTrackFiles refused).error = none)
    (from_ : SavedFrom fileSize (prepared.copyTrackFiles refused).state saved) :
    Settles (prepared.copyTrackFiles refused).state saved := by
  have folder : (prepared.copyTrackFiles refused).state.disk.folderOf
      (prepared.copyTrackFiles refused).state.package.getFullPath =
        prepared.disk.folderOf prepared.package.getFullPath := by
    rw [prepared.copyTrackFiles_getFullPath,
      FileSystem.folderOf_congr (prepared.canonical_copyTrackFiles refused)]
  have files := from_.files
  rw [Settles]
  rw [folder] at files ⊢
  exact managed.settled_after placed distinct copies files

section Run

variable {fileSize : File → Nat} {start working prepared saved : WorkingPackage}
  {directory name uuid : String} {refused : Refusals}

theorem distinctTracks_prepareSave (managed : Managed working) (fresh : FreshUUID working uuid)
    (prepares : prepareSave working directory name uuid = some prepared) (refused : Refusals) :
    DistinctTracks (prepared.copyTrackFiles refused).state.package ↔
      DistinctTracks working.package := by
  obtain ⟨-, -, same⟩ := managed.prepareSave fresh prepares
  calc DistinctTracks (prepared.copyTrackFiles refused).state.package
      ↔ DistinctTracks prepared.package :=
        distinctTracks_congr (prepared.listing_copyTrackFiles refused)
    _ ↔ DistinctTracks working.package := distinctTracks_congr (congrArg _ same)

/-- A faithful asset map is unambiguous, so the tracks are distinct. -/
theorem distinctTracks_of_faithful (managed : Managed working) (fresh : FreshUUID working uuid)
    (prepares : prepareSave working directory name uuid = some prepared)
    (succeeded : prepared.save fileSize refused = .done saved) (faithful : Faithful saved) :
    DistinctTracks working.package := by
  obtain ⟨ready, placed, -⟩ := managed.prepareSave fresh prepares
  obtain ⟨-, from_⟩ := savedFrom ready placed succeeded
  exact (distinctTracks_prepareSave managed fresh prepares refused).mp (from_.distinctTracks faithful)

/-- A save that has succeeded leaves a faithful asset map if and only if the tracks have distinct
identifiers and their files have distinct names. -/
theorem saved_faithful_iff (started : PackageStarted start)
    (reached : Transition.Reachable (PackageStep fileSize) start working)
    (fresh : FreshUUID working uuid)
    (prepares : prepareSave working directory name uuid = some prepared)
    (succeeded : prepared.save fileSize refused = .done saved) :
    Faithful saved ↔ DistinctTracks working.package := by
  have managed := Managed.of_reachable started reached
  constructor
  · exact distinctTracks_of_faithful managed fresh prepares succeeded
  · intro distinct
    obtain ⟨ready, placed, same⟩ := managed.prepareSave fresh prepares
    obtain ⟨copies, from_⟩ := savedFrom ready placed succeeded
    have before : DistinctTracks prepared.package :=
      (distinctTracks_congr (congrArg _ same)).mpr distinct
    have after := (distinctTracks_prepareSave managed fresh prepares refused).mpr distinct
    exact from_.faithful (from_.settles ready placed before copies) after

end Run

namespace Sample

/-- Folders `x`, `y` and `z`, with video in `x` and audio in `y`. -/
def disk (audioName : String) : FileSystem File where
  canonical := id
  directory := fun folder => folder = "/" ∨ folder = "/x" ∨ folder = "/y" ∨ folder = "/z"
  file := fun entry =>
    if entry = ("/x", "a.mxf") then some (.mxf (.ok Package.Sample.video))
    else if entry = ("/y", audioName) then some (.mxf (.ok Package.Sample.audio))
    else none
  inside := by
    intro entry filled
    by_cases video : entry = ("/x", "a.mxf")
    · simp [video]
    · by_cases audio : entry = ("/y", audioName)
      · simp [audio]
      · rw [if_neg video, if_neg audio] at filled
        cases filled

def start (audioName : String) : WorkingPackage := ⟨disk audioName, .new⟩

def withTracks (audioName : String) : WorkingPackage :=
  addTrackFile (addTrackFile (start audioName) "/x/a.mxf") ("/y/" ++ audioName)

theorem reachable_withTracks (audioName : String) :
    Transition.Reachable (PackageStep fun _ => 0) (start audioName) (withTracks audioName) := by
  have first : PackageStep (fun _ => 0) (start audioName) (.addTrackFile "/x/a.mxf")
      (addTrackFile (start audioName) "/x/a.mxf") := ⟨nofun, rfl⟩
  have second : PackageStep (fun _ => 0) (addTrackFile (start audioName) "/x/a.mxf")
      (.addTrackFile ("/y/" ++ audioName)) (withTracks audioName) := ⟨nofun, rfl⟩
  exact (Transition.Reachable.refl.tail first).tail second

theorem disk_withTracks (audioName : String) : (withTracks audioName).disk = disk audioName := by
  have unchanged (working : WorkingPackage) (fileName : String) :
      (addTrackFile working fileName).disk = working.disk := by
    unfold addTrackFile
    split
    · rfl
    · split <;> rfl
  rw [withTracks, unchanged, unchanged]
  rfl

theorem freshUUID (audioName : String)
    (tracks : ∀ asset ∈ (withTracks audioName).package.tracks, asset.track.uuid ≠ "u")
    (made : "u" ∉ madeUUIDs (withTracks audioName).package) :
    FreshUUID (withTracks audioName) "u" := by
  refine ⟨by decide, made, tracks, ?_⟩
  intro entry track held
  rw [disk_withTracks] at held
  dsimp only [disk] at held
  split at held
  · cases held
    decide
  · split at held
    · cases held
      decide
    · cases held

/-- The package is saved as `/z/p`. -/
def saves (working : WorkingPackage) : Bool :=
  (prepareSave working "/z" "p" "u").any fun prepared =>
    (prepared.save (fun _ => 0) .none).error.isNone

theorem of_saves {working : WorkingPackage} (succeeds : saves working = true) :
    ∃ prepared saved, prepareSave working "/z" "p" "u" = some prepared ∧
      prepared.save (fun _ => 0) .none = .done saved := by
  unfold saves at succeeds
  cases prepares : prepareSave working "/z" "p" "u" with
  | none =>
      rw [prepares] at succeeds
      cases succeeds
  | some prepared =>
      rw [prepares, Option.any_some, Option.isNone_iff_eq_none] at succeeds
      generalize result : prepared.save (fun _ => 0) .none = outcome at succeeds
      obtain ⟨saved, error⟩ := outcome
      cases succeeds
      exact ⟨prepared, saved, rfl, result⟩

/-- Video and audio with files of one name, from two folders. -/
theorem same_names_unfaithful : ∃ prepared saved,
    Transition.Reachable (PackageStep fun _ => 0) (start "a.mxf") (withTracks "a.mxf") ∧
      FreshUUID (withTracks "a.mxf") "u" ∧
      prepareSave (withTracks "a.mxf") "/z" "p" "u" = some prepared ∧
      prepared.save (fun _ => 0) .none = .done saved ∧ ¬ Faithful saved := by
  have reached := reachable_withTracks "a.mxf"
  have fresh := freshUUID "a.mxf" (by decide +kernel) (by decide +kernel)
  obtain ⟨prepared, saved, prepares, succeeded⟩ := @of_saves (withTracks "a.mxf") (by decide +kernel)
  refine ⟨prepared, saved, reached, fresh, prepares, succeeded, fun faithful => ?_⟩
  have managed := Managed.of_reachable (rfl : PackageStarted (start "a.mxf")) reached
  have distinct := distinctTracks_of_faithful managed fresh prepares succeeded faithful
  exact absurd distinct.2 (by decide +kernel)

theorem distinct_names_faithful : ∃ prepared saved,
    prepareSave (withTracks "b.mxf") "/z" "p" "u" = some prepared ∧
      prepared.save (fun _ => 0) .none = .done saved ∧ Faithful saved := by
  obtain ⟨prepared, saved, prepares, succeeded⟩ := @of_saves (withTracks "b.mxf") (by decide +kernel)
  have started : PackageStarted (start "b.mxf") := rfl
  have fresh := freshUUID "b.mxf" (by decide +kernel) (by decide +kernel)
  have distinct : DistinctTracks (withTracks "b.mxf").package :=
    ⟨by decide +kernel, by decide +kernel⟩
  exact ⟨prepared, saved, prepares, succeeded, (saved_faithful_iff started
    (reachable_withTracks "b.mxf") fresh prepares succeeded).mpr distinct⟩

def videoRefused : Refusals := { Refusals.none with rename := fun source _ => source = "/x/a.mxf" }

def refusedMove (working : WorkingPackage) : Bool :=
  (prepareSave working "/z" "p" "u").any fun prepared =>
    (prepared.copyTrackFiles videoRefused).error =
      some (.filesystemError "boost::filesystem::rename")

/-- The exception of the move leaves `CopyTrackFiles`, and the program with it. -/
theorem refused_move_escapes : ∃ prepared,
    Transition.Reachable (PackageStep fun _ => 0) (start "b.mxf") (withTracks "b.mxf") ∧
      prepareSave (withTracks "b.mxf") "/z" "p" "u" = some prepared ∧
      (prepared.copyTrackFiles videoRefused).error =
        some (.filesystemError "boost::filesystem::rename") ∧
      ¬ SaveCaught (prepared.copyTrackFiles videoRefused) := by
  have refuses : refusedMove (withTracks "b.mxf") = true := by decide +kernel
  unfold refusedMove at refuses
  cases prepares : prepareSave (withTracks "b.mxf") "/z" "p" "u" with
  | none =>
      rw [prepares] at refuses
      cases refuses
  | some prepared =>
      rw [prepares, Option.any_some, decide_eq_true_iff] at refuses
      refine ⟨prepared, reachable_withTracks "b.mxf", rfl, refuses, fun caught => ?_⟩
      rw [SaveCaught, refuses] at caught
      rcases caught with none | ⟨what, same⟩
      · cases none
      · cases same

end Sample

end Imflib.View
