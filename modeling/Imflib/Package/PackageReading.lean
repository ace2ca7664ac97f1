import Imflib.Package.PackageWriting
import Imflib.Package.TrackCopying

/-! What is loaded from an asset map. -/

namespace Imflib.Package

theorem TrackFile.extension_getFileName (asset : TrackFile) :
    FilePath.extension asset.getFileName = ".mxf" := by
  have named : FilePath.filename asset.getFileName = FilePath.stem asset.path ++ "." ++ "mxf" := by
    rw [FilePath.filename_of_plain asset.slash_not_mem_getFileName asset.getFileName_ne_empty,
      asset.getFileName_eq, mxf_suffix]
  exact FilePath.extension_of_suffix named (by decide) (by decide)

namespace IMFPackage

variable {disk : FileSystem File}

theorem readAsset_mappedAsset (read : IMFPackage × List String) (item : IMFPackageItem)
    (size : Nat) :
    readAsset disk read ("Asset", mappedAsset item size) = readPath disk read item.getFileName := by
  obtain ⟨path, volumeIndex⟩ := text?_mappedChunk item size
  have chunkList := getChild_of_some (getChild?_mappedAsset item size)
  have volume : getInt ["VolumeIndex"] (mappedChunk item size) = .ok 1 := by
    rw [getInt_eq, volumeIndex]
    rfl
  rw [readAsset, if_pos rfl, getString_of_text (text?_mappedAsset item size), chunkList]
  simp only [PTree.children_node, List.foldlM_cons, List.foldlM_nil, readChunk,
    getString_of_text path, volume, ok_bind]
  exact bind_pure _

theorem readAssets_mappedAssets (items : List IMFPackageItem) (size : IMFPackageItem → Nat)
    (read : IMFPackage × List String) :
    (items.map fun item => ("Asset", mappedAsset item (size item))).foldlM (readAsset disk) read =
      (items.map IMFPackageItem.getFileName).foldlM (readPath disk) read := by
  induction items generalizing read with
  | nil => rfl
  | cons item rest ih =>
      simp only [List.map_cons, List.foldlM_cons, readAsset_mappedAsset, ih]

theorem pathOf_addTrack (package : IMFPackage) (asset : TrackFile) :
    (package.addTrack asset).pathOf = package.pathOf := by
  unfold addTrack
  cases asset.track.type <;> rfl

theorem compositionPlaylists_addTrack (package : IMFPackage) (asset : TrackFile) :
    (package.addTrack asset).compositionPlaylists = package.compositionPlaylists := by
  unfold addTrack
  cases asset.track.type <;> rfl

theorem readPath_track {read : IMFPackage × List String} {name : String} {track : IMFTrack}
    (extension : FilePath.extension name = ".mxf")
    (found : disk.read (read.1.pathOf name) = some (.mxf (.ok track))) :
    readPath disk read name = .ok (read.1.addTrack ⟨track, read.1.pathOf name⟩, read.2) := by
  rw [readPath, if_pos extension, parseAndAddTrack, found]
  rfl

theorem readPath_xml {read : IMFPackage × List String} {name : String}
    (extension : FilePath.extension name = ".xml") :
    readPath disk read name = .ok (read.1, read.2 ++ [read.1.pathOf name]) := by
  rw [readPath, if_neg (by rw [extension]; decide), if_pos extension]
  rfl

theorem readTracks (assets : List TrackFile) (read : IMFPackage × List String)
    (found : ∀ asset ∈ assets,
      disk.read (read.1.pathOf asset.getFileName) = some (.mxf (.ok asset.track))) :
    ∃ package, (assets.map TrackFile.getFileName).foldlM (readPath disk) read =
        .ok (package, read.2) ∧ package.pathOf = read.1.pathOf ∧
      package.compositionPlaylists = read.1.compositionPlaylists ∧
      (package.tracks.map TrackFile.track).Perm
        (assets.map TrackFile.track ++ read.1.tracks.map TrackFile.track) := by
  induction assets generalizing read with
  | nil => exact ⟨read.1, rfl, rfl, rfl, List.Perm.refl _⟩
  | cons asset rest ih =>
      have first := readPath_track asset.extension_getFileName (found asset List.mem_cons_self)
      have pathOf := read.1.pathOf_addTrack ⟨asset.track, read.1.pathOf asset.getFileName⟩
      obtain ⟨package, folded, path, playlists, tracks⟩ :=
        ih (read.1.addTrack ⟨asset.track, read.1.pathOf asset.getFileName⟩, read.2) fun other member => by
          rw [pathOf]
          exact found other (List.mem_cons_of_mem _ member)
      refine ⟨package, ?_, path.trans pathOf,
        playlists.trans (compositionPlaylists_addTrack _ _), ?_⟩
      · rw [List.map_cons, List.foldlM_cons, first]
        exact folded
      · have added := (read.1.tracks_addTrack_perm
          ⟨asset.track, read.1.pathOf asset.getFileName⟩).map TrackFile.track
        exact (tracks.trans (added.append_left _)).trans List.perm_middle

theorem readXmlNames (names : List String) (read : IMFPackage × List String)
    (extensions : ∀ name ∈ names, FilePath.extension name = ".xml") :
    names.foldlM (readPath disk) read = .ok (read.1, read.2 ++ names.map read.1.pathOf) := by
  induction names generalizing read with
  | nil => simp
  | cons name rest ih =>
      rw [List.foldlM_cons, readPath_xml (extensions name List.mem_cons_self), ok_bind,
        ih _ fun other member => extensions other (List.mem_cons_of_mem _ member)]
      simp

theorem parseAndAddXML_playlist {package : IMFPackage} {playlist : IMFCompositionPlaylist}
    {path : String} {pt : PTree} (written : playlist.write = .ok pt)
    (found : disk.read path = some (.xml pt))
    (distinct : ((package.tracks.map TrackFile.track).map IMFTrack.uuid).Nodup)
    (resolved : playlist.Resolved (package.tracks.map TrackFile.track)) :
    ∃ loaded, parseAndAddXML disk package path = .ok (package.addCompositionPlaylist loaded) ∧
      loaded.uuid = playlist.uuid := by
  obtain ⟨loaded, read, uuid, -⟩ :=
    IMFCompositionPlaylist.load_of_write path written distinct resolved
  obtain ⟨root, rfl, -⟩ := IMFCompositionPlaylist.write_eq_ok written
  have isPlaylist : ((PTree.empty.addChild "CompositionPlaylist" root).getChild?
      ["CompositionPlaylist"]).isSome = true := by
    rw [PTree.getChild?_addChild_self [] root _ rfl]
    rfl
  refine ⟨loaded, rethrow_eq_ok.mpr ?_, uuid⟩
  simp [readXml, found, isPlaylist, read]

theorem parseAndAddXML_other {package : IMFPackage} {path : String} {pt : PTree}
    (found : disk.read path = some (.xml pt))
    (other : pt.getChild? ["CompositionPlaylist"] = none) :
    parseAndAddXML disk package path = .ok package := by
  refine rethrow_eq_ok.mpr ?_
  simp [readXml, found, other]

theorem parsePlaylists (path : IMFCompositionPlaylist → String)
    (playlists : List IMFCompositionPlaylist) (package : IMFPackage)
    (distinct : ((package.tracks.map TrackFile.track).map IMFTrack.uuid).Nodup)
    (resolved : ∀ playlist ∈ playlists, playlist.Resolved (package.tracks.map TrackFile.track))
    (found : ∀ playlist ∈ playlists, ∃ pt, playlist.write = .ok pt ∧
      disk.read (path playlist) = some (.xml pt)) :
    ∃ loaded, (playlists.map path).foldlM (parseAndAddXML disk) package = .ok loaded ∧
      loaded.tracks = package.tracks ∧
      loaded.compositionPlaylists.map IMFCompositionPlaylist.uuid =
        package.compositionPlaylists.map IMFCompositionPlaylist.uuid ++
          playlists.map IMFCompositionPlaylist.uuid := by
  induction playlists generalizing package with
  | nil => exact ⟨package, rfl, rfl, (List.append_nil _).symm⟩
  | cons playlist rest ih =>
      obtain ⟨pt, written, content⟩ := found playlist List.mem_cons_self
      obtain ⟨first, parsed, uuid⟩ := parseAndAddXML_playlist written content distinct
        (resolved playlist List.mem_cons_self)
      obtain ⟨loaded, folded, tracks, uuids⟩ := ih (package.addCompositionPlaylist first) distinct
        (fun other member => resolved other (List.mem_cons_of_mem _ member))
        (fun other member => found other (List.mem_cons_of_mem _ member))
      refine ⟨loaded, ?_, tracks, ?_⟩
      · rw [List.map_cons, List.foldlM_cons, parsed]
        exact folded
      · rw [uuids, addCompositionPlaylist, List.map_append, List.map_singleton, uuid]
        simp

/-- To read a written asset map is to read the bare names of its assets. -/
theorem readAssetMap_written {fileSize : File → Nat} {refused : Refusals} {before : FileSystem File}
    {written fresh read loaded : IMFPackage} {filename : String} {pt : PTree} {xmlFiles : List String}
    (made : written.assetMapTree fileSize refused before = .ok pt)
    (creator : written.headerAssetMap.creator ≠ "") (issuer : written.headerAssetMap.issuer ≠ "")
    (found : disk.read filename = some (.xml pt))
    (reads : (written.mappedAssets.map IMFPackageItem.getFileName).foldlM (readPath disk)
      ({ fresh with uuid := written.uuid, headerAssetMap := written.headerAssetMap }, []) =
        .ok (read, xmlFiles))
    (parses : xmlFiles.foldlM (parseAndAddXML disk) read = .ok loaded) :
    readAssetMap disk fresh filename = .ok loaded := by
  obtain ⟨root, size, rfl, -, id, header, list⟩ := assetMapTree_eq_ok made
  have descend (path : List String) :
      (PTree.empty.addChild "AssetMap" root).getChild? ("AssetMap" :: path) = root.getChild? path :=
    PTree.getChild?_addChild_self path root _ rfl
  have readId : getString ["AssetMap", "Id"] (PTree.empty.addChild "AssetMap" root) =
      .ok (uuidStr written.uuid) := by
    refine getString_of_text ?_
    rw [PTree.text?, descend]
    exact id
  have readRoot : getChild ["AssetMap"] (PTree.empty.addChild "AssetMap" root) = .ok root :=
    getChild_of_some (descend [])
  have readList := getChild_of_some ((descend ["AssetList"]).trans list)
  refine rethrow_eq_ok.mpr ?_
  simp only [readXml, found, ok_bind, readId, readRoot, header creator issuer, readList,
    PTree.children_node, uuidClean_uuidStr, readAssets_mappedAssets, reads, parses]

end IMFPackage

end Imflib.Package
