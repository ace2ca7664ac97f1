import Imflib.Package.PackageXml
import Imflib.Package.PlaylistRoundTrip

/-! What a written package consists of, and which files `Write` changes. -/

namespace Imflib.Package

def File.assetId : File → Option String
  | .mxf (.ok track) => some (uuidStr track.uuid)
  | .xml pt => (pt.text? ["CompositionPlaylist", "Id"]).or (pt.text? ["PackingList", "Id"])
  | _ => none

/-- The assets that an asset map lists, one entry for each path. -/
def listedIn (asset : String × PTree) : List (String × String) :=
  if asset.1 = "Asset" then
    ((asset.2.getChild? ["ChunkList"]).elim [] PTree.children).map fun chunk =>
      (asset.2.getStringD ["Id"] "", chunk.2.getStringD ["Path"] "")
  else []

def listedAssets (pt : PTree) : List (String × String) :=
  ((pt.getChild? ["AssetMap", "AssetList"]).elim [] PTree.children).flatMap listedIn

section Lists

variable {fileSize : File → Nat} {refused : Refusals} {disk : FileSystem File}

theorem assetList_eq_ok {unsized : String → Bool} {node : IMFPackageItem → Nat → PTree}
    {assets : List IMFPackageItem} {pt : PTree}
    (listed : assetList fileSize unsized node disk assets = .ok pt) :
    ∃ size : IMFPackageItem → Nat,
      (∀ item ∈ assets, (disk.read item.path).map fileSize = some (size item)) ∧
        pt = .node "" (assets.map fun item => ("Asset", node item (size item))) := by
  have steps (items : List IMFPackageItem) (start : PTree)
      (listed : items.foldlM (fun pt item => do
        let size ← item.getFileSize fileSize unsized disk
        pure (pt.addChild "Asset" (node item size))) start = .ok pt) :
      (∀ item ∈ items, (disk.read item.path).map fileSize =
        some ((disk.read item.path).elim 0 fileSize)) ∧
      pt = .node start.data (start.children ++ items.map fun item =>
        ("Asset", node item ((disk.read item.path).elim 0 fileSize))) := by
    induction items generalizing start with
    | nil =>
        cases listed
        cases pt
        simp
    | cons item rest ih =>
        rw [List.foldlM_cons] at listed
        obtain ⟨next, first, later⟩ := bind_eq_ok.mp listed
        obtain ⟨size, measured, added⟩ := bind_eq_ok.mp first
        cases Except.ok.inj added
        have read : (disk.read item.path).map fileSize = some size := by
          unfold IMFPackageItem.getFileSize at measured
          split at measured
          · cases measured
          · split at measured
            · rename_i file found
              rw [found]
              exact congrArg some (Except.ok.inj measured)
            · cases measured
        have own : (disk.read item.path).elim 0 fileSize = size := by
          obtain ⟨file, found, same⟩ := Option.map_eq_some_iff.mp read
          rw [found]
          exact same
        obtain ⟨sizes, tree⟩ := ih _ later
        refine ⟨List.forall_mem_cons.mpr ⟨by rw [read, own], sizes⟩, ?_⟩
        rw [tree, List.map_cons, own]
        simp [PTree.addChild]
  exact ⟨_, steps assets PTree.empty listed⟩

def mappedChunk (item : IMFPackageItem) (size : Nat) : PTree :=
  PTree.empty
    |>.put ["Path"] item.getFileName
    |>.put ["VolumeIndex"] "1"
    |>.put ["Offset"] "0"
    |>.putInt ["Length"] size

theorem getChild?_mappedAsset (item : IMFPackageItem) (size : Nat) :
    (mappedAsset item size).getChild? ["ChunkList"] =
      some (.node "" [("Chunk", mappedChunk item size)]) := by
  unfold mappedAsset
  rw [PTree.getChild?_addChild_self]
  · rfl
  · by_cases pkl : item.type = .pkl <;> simp [pkl]

theorem text?_mappedAsset (item : IMFPackageItem) (size : Nat) :
    (mappedAsset item size).text? ["Id"] = some (uuidStr item.uuid) := by
  unfold mappedAsset
  by_cases pkl : item.type = .pkl <;> simp [pkl]

theorem text?_mappedChunk (item : IMFPackageItem) (size : Nat) :
    (mappedChunk item size).text? ["Path"] = some item.getFileName ∧
      (mappedChunk item size).text? ["VolumeIndex"] = some "1" := by
  unfold mappedChunk
  constructor <;> simp

theorem listedIn_mappedAsset (item : IMFPackageItem) (size : Nat) :
    listedIn ("Asset", mappedAsset item size) = [(uuidStr item.uuid, item.getFileName)] := by
  simp only [listedIn, if_pos, getChild?_mappedAsset, Option.elim_some, PTree.children_node,
    List.map_cons, List.map_nil, PTree.getStringD_eq, text?_mappedAsset,
    (text?_mappedChunk item size).1, Option.getD_some]

theorem assetMapTree_eq_ok {package : IMFPackage} {pt : PTree}
    (written : package.assetMapTree fileSize refused disk = .ok pt) :
    ∃ (root : PTree) (size : IMFPackageItem → Nat), pt = PTree.empty.addChild "AssetMap" root ∧
      (∀ item ∈ package.mappedAssets, (disk.read item.path).map fileSize = some (size item)) ∧
      root.text? ["Id"] = some (uuidStr package.uuid) ∧
      (package.headerAssetMap.creator ≠ "" → package.headerAssetMap.issuer ≠ "" →
        XMLHeaderAssetMap.read root = .ok package.headerAssetMap) ∧
      root.getChild? ["AssetList"] = some (.node "" (package.mappedAssets.map fun item =>
        ("Asset", mappedAsset item (size item)))) := by
  obtain ⟨list, listed, made⟩ := bind_eq_ok.mp written
  obtain ⟨size, sizes, rfl⟩ := assetList_eq_ok listed
  refine ⟨_, size, (Except.ok.inj made).symm, sizes, ?_, ?_, ?_⟩
  · simp [XMLHeaderAssetMap.write]
  · intro creator issuer
    have read := XMLHeaderAssetMap.read_write creator issuer (PTree.empty
      |>.put ["<xmlattr>", "xmlns"] "http://www.smpte-ra.org/schemas/429-9/2007/AM"
      |>.put ["Id"] (uuidStr package.uuid)) (by simp)
    rw [← read]
    exact XMLHeaderAssetMap.read_congr (by simp [XMLHeaderAssetMap.keys])
  · rw [PTree.getChild?_addChild_self]
    · rfl
    · simp [XMLHeaderAssetMap.write]

theorem text?_playlist {playlist : IMFCompositionPlaylist} {pt : PTree}
    (written : playlist.write = .ok pt) :
    pt.text? ["CompositionPlaylist", "Id"] = some (uuidStr playlist.uuid) := by
  obtain ⟨root, rfl, id, -⟩ := IMFCompositionPlaylist.write_eq_ok written
  rw [PTree.text?, PTree.getChild?_addChild_self _ _ _ rfl]
  exact id

theorem assetId_playlist {playlist : IMFCompositionPlaylist} {pt : PTree}
    (written : playlist.write = .ok pt) : (File.xml pt).assetId = some (uuidStr playlist.uuid) := by
  rw [File.assetId, text?_playlist written, Option.some_or]

theorem packageList_eq_ok {list : IMFPackageList} {assets : List IMFPackageItem} {pt : PTree}
    (made : list.tree fileSize refused disk assets = .ok pt) :
    pt.getChild? ["CompositionPlaylist"] = none ∧
      (File.xml pt).assetId = some (uuidStr list.uuid) := by
  obtain ⟨assetListNode, -, same⟩ := bind_eq_ok.mp made
  cases Except.ok.inj same
  refine ⟨by simp, ?_⟩
  have read : (PTree.empty.addChild "PackingList" ((list.header.write (PTree.empty
      |>.put ["<xmlattr>", "xmlns"] "http://www.smpte-ra.org/schemas/429-8/2007/PKL"
      |>.put ["Id"] (uuidStr list.uuid))).addChild "AssetList" assetListNode)).text?
      ["PackingList", "Id"] = some (uuidStr list.uuid) := by
    rw [PTree.text?, PTree.getChild?_addChild_self _ _ _ rfl, ← PTree.text?]
    simp [XMLHeaderPackageList.write]
  rw [File.assetId, read]
  simp

/-- A written asset map lists every asset with its bare name. -/
theorem listedAssets_assetMapTree {package : IMFPackage} {pt : PTree}
    (written : package.assetMapTree fileSize refused disk = .ok pt) :
    listedAssets pt = package.mappedAssets.map fun item =>
      (uuidStr item.uuid, item.getFileName) := by
  obtain ⟨root, size, rfl, -, -, -, list⟩ := assetMapTree_eq_ok written
  rw [listedAssets, PTree.getChild?_addChild_self _ _ _ rfl, list, Option.elim_some,
    PTree.children_node, List.flatMap_map, List.map_eq_flatMap]
  simp only [listedIn_mappedAsset]

end Lists

section Changes

structure WritesXml (allowed : String × String → Prop) (before after : FileSystem File) : Prop where
  canonical : after.canonical = before.canonical
  files : ∀ entry, after.file entry = before.file entry ∨
    allowed entry ∧ ∃ pt, after.file entry = some (.xml pt)

namespace WritesXml

variable {allowed : String × String → Prop} {first second third : FileSystem File}

theorem refl (disk : FileSystem File) : WritesXml allowed disk disk :=
  ⟨rfl, fun _ => Or.inl rfl⟩

theorem trans (before : WritesXml allowed first second) (after : WritesXml allowed second third) :
    WritesXml allowed first third := by
  refine ⟨after.canonical.trans before.canonical, fun entry => ?_⟩
  rcases after.files entry with same | written
  · rw [same]
    exact before.files entry
  · exact Or.inr written

theorem mono {more : String × String → Prop} (writes : WritesXml allowed first second)
    (weaker : ∀ entry, allowed entry → more entry) : WritesXml more first second :=
  ⟨writes.canonical, fun entry => (writes.files entry).imp_right fun written =>
    ⟨weaker entry written.1, written.2⟩⟩

theorem entry (writes : WritesXml allowed first second) : second.entry = first.entry :=
  FileSystem.entry_congr writes.canonical

theorem read (writes : WritesXml allowed first second) {path : String}
    (other : ¬ allowed (first.entry path)) : second.read path = first.read path := by
  rw [FileSystem.read, writes.entry]
  exact (writes.files _).resolve_right fun written => other written.1

end WritesXml

variable {fileSize : File → Nat} {refused : Refusals} {working : WorkingPackage}

namespace WorkingPackage

theorem writeXml_cases (working : WorkingPackage) (refused : Refusals) (path : String)
    (tree : Except Exn PTree) :
    (∃ error, working.writeXml refused path tree = .fail working error) ∨
      ∃ pt after, tree = .ok pt ∧ working.disk.write path (.xml pt) = some after ∧
        working.writeXml refused path tree = .done { working with disk := after } := by
  unfold writeXml
  split
  · exact Or.inl ⟨_, rfl⟩
  · rename_i pt
    split
    · exact Or.inl ⟨_, rfl⟩
    · split
      · exact Or.inl ⟨_, rfl⟩
      · exact Or.inr ⟨pt, _, rfl, ‹_›, rfl⟩

theorem writeXml_package (working : WorkingPackage) (refused : Refusals) (path : String)
    (tree : Except Exn PTree) :
    (working.writeXml refused path tree).state.package = working.package := by
  rcases working.writeXml_cases refused path tree with ⟨_, same⟩ | ⟨_, _, _, _, same⟩ <;>
    rw [same] <;> rfl

theorem writeXml_writesXml (working : WorkingPackage) (refused : Refusals) (path : String)
    (tree : Except Exn PTree) :
    WritesXml (· = working.disk.entry path) working.disk
      (working.writeXml refused path tree).state.disk := by
  rcases working.writeXml_cases refused path tree with ⟨_, same⟩ | ⟨pt, after, _, written, same⟩
  · rw [same]
    exact .refl _
  · rw [same]
    obtain ⟨canonical, file⟩ := FileSystem.write_eq_some written
    refine ⟨canonical, fun entry => ?_⟩
    by_cases here : entry = working.disk.entry path
    · exact Or.inr ⟨here, pt, by simp [Outcome.done, file, here]⟩
    · exact Or.inl (by simp [Outcome.done, file, Function.update_of_ne here])

theorem writeXml_entry (working : WorkingPackage) (refused : Refusals) (path : String)
    (tree : Except Exn PTree) :
    (working.writeXml refused path tree).state.disk.entry = working.disk.entry :=
  (working.writeXml_writesXml refused path tree).entry

theorem writeXml_succeeded {path : String} {tree : Except Exn PTree}
    (succeeded : (working.writeXml refused path tree).error = none) :
    ∃ pt, tree = .ok pt ∧ (working.writeXml refused path tree).state.disk.read path =
      some (.xml pt) := by
  rcases working.writeXml_cases refused path tree with ⟨_, same⟩ | ⟨pt, after, made, written, same⟩
  · rw [same] at succeeded
    cases succeeded
  · obtain ⟨canonical, file⟩ := FileSystem.write_eq_some written
    refine ⟨pt, made, ?_⟩
    rw [same, Outcome.done, FileSystem.read, FileSystem.entry_congr canonical, file,
      Function.update_self]

def HasList (before after : IMFPackage) : Prop :=
  after = before ∨ after = { before with packageList := some before.orNewPackageList }

theorem HasList.same {before after : IMFPackage} (has : HasList before after) :
    after.orNewPackageList = before.orNewPackageList ∧ after.pathOf = before.pathOf ∧
      HasList before { after with packageList := some before.orNewPackageList } := by
  rcases has with rfl | rfl
  · exact ⟨rfl, rfl, Or.inr rfl⟩
  · exact ⟨rfl, rfl, Or.inr rfl⟩

end WorkingPackage

/-- What `Write` has changed at any point, whether it fails then or not. -/
structure Writing (allowed : String × String → Prop) (before after : WorkingPackage) : Prop where
  files : WritesXml allowed before.disk after.disk
  package : WorkingPackage.HasList before.package after.package

namespace Writing

variable {allowed : String × String → Prop} {state : WorkingPackage}

theorem start (working : WorkingPackage) : Writing allowed working working :=
  ⟨.refl _, Or.inl rfl⟩

theorem writeXml (writing : Writing allowed working state) {path : String}
    (named : allowed (working.disk.entry path)) (tree : Except Exn PTree) :
    Writing allowed working (state.writeXml refused path tree).state := by
  have stillNamed : allowed (state.disk.entry path) := writing.files.entry ▸ named
  have writes := (state.writeXml_writesXml refused path tree).mono fun _ here => here ▸ stillNamed
  refine ⟨writing.files.trans writes, ?_⟩
  rw [WorkingPackage.writeXml_package]
  exact writing.package

theorem packageList (writing : Writing allowed working state)
    (named : allowed (working.disk.entry working.package.orNewPackageList.path)) :
    Writing allowed working (state.writePackageList fileSize refused).state := by
  obtain ⟨same, -, listed⟩ := writing.package.same
  have now : Writing allowed working
      ⟨state.disk, { state.package with packageList := some state.package.orNewPackageList }⟩ :=
    ⟨writing.files, same.symm ▸ listed⟩
  exact now.writeXml (same.symm ▸ named) _

theorem assetMap (writing : Writing allowed working state)
    (named : allowed (working.disk.entry (working.package.pathOf "ASSETMAP.xml"))) :
    Writing allowed working (state.writeAssetMap fileSize refused).state := by
  obtain ⟨-, same, -⟩ := writing.package.same
  exact writing.writeXml (same.symm ▸ named) _

end Writing

namespace WorkingPackage

variable {allowed : String × String → Prop}

theorem write_writing (working : WorkingPackage)
    (playlists : ∀ playlist ∈ working.package.compositionPlaylists,
      allowed (working.disk.entry playlist.path))
    (packageList : allowed (working.disk.entry working.package.orNewPackageList.path))
    (assetMap : allowed (working.disk.entry (working.package.pathOf "ASSETMAP.xml"))) :
    Writing allowed working (working.write fileSize refused).state := by
  refine Outcome.andThen_keeps (Writing allowed working) ?_ fun _ writing => writing.assetMap assetMap
  refine Outcome.andThen_keeps (Writing allowed working) ?_ fun _ writing =>
    writing.packageList packageList
  exact Outcome.forEach_keeps (Writing allowed working)
    (fun playlist member _ writing => writing.writeXml (playlists playlist member) playlist.write)
    (.start working)

def PlaylistWritten (disk : FileSystem File) (playlists : List IMFCompositionPlaylist)
    (playlist : IMFCompositionPlaylist) (state : WorkingPackage) : Prop :=
  ∃ other ∈ playlists, disk.entry other.path = disk.entry playlist.path ∧
    ∃ pt, other.write = .ok pt ∧ state.disk.read playlist.path = some (.xml pt)

structure Written (fileSize : File → Nat) (before after : WorkingPackage) : Prop where
  package : after.package = { before.package with packageList := some before.package.orNewPackageList }
  playlists : ∀ playlist ∈ before.package.compositionPlaylists,
    PlaylistWritten before.disk before.package.compositionPlaylists playlist after
  packageList : ∃ refused disk pt, before.package.orNewPackageList.tree fileSize refused disk
      before.package.assets = .ok pt ∧
    after.disk.read before.package.orNewPackageList.path = some (.xml pt)
  assetMap : ∃ refused disk pt, after.package.assetMapTree fileSize refused disk = .ok pt ∧
    after.disk.read (before.package.pathOf "ASSETMAP.xml") = some (.xml pt)

theorem writePlaylists_entry (working : WorkingPackage) (playlists : List IMFCompositionPlaylist) :
    (Outcome.forEach (writePlaylist refused) playlists working).state.disk.entry =
      working.disk.entry :=
  Outcome.forEach_keeps (fun state : WorkingPackage => state.disk.entry = working.disk.entry)
    (fun playlist _ state same => (state.writeXml_entry refused playlist.path playlist.write).trans
      same) rfl

theorem writePlaylists_package (working : WorkingPackage) (playlists : List IMFCompositionPlaylist) :
    (Outcome.forEach (writePlaylist refused) playlists working).state.package = working.package :=
  Outcome.forEach_keeps (fun state : WorkingPackage => state.package = working.package)
    (fun playlist _ state same => (state.writeXml_package refused playlist.path playlist.write).trans
      same) rfl

theorem PlaylistWritten.writePlaylist {disk : FileSystem File}
    {playlists : List IMFCompositionPlaylist} {playlist other : IMFCompositionPlaylist}
    {state : WorkingPackage} (written : PlaylistWritten disk playlists playlist state)
    (same : state.disk.entry = disk.entry) (member : other ∈ playlists) :
    PlaylistWritten disk playlists playlist (state.writePlaylist refused other).state := by
  rcases state.writeXml_cases refused other.path other.write with
    ⟨_, failed⟩ | ⟨pt, after, made, wrote, done⟩
  · rw [WorkingPackage.writePlaylist, failed]
    exact written
  · rw [WorkingPackage.writePlaylist, done]
    obtain ⟨canonical, file⟩ := FileSystem.write_eq_some wrote
    by_cases here : disk.entry other.path = disk.entry playlist.path
    · refine ⟨other, member, here, pt, made, ?_⟩
      rw [Outcome.done, FileSystem.read, FileSystem.entry_congr canonical, file, same, here,
        Function.update_self]
    · obtain ⟨last, lastMember, lastPath, content, tree, found⟩ := written
      refine ⟨last, lastMember, lastPath, content, tree, ?_⟩
      rw [Outcome.done, FileSystem.read, FileSystem.entry_congr canonical, file, same,
        Function.update_of_ne (Ne.symm here)]
      rwa [FileSystem.read, same] at found

theorem writePlaylists_succeeded (working : WorkingPackage) {playlists : List IMFCompositionPlaylist}
    (succeeded : (Outcome.forEach (writePlaylist refused) playlists working).error = none) :
    ∀ playlist ∈ playlists, PlaylistWritten working.disk playlists playlist
      (Outcome.forEach (writePlaylist refused) playlists working).state := by
  refine Outcome.forEach_achieves
    (fun state : WorkingPackage => state.disk.entry = working.disk.entry)
    (PlaylistWritten working.disk playlists) ?_ ?_ ?_ rfl succeeded
  · exact fun playlist _ state same =>
      (state.writeXml_entry refused playlist.path playlist.write).trans same
  · intro playlist member state _ written
    obtain ⟨pt, tree, content⟩ := writeXml_succeeded written
    exact ⟨playlist, member, rfl, pt, tree, content⟩
  · intro playlist _ other otherMember state same written
    exact written.writePlaylist same otherMember

section Steps

variable (fileSize : File → Nat) (refused : Refusals) (working : WorkingPackage)

theorem writePackageList_package :
    (working.writePackageList fileSize refused).state.package =
      { working.package with packageList := some working.package.orNewPackageList } :=
  writeXml_package _ refused _ _

theorem writePackageList_writesXml :
    WritesXml (· = working.disk.entry working.package.orNewPackageList.path) working.disk
      (working.writePackageList fileSize refused).state.disk :=
  writeXml_writesXml ⟨working.disk, { working.package with
    packageList := some working.package.orNewPackageList }⟩ refused _ _

theorem writePackageList_succeeded
    (succeeded : (working.writePackageList fileSize refused).error = none) :
    ∃ pt, working.package.orNewPackageList.tree fileSize refused working.disk
        working.package.assets = .ok pt ∧
      (working.writePackageList fileSize refused).state.disk.read
        working.package.orNewPackageList.path = some (.xml pt) :=
  writeXml_succeeded succeeded

theorem writeAssetMap_package :
    (working.writeAssetMap fileSize refused).state.package = working.package :=
  writeXml_package _ refused _ _

theorem writeAssetMap_writesXml :
    WritesXml (· = working.disk.entry (working.package.pathOf "ASSETMAP.xml")) working.disk
      (working.writeAssetMap fileSize refused).state.disk :=
  writeXml_writesXml _ refused _ _

theorem writeAssetMap_succeeded
    (succeeded : (working.writeAssetMap fileSize refused).error = none) :
    ∃ pt, working.package.assetMapTree fileSize refused working.disk = .ok pt ∧
      (working.writeAssetMap fileSize refused).state.disk.read
        (working.package.pathOf "ASSETMAP.xml") = some (.xml pt) :=
  writeXml_succeeded succeeded

end Steps

/-- What `Write` has done once the playlists, the packing list and the asset map are written. -/
structure Stages (fileSize : File → Nat) (refused : Refusals)
    (working first second after : WorkingPackage) : Prop where
  firstPackage : first.package = working.package
  firstEntry : first.disk.entry = working.disk.entry
  playlists : ∀ playlist ∈ working.package.compositionPlaylists,
    PlaylistWritten working.disk working.package.compositionPlaylists playlist first
  secondPackage : second.package =
    { working.package with packageList := some working.package.orNewPackageList }
  listWrites : WritesXml (· = working.disk.entry working.package.orNewPackageList.path) first.disk
    second.disk
  listContent : ∃ pt, working.package.orNewPackageList.tree fileSize refused first.disk
      working.package.assets = .ok pt ∧
    second.disk.read working.package.orNewPackageList.path = some (.xml pt)
  afterPackage : after.package = second.package
  mapWrites : WritesXml (· = working.disk.entry (working.package.pathOf "ASSETMAP.xml")) second.disk
    after.disk
  mapContent : ∃ pt, after.package.assetMapTree fileSize refused second.disk = .ok pt ∧
    after.disk.read (working.package.pathOf "ASSETMAP.xml") = some (.xml pt)

theorem write_stages (working : WorkingPackage)
    (succeeded : (working.write fileSize refused).error = none) :
    ∃ first second,
      Stages fileSize refused working first second (working.write fileSize refused).state := by
  obtain ⟨upToList, mapWritten⟩ := Outcome.andThen_succeeded.mp (Outcome.mapError_succeeded.mp succeeded)
  obtain ⟨playlistsWritten, listWritten⟩ := Outcome.andThen_succeeded.mp upToList
  have result : (working.write fileSize refused).state =
      (((Outcome.forEach (writePlaylist refused) working.package.compositionPlaylists
        working).state.writePackageList fileSize refused).state.writeAssetMap fileSize
          refused).state := by
    rw [write, Outcome.mapError, Outcome.andThen_of_succeeded _ upToList,
      Outcome.andThen_of_succeeded _ playlistsWritten]
  rw [Outcome.andThen_of_succeeded _ playlistsWritten] at mapWritten
  have written := working.writePlaylists_succeeded playlistsWritten
  have package : (Outcome.forEach (writePlaylist refused) working.package.compositionPlaylists
      working).state.package = working.package := working.writePlaylists_package _
  have entries : (Outcome.forEach (writePlaylist refused) working.package.compositionPlaylists
      working).state.disk.entry = working.disk.entry := working.writePlaylists_entry _
  rw [result]
  generalize (Outcome.forEach (writePlaylist refused) working.package.compositionPlaylists
      working).state = first at mapWritten listWritten written package entries
  -- The packing list is written after the playlists, and the asset map after the packing list.
  have listContent := first.writePackageList_succeeded fileSize refused listWritten
  have mapContent := writeAssetMap_succeeded fileSize refused _ mapWritten
  have listWrites := first.writePackageList_writesXml fileSize refused
  have secondPackage := first.writePackageList_package fileSize refused
  rw [package] at listContent listWrites secondPackage
  rw [entries] at listWrites
  generalize (first.writePackageList fileSize refused).state = second
    at mapContent listContent listWrites secondPackage mapWritten ⊢
  have mapWrites := second.writeAssetMap_writesXml fileSize refused
  have mapPath : second.package.pathOf = working.package.pathOf := by
    rw [secondPackage]
    rfl
  rw [mapPath, listWrites.entry, entries] at mapWrites
  rw [mapPath] at mapContent
  have afterPackage := writeAssetMap_package fileSize refused second
  exact ⟨first, second,
    { firstPackage := package
      firstEntry := entries
      playlists := written
      secondPackage := secondPackage
      listWrites := listWrites
      listContent := listContent
      afterPackage := afterPackage
      mapWrites := mapWrites
      mapContent := afterPackage.symm ▸ mapContent }⟩

theorem Stages.read {working first second after : WorkingPackage}
    (stages : Stages fileSize refused working first second after) {path : String}
    (notList : working.disk.entry path ≠ working.disk.entry working.package.orNewPackageList.path)
    (notMap : working.disk.entry path ≠
      working.disk.entry (working.package.pathOf "ASSETMAP.xml")) :
    after.disk.read path = first.disk.read path := by
  rw [stages.mapWrites.read (by rwa [stages.listWrites.entry, stages.firstEntry]),
    stages.listWrites.read (by rwa [stages.firstEntry])]

theorem save_done {working saved : WorkingPackage}
    (saves : working.save fileSize refused = .done saved) :
    (working.copyTrackFiles refused).error = none ∧
      (working.copyTrackFiles refused).state.write fileSize refused = .done saved := by
  have noError : (working.save fileSize refused).error = none := by
    rw [saves]
    rfl
  have copies := (Outcome.andThen_succeeded.mp noError).1
  rw [save, Outcome.andThen_of_succeeded _ copies] at saves
  exact ⟨copies, saves⟩

/-- A package is written whole, if its XML files do not overwrite each other. -/
theorem write_succeeded (working : WorkingPackage)
    (playlists : ∀ playlist ∈ working.package.compositionPlaylists,
      working.disk.entry playlist.path ≠ working.disk.entry working.package.orNewPackageList.path ∧
        working.disk.entry playlist.path ≠
          working.disk.entry (working.package.pathOf "ASSETMAP.xml"))
    (list : working.disk.entry working.package.orNewPackageList.path ≠
      working.disk.entry (working.package.pathOf "ASSETMAP.xml"))
    (succeeded : (working.write fileSize refused).error = none) :
    Written fileSize working (working.write fileSize refused).state := by
  obtain ⟨first, second, stages⟩ := working.write_stages succeeded
  refine
    { package := stages.afterPackage.trans stages.secondPackage
      playlists := ?_
      packageList := ?_
      assetMap := ⟨refused, second.disk, stages.mapContent⟩ }
  · intro playlist member
    obtain ⟨other, otherMember, same, pt, tree, content⟩ := stages.playlists playlist member
    obtain ⟨notList, notMap⟩ := playlists playlist member
    refine ⟨other, otherMember, same, pt, tree, ?_⟩
    rw [stages.read notList notMap]
    exact content
  · obtain ⟨listPt, listTree, listContent⟩ := stages.listContent
    refine ⟨refused, first.disk, listPt, listTree, ?_⟩
    rw [stages.mapWrites.read (by rwa [stages.listWrites.entry, stages.firstEntry])]
    exact listContent

end WorkingPackage

end Changes

end Imflib.Package
