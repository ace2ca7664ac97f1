import Imflib.Package.PackageWriting

/-! What the packing list and the asset map say about the assets of a package, and that they agree
once a package is written. -/

namespace Imflib.Package

/-- What one of the two files says about an asset: its identifier, its size and its name. -/
structure ListedAsset where
  id : Option String
  size : Option String
  fileName : Option String
  deriving DecidableEq, Repr

def packedEntry (asset : PTree) : ListedAsset :=
  ⟨asset.text? ["Id"], asset.text? ["Size"], asset.text? ["OriginalFileName"]⟩

def packedEntries (pt : PTree) : List ListedAsset :=
  (((pt.getChild? ["PackingList", "AssetList"]).elim [] PTree.children).filter (·.1 = "Asset")).map
    fun asset => packedEntry asset.2

/-- An asset of the asset map has an entry for each of its chunks. -/
def mappedEntry (asset : PTree) : List ListedAsset :=
  ((asset.getChild? ["ChunkList"]).elim [] PTree.children).map fun chunk =>
    ⟨asset.text? ["Id"], chunk.2.text? ["Length"], chunk.2.text? ["Path"]⟩

def isPackingList (asset : PTree) : Bool := asset.text? ["PackingList"] = some "true"

/-- The entries of an asset map, either those of packing lists or all others. -/
def mappedEntries (packingList : Bool) (pt : PTree) : List ListedAsset :=
  (((pt.getChild? ["AssetMap", "AssetList"]).elim [] PTree.children).filter fun asset =>
    asset.1 = "Asset" ∧ isPackingList asset.2 = packingList).flatMap fun asset => mappedEntry asset.2

def IMFPackageItem.listed (item : IMFPackageItem) (size : Nat) : ListedAsset :=
  ⟨some (uuidStr item.uuid), some (String.ofList (Text.decimal size)), some item.getFileName⟩

section Nodes

variable (item : IMFPackageItem) (size : Nat)

theorem packedEntry_packedAsset : packedEntry (packedAsset item size) = item.listed size := by
  simp [packedEntry, packedAsset, IMFPackageItem.listed]

theorem mappedEntry_mappedAsset : mappedEntry (mappedAsset item size) = [item.listed size] := by
  rw [mappedEntry, getChild?_mappedAsset, text?_mappedAsset]
  simp [mappedChunk, IMFPackageItem.listed]

theorem isPackingList_mappedAsset :
    isPackingList (mappedAsset item size) = decide (item.type = .pkl) := by
  unfold isPackingList mappedAsset
  by_cases pkl : item.type = .pkl <;> simp [pkl]

end Nodes

section Trees

variable {fileSize : File → Nat} {refused : Refusals} {disk : FileSystem File}

theorem packedEntries_tree {list : IMFPackageList} {assets : List IMFPackageItem} {pt : PTree}
    (made : list.tree fileSize refused disk assets = .ok pt) : ∃ size : IMFPackageItem → Nat,
      (∀ item ∈ assets, (disk.read item.path).map fileSize = some (size item)) ∧
        packedEntries pt = assets.map fun item => item.listed (size item) := by
  obtain ⟨assetListNode, listed, same⟩ := bind_eq_ok.mp made
  obtain ⟨size, sizes, rfl⟩ := assetList_eq_ok listed
  cases Except.ok.inj same
  refine ⟨size, sizes, ?_⟩
  rw [packedEntries, PTree.getChild?_addChild_self _ _ _ rfl, PTree.getChild?_addChild_self]
  · simp [PTree.getChild?, packedEntry_packedAsset, List.filter_map, Function.comp_def]
  · simp [XMLHeaderPackageList.write]

theorem mappedEntries_tree {package : IMFPackage} {pt : PTree}
    (written : package.assetMapTree fileSize refused disk = .ok pt) : ∃ size : IMFPackageItem → Nat,
      (∀ item ∈ package.mappedAssets, (disk.read item.path).map fileSize = some (size item)) ∧
        ∀ packingList, mappedEntries packingList pt =
          (package.mappedAssets.filter fun item => decide (item.type = .pkl) = packingList).map
            fun item => item.listed (size item) := by
  obtain ⟨root, size, rfl, sizes, -, -, list⟩ := assetMapTree_eq_ok written
  refine ⟨size, sizes, fun packingList => ?_⟩
  rw [mappedEntries, PTree.getChild?_addChild_self _ _ _ rfl, list, Option.elim_some,
    PTree.children_node, List.filter_map, List.flatMap_map, List.map_eq_flatMap]
  simp only [mappedEntry_mappedAsset, Function.comp_def, isPackingList_mappedAsset, true_and]

end Trees

section Written

variable {fileSize : File → Nat} {refused : Refusals} {working : WorkingPackage}

theorem IMFPackage.type_ne_pkl {package : IMFPackage} {item : IMFPackageItem}
    (member : item ∈ package.assets) : item.type ≠ .pkl := by
  rcases List.mem_append.mp member with trackOrPlaylist | profile
  · rcases List.mem_append.mp trackOrPlaylist with track | playlist
    · obtain ⟨asset, -, rfl⟩ := List.mem_map.mp track
      unfold TrackFile.item
      cases asset.track.type <;> nofun
    · obtain ⟨playlist, -, rfl⟩ := List.mem_map.mp playlist
      nofun
  · obtain ⟨profile, -, rfl⟩ := List.mem_map.mp profile
    nofun

theorem IMFPackage.filter_assets (package : IMFPackage) (list : IMFPackageList)
    (packingList : Bool) :
    (package.assets ++ [list.item]).filter (fun item => decide (item.type = .pkl) = packingList) =
      if packingList then [list.item] else package.assets := by
  have others (keep : Bool) : package.assets.filter
      (fun item => decide (item.type = .pkl) = keep) = if keep then [] else package.assets := by
    cases keep with
    | true =>
        rw [if_pos rfl, List.filter_eq_nil_iff]
        intro item member
        simp [type_ne_pkl member]
    | false =>
        rw [if_neg Bool.false_ne_true, List.filter_eq_self]
        intro item member
        simp [type_ne_pkl member]
  rw [List.filter_append, others]
  cases packingList with
  | true => rfl
  | false => exact List.append_nil package.assets

/-- No asset is under the name of the packing list or of the asset map. -/
structure ListsApart (working : WorkingPackage) : Prop where
  fromList : ∀ item ∈ working.package.assets,
    working.disk.entry item.path ≠ working.disk.entry working.package.orNewPackageList.path
  fromMap : ∀ item ∈ working.package.assets ++ [working.package.orNewPackageList.item],
    working.disk.entry item.path ≠ working.disk.entry (working.package.pathOf "ASSETMAP.xml")

/-- The packing list and the asset map list the same assets, with the sizes that their files have at
the end, and the asset map lists the packing list besides. -/
theorem lists_agree (apart : ListsApart working)
    (written : (working.write fileSize refused).error = none) :
    ∃ (packing map : PTree) (size : IMFPackageItem → Nat),
      (working.write fileSize refused).state.disk.read working.package.orNewPackageList.path =
        some (.xml packing) ∧
      (working.write fileSize refused).state.disk.read (working.package.pathOf "ASSETMAP.xml") =
        some (.xml map) ∧
      (∀ item ∈ working.package.assets,
        ((working.write fileSize refused).state.disk.read item.path).map fileSize =
          some (size item)) ∧
      packedEntries packing = working.package.assets.map (fun item => item.listed (size item)) ∧
      mappedEntries false map = packedEntries packing ∧
      mappedEntries true map =
        [working.package.orNewPackageList.item.listed (fileSize (.xml packing))] := by
  obtain ⟨first, second, stages⟩ := working.write_stages written
  generalize (working.write fileSize refused).state = after at stages ⊢
  obtain ⟨packing, listTree, listContent⟩ := stages.listContent
  obtain ⟨map, mapTree, mapContent⟩ := stages.mapContent
  obtain ⟨packedSize, packedSizes, packed⟩ := packedEntries_tree listTree
  obtain ⟨mappedSize, mappedSizes, mapped⟩ := mappedEntries_tree mapTree
  have mappedAssets : after.package.mappedAssets =
      working.package.assets ++ [working.package.orNewPackageList.item] := by
    rw [stages.afterPackage, stages.secondPackage]
    rfl
  rw [mappedAssets] at mappedSizes mapped
  -- what the asset map measures is not changed by the asset map itself
  have last (item : IMFPackageItem)
      (member : item ∈ working.package.assets ++ [working.package.orNewPackageList.item]) :
      after.disk.read item.path = second.disk.read item.path := by
    apply stages.mapWrites.read
    rw [stages.listWrites.entry, stages.firstEntry]
    exact apart.fromMap item member
  have listRead : after.disk.read working.package.orNewPackageList.path = some (.xml packing) :=
    (last _ (List.mem_append_right _ (List.mem_singleton_self _))).trans listContent
  have sizes (item : IMFPackageItem) (member : item ∈ working.package.assets) :
      (after.disk.read item.path).map fileSize = some (packedSize item) := by
    rw [stages.read (apart.fromList item member) (apart.fromMap item (List.mem_append_left _ member))]
    exact packedSizes item member
  have sameSize (item : IMFPackageItem) (member : item ∈ working.package.assets) :
      mappedSize item = packedSize item := by
    have measured := mappedSizes item (List.mem_append_left _ member)
    rw [← last item (List.mem_append_left _ member), sizes item member] at measured
    exact (Option.some.inj measured).symm
  refine ⟨packing, map, packedSize, listRead, mapContent, sizes, packed, ?_, ?_⟩
  · rw [mapped, IMFPackage.filter_assets, packed]
    apply List.map_congr_left
    intro item member
    rw [sameSize item member]
  · rw [mapped, IMFPackage.filter_assets]
    have measured := mappedSizes _ (List.mem_append_right _ (List.mem_singleton_self _))
    rw [← last _ (List.mem_append_right _ (List.mem_singleton_self _))] at measured
    have length : mappedSize working.package.orNewPackageList.item = fileSize (.xml packing) := by
      rw [show working.package.orNewPackageList.item.path =
        working.package.orNewPackageList.path from rfl, listRead] at measured
      exact (Option.some.inj measured).symm
    rw [if_pos rfl, List.map_singleton, length]

end Written

namespace Sample

/-- A package in the folder `/p`, with one video track in it and one in `/x`, and a playlist that was
saved before. -/
def packedDisk : FileSystem File where
  canonical := id
  directory := fun folder => folder = "/p" ∨ folder = "/x"
  file := fun entry =>
    if entry = ("/p", "a.mxf") ∨ entry = ("/x", "b.mxf") then some (.mxf (.ok video))
    else if entry = ("/p", "c.xml") then some (.xml .empty)
    else none
  inside := by
    intro entry filled
    by_cases track : entry = ("/p", "a.mxf") ∨ entry = ("/x", "b.mxf")
    · rcases track with rfl | rfl <;> decide
    · by_cases playlist : entry = ("/p", "c.xml")
      · simp [playlist]
      · rw [if_neg track, if_neg playlist] at filled
        cases filled

def packed : WorkingPackage where
  disk := packedDisk
  package :=
    { IMFPackage.new with
      name := "p"
      uuid := "u"
      videoTracks := [⟨video, "/p/a.mxf"⟩, ⟨video, "/x/b.mxf"⟩]
      compositionPlaylists := [.new "c" "/p/c.xml"] }

def packedSize : File → Nat
  | .xml pt => 8 * pt.children.length
  | _ => 7

theorem packed_lists_agree : ∃ (packing map : PTree) (size : IMFPackageItem → Nat),
    (packed.write packedSize .none).state.disk.read packed.package.orNewPackageList.path =
      some (.xml packing) ∧
    (packed.write packedSize .none).state.disk.read (packed.package.pathOf "ASSETMAP.xml") =
      some (.xml map) ∧
    (∀ item ∈ packed.package.assets,
      ((packed.write packedSize .none).state.disk.read item.path).map packedSize =
        some (size item)) ∧
    packedEntries packing = packed.package.assets.map (fun item => item.listed (size item)) ∧
    mappedEntries false map = packedEntries packing ∧
    mappedEntries true map =
      [packed.package.orNewPackageList.item.listed (packedSize (.xml packing))] :=
  lists_agree ⟨by decide +kernel, by decide +kernel⟩ (by decide +kernel)

end Sample

end Imflib.Package
