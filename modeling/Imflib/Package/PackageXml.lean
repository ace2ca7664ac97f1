import Imflib.Package.IMFPackage
import Imflib.Package.PlaylistXml

/-! The asset map and the packing list of a package, and how a package is written and loaded. -/

namespace Imflib.Package

/-- Catch some exceptions and throw an exception of the package with their text. -/
def asPackageException (caught : Exn → Bool) (error : Exn) : Exn :=
  if caught error then .packageException error.what else error

def rethrow {α : Type} (caught : Exn → Bool) : Except Exn α → Except Exn α
  | .ok value => .ok value
  | .error error => .error (asPackageException caught error)

theorem rethrow_eq_ok {α : Type} {caught : Exn → Bool} {attempt : Except Exn α} {value : α} :
    rethrow caught attempt = .ok value ↔ attempt = .ok value := by
  cases attempt with
  | ok other => exact Iff.rfl
  | error error => exact iff_of_false nofun nofun

section Write

variable (fileSize : File → Nat)

def IMFPackageItem.getFileSize (unsized : String → Bool) (disk : FileSystem File)
    (item : IMFPackageItem) : Except Exn Nat :=
  if unsized item.path then .error (.filesystemError "boost::filesystem::file_size")
  else match disk.read item.path with
    | some file => .ok (fileSize file)
    | none => .error (.filesystemError "boost::filesystem::file_size")

def packedAsset (item : IMFPackageItem) (size : Nat) : PTree :=
  PTree.empty
    |>.put ["Id"] (uuidStr item.uuid)
    |>.put ["Hash"] ""
    |>.putInt ["Size"] size
    |>.put ["Type"] item.applicationType
    |>.put ["OriginalFileName"] item.getFileName

def mappedAsset (item : IMFPackageItem) (size : Nat) : PTree :=
  let chunkNode := PTree.empty
    |>.put ["Path"] item.getFileName
    |>.put ["VolumeIndex"] "1"
    |>.put ["Offset"] "0"
    |>.putInt ["Length"] size
  let chunkListNode := PTree.empty.addChild "Chunk" chunkNode
  let assetNode := PTree.empty.put ["Id"] (uuidStr item.uuid)
  let assetNode := if item.type = .pkl then assetNode.put ["PackingList"] "true" else assetNode
  assetNode.addChild "ChunkList" chunkListNode

def assetList (unsized : String → Bool) (node : IMFPackageItem → Nat → PTree)
    (disk : FileSystem File) (assets : List IMFPackageItem) : Except Exn PTree :=
  assets.foldlM (fun pt item => do
    let size ← item.getFileSize fileSize unsized disk
    pure (pt.addChild "Asset" (node item size))) PTree.empty

/-- The tree of `IMFPackageList::Write` -/
def IMFPackageList.tree (refused : Refusals) (disk : FileSystem File) (list : IMFPackageList)
    (assets : List IMFPackageItem) : Except Exn PTree := do
  let rootNode := PTree.empty
    |>.put ["<xmlattr>", "xmlns"] "http://www.smpte-ra.org/schemas/429-8/2007/PKL"
    |>.put ["Id"] (uuidStr list.uuid)
  let rootNode := list.header.write rootNode
  let assetListNode ← assetList fileSize refused.packedSize packedAsset disk assets
  pure (PTree.empty.addChild "PackingList" (rootNode.addChild "AssetList" assetListNode))

namespace IMFPackage

def orNewPackageList (package : IMFPackage) : IMFPackageList :=
  match package.packageList with
  | some list => list
  | none =>
      let uuid := uuidClean (uuidStr package.uuid)
      ⟨uuid, package.pathOf ("PKL_" ++ uuid ++ ".xml"), .standard⟩

theorem orNewPackageList_of_none {package : IMFPackage} (missing : package.packageList = none) :
    package.orNewPackageList =
      ⟨package.uuid, package.pathOf ("PKL_" ++ package.uuid ++ ".xml"), .standard⟩ := by
  rw [orNewPackageList, missing]
  simp only [uuidClean_uuidStr]

def assets (package : IMFPackage) : List IMFPackageItem :=
  package.tracks.map TrackFile.item ++
    package.compositionPlaylists.map IMFCompositionPlaylist.item ++
    package.outputProfiles.map IMFOutputProfile.item

def mappedAssets (package : IMFPackage) : List IMFPackageItem :=
  package.assets ++ package.packageList.toList.map IMFPackageList.item

/-- The tree of `WriteAssetMap` -/
def assetMapTree (refused : Refusals) (disk : FileSystem File) (package : IMFPackage) :
    Except Exn PTree := do
  let rootNode := PTree.empty
    |>.put ["<xmlattr>", "xmlns"] "http://www.smpte-ra.org/schemas/429-9/2007/AM"
    |>.put ["Id"] (uuidStr package.uuid)
  let rootNode := package.headerAssetMap.write rootNode
  let assetListNode ← assetList fileSize refused.mappedSize mappedAsset disk package.mappedAssets
  pure (PTree.empty.addChild "AssetMap" (rootNode.addChild "AssetList" assetListNode))

end IMFPackage

namespace WorkingPackage

variable (refused : Refusals)

/-- `write_xml` of a tree, if there is one. -/
def writeXml (working : WorkingPackage) (path : String) :
    Except Exn PTree → Outcome WorkingPackage Exn
  | .error error => .fail working error
  | .ok pt =>
      if refused.write path then .fail working (.xmlParserError (path ++ ": cannot open file"))
      else match working.disk.write path (.xml pt) with
        | none => .fail working (.xmlParserError (path ++ ": cannot open file"))
        | some disk => .done { working with disk := disk }

def writePlaylist (working : WorkingPackage) (playlist : IMFCompositionPlaylist) :
    Outcome WorkingPackage Exn := working.writeXml refused playlist.path playlist.write

/-- A package without packing list gets one, which it keeps. -/
def writePackageList (working : WorkingPackage) : Outcome WorkingPackage Exn :=
  let list := working.package.orNewPackageList
  let working := { working with package := { working.package with packageList := some list } }
  working.writeXml refused list.path (list.tree fileSize refused working.disk working.package.assets)

def writeAssetMap (working : WorkingPackage) : Outcome WorkingPackage Exn :=
  working.writeXml refused (working.package.pathOf "ASSETMAP.xml")
    (working.package.assetMapTree fileSize refused working.disk)

def caughtByWrite : Exn → Bool
  | .compositionPlaylistException _ => true
  | _ => false

/-- `IMFPackage::Write` -/
def write (working : WorkingPackage) : Outcome WorkingPackage Exn :=
  (((Outcome.forEach (writePlaylist refused) working.package.compositionPlaylists working).andThen
    (writePackageList fileSize refused)).andThen (writeAssetMap fileSize refused)).mapError
    (asPackageException caughtByWrite)

/-- What `SaveFile` does with a package that has a folder. -/
def save (working : WorkingPackage) : Outcome WorkingPackage Exn :=
  (working.copyTrackFiles refused).andThen (write fileSize refused)

end WorkingPackage

end Write

section Load

variable (disk : FileSystem File)

def readXml (path : String) : Except Exn PTree :=
  match disk.read path with
  | some (.xml pt) => .ok pt
  | some _ => .error (.xmlParserError (path ++ ": expected <"))
  | none => .error (.xmlParserError (path ++ ": cannot open file"))

namespace IMFPackage

def caughtByParseAndAddXML : Exn → Bool
  | .xmlParserError _ | .ptreeBadPath _ => true
  | _ => false

def parseAndAddXML (package : IMFPackage) (fullPath : String) : Except Exn IMFPackage :=
  rethrow caughtByParseAndAddXML do
    let pt ← readXml disk fullPath
    if (pt.getChild? ["CompositionPlaylist"]).isSome then do
      let playlist ← IMFCompositionPlaylist.load fullPath pt (package.tracks.map TrackFile.track)
      pure (package.addCompositionPlaylist playlist)
    else pure package

/-- Track files are read at once. XML files wait, and others are passed over. -/
def readPath (read : IMFPackage × List String) (name : String) :
    Except Exn (IMFPackage × List String) :=
  let fullPath := read.1.pathOf name
  if FilePath.extension name = ".mxf" then do
    let package ← read.1.parseAndAddTrack disk fullPath
    pure (package, read.2)
  else if FilePath.extension name = ".xml" then pure (read.1, read.2 ++ [fullPath])
  else pure read

def readChunk (read : IMFPackage × List String) (chunk : String × PTree) :
    Except Exn (IMFPackage × List String) := do
  let name ← getString ["Path"] chunk.2
  let _volumeIndex ← getInt ["VolumeIndex"] chunk.2
  readPath disk read name

def readAsset (read : IMFPackage × List String) (asset : String × PTree) :
    Except Exn (IMFPackage × List String) :=
  if asset.1 = "Asset" then do
    let _assetId ← getString ["Id"] asset.2
    let chunkList ← getChild ["ChunkList"] asset.2
    chunkList.children.foldlM (readChunk disk) read
  else pure read

def caughtByReadAssetMap : Exn → Bool
  | .xmlParserError _ | .ptreeBadPath _ | .compositionPlaylistException _ => true
  | _ => false

def readAssetMap (package : IMFPackage) (filename : String) : Except Exn IMFPackage :=
  rethrow caughtByReadAssetMap do
    let pt ← readXml disk filename
    let packageId ← getString ["AssetMap", "Id"] pt
    let headerChild ← getChild ["AssetMap"] pt
    let header ← XMLHeaderAssetMap.read headerChild
    let package := { package with uuid := uuidClean packageId, headerAssetMap := header }
    let assets ← getChild ["AssetMap", "AssetList"] pt
    let read ← assets.children.foldlM (readAsset disk) (package, [])
    -- Playlists refer to tracks, so all tracks are read before them.
    read.2.foldlM (parseAndAddXML disk) read.1

def load (directory : String) : Except Exn IMFPackage :=
  let package :=
    { new with
      location := FilePath.parentPath directory
      name := FilePath.filename directory }
  package.readAssetMap disk (package.pathOf "ASSETMAP.xml")

end IMFPackage

end Load

end Imflib.Package
