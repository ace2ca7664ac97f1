import Imflib.Base.FirstFailure
import Imflib.Package.AssetMapSchema

/-! What can be wrong with a directory, in the order in which it is loaded, and which exceptions
leave the loader. -/

namespace Imflib.Package

/-- What becomes of a failure: an exception of the package, or one that is not caught. -/
inductive Defect where
  | translated
  | escaping
  deriving DecidableEq, Repr

def Exn.defect : Exn → Defect
  | .xmlParserError _ | .ptreeBadPath _ | .compositionPlaylistException _ | .packageException _ =>
      .translated
  | _ => .escaping

/-- What `IMFCompositionPlaylist::Load` makes of an exception of a resource. -/
def Exn.ofResource : Exn → Exn
  | .invalidReferenceException what => .compositionPlaylistException what
  | error => error

section Checks

def present (path : List String) (tree : PTree) : Option Defect :=
  if (tree.getChild? path).isSome then none else some .translated

def integer (path : List String) (tree : PTree) : Option Defect :=
  match tree.text? path with
  | none => some .translated
  | some text =>
      if (Text.readInt32 (Text.trim text.toList)).isSome then none else some .escaping

def rational (text : String) : Option Defect :=
  match Text.splitOn ' ' text.toList with
  | [num, denum] =>
      if (Text.readInt32 num).isSome && (Text.readInt32 denum).isSome then none
      else some .escaping
  | _ => none

variable (disk : FileSystem File)

def trackFile (path : String) : Option Defect :=
  match disk.read path with
  | some (.mxf (.ok _)) => none
  | _ => some .translated

section Playlist

variable (tracks : List IMFTrack) (cplEditRate : String)

def resourceChecks (node : PTree) : List (Option Defect) :=
  [present ["Id"] node, integer ["IntrinsicDuration"] node,
    rational (node.getStringD ["EditRate"] cplEditRate), present ["SourceEncoding"] node,
    present ["TrackFileId"] node,
    if (KeyedList.find IMFTrack.uuid (uuidClean (node.getStringD ["TrackFileId"] "")) tracks).isSome
      then none else some .translated,
    rational cplEditRate]

def resourceNodeChecks (child : String × PTree) : List (Option Defect) :=
  if child.1 = "Resource" then
    present ["<xmlattr>", "xsi:type"] child.2 ::
      if IMFCompositionPlaylist.isTrackFileResource
          (child.2.getStringD ["<xmlattr>", "xsi:type"] "") then
        resourceChecks tracks cplEditRate child.2
      else []
  else []

def sequenceChecks (child : String × PTree) : List (Option Defect) :=
  [present ["Id"] child.2, present ["TrackId"] child.2, present ["ResourceList"] child.2] ++
    (childrenAt ["ResourceList"] child.2).flatMap (resourceNodeChecks tracks cplEditRate)

def segmentChecks (child : String × PTree) : List (Option Defect) :=
  [present ["Id"] child.2, present ["SequenceList"] child.2] ++
    (childrenAt ["SequenceList"] child.2).flatMap (sequenceChecks tracks cplEditRate)

def playlistChecks (pt : PTree) : List (Option Defect) :=
  [present ["CompositionPlaylist", "Id"] pt, present ["CompositionPlaylist"] pt,
    present ["CompositionPlaylist", "IssueDate"] pt,
    present ["CompositionPlaylist", "ContentTitle"] pt,
    present ["CompositionPlaylist", "EditRate"] pt,
    rational (pt.getStringD ["CompositionPlaylist", "EditRate"] ""),
    present ["CompositionPlaylist", "SegmentList"] pt] ++
    (childrenAt ["CompositionPlaylist", "SegmentList"] pt).flatMap
      (segmentChecks tracks (pt.getStringD ["CompositionPlaylist", "EditRate"] ""))

end Playlist

def xmlChecks (tracks : List IMFTrack) (path : String) : List (Option Defect) :=
  match disk.read path with
  | some (.xml pt) =>
      if (pt.getChild? ["CompositionPlaylist"]).isSome then playlistChecks tracks pt else []
  | _ => [some .translated]

section AssetMap

variable (package : IMFPackage)

def chunkChecks (chunk : String × PTree) : List (Option Defect) :=
  [present ["Path"] chunk.2, integer ["VolumeIndex"] chunk.2,
    if FilePath.extension (chunk.2.getStringD ["Path"] "") = ".mxf" then
      trackFile disk (package.pathOf (chunk.2.getStringD ["Path"] ""))
    else none]

def assetChecks (asset : String × PTree) : List (Option Defect) :=
  if asset.1 = "Asset" then
    [present ["Id"] asset.2, present ["ChunkList"] asset.2] ++
      (childrenAt ["ChunkList"] asset.2).flatMap (chunkChecks disk package)
  else []

def headerChecks (pt : PTree) : List (Option Defect) :=
  [present ["AssetMap", "Id"] pt, present ["AssetMap"] pt, present ["AssetMap", "Creator"] pt,
    integer ["AssetMap", "VolumeCount"] pt, present ["AssetMap", "IssueDate"] pt,
    present ["AssetMap", "Issuer"] pt, present ["AssetMap", "AssetList"] pt]

end AssetMap

/-- The paths in all chunk lists, whatever the names of their children. -/
def readNames (pt : PTree) : List String :=
  (chunkLists pt).flatten.map fun chunk => chunk.2.getStringD ["Path"] ""

/-- The tracks that are known once all track files are read. -/
def readTracks (package : IMFPackage) (pt : PTree) : List IMFTrack :=
  (package.addTracks (tracksIn disk (((readNames pt).filter fun name =>
    FilePath.extension name = ".mxf").map package.pathOf))).tracks.map TrackFile.track

def directoryChecks (directory : String) : List (Option Defect) :=
  let package :=
    { IMFPackage.new with
      location := FilePath.parentPath directory
      name := FilePath.filename directory }
  match disk.read (package.pathOf "ASSETMAP.xml") with
  | some (.xml pt) =>
      headerChecks pt ++
        (childrenAt ["AssetMap", "AssetList"] pt).flatMap (assetChecks disk package) ++
        (((readNames pt).filter fun name => FilePath.extension name = ".xml").map
          package.pathOf).flatMap (xmlChecks disk (readTracks disk package pt))
  | _ => [some .translated]

end Checks

/-- The loader returns, or throws the only exception that `OpenFile` handles. -/
def Caught (result : Except Exn IMFPackage) : Prop :=
  (∃ loaded, result = .ok loaded) ∨ ∃ what, result = .error (.packageException what)

structure Classifies (classify : Exn → Defect) : Prop where
  badPath : ∀ path, classify (.ptreeBadPath path) = .translated
  badData : ∀ path, classify (.ptreeBadData path) = .escaping
  badCast : classify .badLexicalCast = .escaping

theorem Exn.defect_classifies : Classifies Exn.defect := ⟨fun _ => rfl, fun _ => rfl, rfl⟩

theorem Exn.ofResource_classifies : Classifies (Exn.defect ∘ Exn.ofResource) :=
  ⟨fun _ => rfl, fun _ => rfl, rfl⟩

namespace Classifies

variable {classify : Exn → Defect} (classifies : Classifies classify) (path : List String)
  (tree : PTree)

include classifies

theorem getChild : failure classify (getChild path tree) = present path tree := by
  unfold Package.getChild PTree.getChild present
  cases tree.getChild? path with
  | none => exact congrArg some (classifies.badPath path)
  | some child => rfl

theorem getString : failure classify (getString path tree) = present path tree := by
  rw [getString_eq, present, PTree.text?]
  cases tree.getChild? path with
  | none => exact congrArg some (classifies.badPath path)
  | some child => rfl

theorem getInt : failure classify (getInt path tree) = integer path tree := by
  rw [getInt_eq, integer]
  cases tree.text? path with
  | none => exact congrArg some (classifies.badPath path)
  | some text =>
      dsimp only
      cases Text.readInt32 (Text.trim text.toList) with
      | none => exact congrArg some (classifies.badData path)
      | some value => rfl

theorem lexicalCast (text : List Char) : failure classify (lexicalCast text) =
    if (Text.readInt32 text).isSome then none else some .escaping := by
  unfold Package.lexicalCast
  cases Text.readInt32 text with
  | none => exact congrArg some classifies.badCast
  | some value => rfl

theorem fromIMFString (text : String) :
    failure classify (RationalNumber.fromIMFString text) = rational text := by
  unfold RationalNumber.fromIMFString rational
  rcases Text.splitOn ' ' text.toList with _ | ⟨num, _ | ⟨denum, _ | ⟨other, rest⟩⟩⟩
  · rfl
  · rfl
  · dsimp only
    have second (first : Int32) : failure classify (do
        let denum ← Package.lexicalCast denum
        pure (RationalNumber.mk first denum)) =
        if (Text.readInt32 denum).isSome then none else some .escaping := by
      rw [← classifies.lexicalCast]
      exact failure_bind_ok _
    rw [failure_bind fun first _ => second first, classifies.lexicalCast]
    cases (Text.readInt32 num).isSome <;> cases (Text.readInt32 denum).isSome <;> rfl
  · rfl

end Classifies

section Playlist

variable (tracks : List IMFTrack) (cplEditRate : String)

theorem failure_loadResource (node : PTree) :
    failure (Exn.defect ∘ Exn.ofResource) (CPLResource.load node cplEditRate tracks) =
      firstFailure (resourceChecks tracks cplEditRate node) := by
  have classifies := Exn.ofResource_classifies
  simp only [resourceChecks, ← classifies.getString, ← classifies.getInt,
    ← classifies.fromIMFString, firstFailure_cons, firstFailure_nil, Option.or_none]
  refine failure_bind fun resourceId _ => ?_
  refine failure_bind fun intrinsicDuration _ => ?_
  refine failure_bind fun editRate _ => ?_
  refine failure_bind fun sourceEncoding _ => ?_
  refine failure_bind fun trackFileId read => ?_
  rw [getStringD_of_getString read]
  cases KeyedList.find IMFTrack.uuid (uuidClean trackFileId) tracks with
  | none => rfl
  | some track => exact failure_bind_ok _

theorem failure_readResources (nodes : List (String × PTree)) :
    failure Exn.defect (readResources tracks cplEditRate nodes) =
      firstFailure (nodes.flatMap (resourceNodeChecks tracks cplEditRate)) := by
  induction nodes with
  | nil => rfl
  | cons child rest ih =>
      rcases child with ⟨key, node⟩
      rw [List.flatMap_cons, firstFailure_append, readResources, resourceNodeChecks]
      by_cases isResource : key = "Resource"
      · rw [if_pos isResource, if_pos isResource, firstFailure_cons, Option.or_assoc,
          ← Exn.defect_classifies.getString]
        refine failure_bind fun resourceType read => ?_
        rw [getStringD_of_getString read]
        split
        · rw [← failure_loadResource, ← ih]
          cases CPLResource.load node cplEditRate tracks with
          | ok resource => exact failure_bind_ok _
          | error error => cases error <;> rfl
        · exact ih
      · rw [if_neg isResource, if_neg isResource]
        exact ih

theorem failure_readSequence (child : String × PTree) :
    failure Exn.defect (readSequence tracks cplEditRate child.2) =
      firstFailure (sequenceChecks tracks cplEditRate child) := by
  have classifies := Exn.defect_classifies
  simp only [sequenceChecks, ← classifies.getString, firstFailure_append, firstFailure_cons,
    firstFailure_nil, Option.or_none, Option.or_assoc]
  refine failure_bind fun sequenceId _ => failure_bind fun trackId _ => ?_
  rw [classifies.getString, ← classifies.getChild]
  refine failure_bind fun resourceList found => ?_
  rw [childrenAt_of_some (some_of_getChild found), ← failure_readResources]
  exact failure_bind_ok _

theorem failure_readSequences (nodes : List (String × PTree)) :
    failure Exn.defect (readSequences tracks cplEditRate nodes) =
      firstFailure (nodes.flatMap (sequenceChecks tracks cplEditRate)) := by
  induction nodes with
  | nil => rfl
  | cons child rest ih =>
      rw [List.flatMap_cons, firstFailure_append, ← failure_readSequence, ← ih]
      exact failure_bind fun sequence _ => failure_bind_ok _

theorem failure_readSegment (child : String × PTree) :
    failure Exn.defect (readSegment tracks cplEditRate child.2) =
      firstFailure (segmentChecks tracks cplEditRate child) := by
  have classifies := Exn.defect_classifies
  simp only [segmentChecks, ← classifies.getString, firstFailure_append, firstFailure_cons,
    firstFailure_nil, Option.or_none, Option.or_assoc]
  refine failure_bind fun segmentUUID _ => ?_
  rw [classifies.getString, ← classifies.getChild]
  refine failure_bind fun sequenceList found => ?_
  rw [childrenAt_of_some (some_of_getChild found), ← failure_readSequences]
  exact failure_bind_ok _

theorem failure_readSegments (nodes : List (String × PTree)) :
    failure Exn.defect (readSegments tracks cplEditRate nodes) =
      firstFailure (nodes.flatMap (segmentChecks tracks cplEditRate)) := by
  induction nodes with
  | nil => rfl
  | cons child rest ih =>
      rw [List.flatMap_cons, firstFailure_append, ← failure_readSegment, ← ih]
      exact failure_bind fun segment _ => failure_bind_ok _

omit tracks cplEditRate in
theorem failure_readHeader (node : PTree) :
    failure Exn.defect (XMLHeaderCompositionPlaylist.read node) =
      (present ["IssueDate"] node).or (present ["ContentTitle"] node) := by
  have classifies := Exn.defect_classifies
  rw [← classifies.getString, ← classifies.getString]
  exact failure_bind fun issueDate _ => failure_bind_ok _

omit tracks cplEditRate in
theorem present_cons {key : String} {tree child : PTree} (found : tree.getChild? [key] = some child)
    (path : List String) : present (key :: path) tree = present path child := by
  have below : tree.getChild? (key :: path) = child.getChild? path := by
    have first : tree.find key = some child := by
      simpa [PTree.getChild?] using found
    exact PTree.getChild?_cons first path
  rw [present, below, present]

omit cplEditRate in
theorem failure_loadPlaylist (path : String) (pt : PTree) :
    failure Exn.defect (IMFCompositionPlaylist.load path pt tracks) =
      firstFailure (playlistChecks tracks pt) := by
  have classifies := Exn.defect_classifies
  rw [IMFCompositionPlaylist.load_eq, failure_map]
  simp only [playlistChecks, firstFailure_append, firstFailure_cons, firstFailure_nil,
    Option.or_none, Option.or_assoc]
  rw [← classifies.getString]
  refine failure_bind fun cplUUID _ => ?_
  rw [← classifies.getChild]
  refine failure_bind fun headerNode root => ?_
  rw [present_cons (some_of_getChild root), present_cons (some_of_getChild root), ← Option.or_assoc,
    ← failure_readHeader]
  refine failure_bind fun header _ => ?_
  rw [← classifies.getString]
  refine failure_bind fun cplEditRate read => ?_
  rw [getStringD_of_getString read, ← classifies.fromIMFString]
  refine failure_bind fun editRate _ => ?_
  rw [← classifies.getChild]
  refine failure_bind fun segmentList found => ?_
  rw [childrenAt_of_some (some_of_getChild found), ← failure_readSegments]
  exact failure_bind_ok _

end Playlist

section Directory

variable {disk : FileSystem File}

/-- To translate an exception does not change what becomes of it. -/
theorem failure_rethrow {α : Type} {caught : Exn → Bool}
    (same : ∀ error, caught error = true → error.defect = .translated) (attempt : Except Exn α) :
    failure Exn.defect (rethrow caught attempt) = failure Exn.defect attempt := by
  cases attempt with
  | ok value => rfl
  | error error =>
      rw [rethrow, asPackageException]
      by_cases translated : caught error = true
      · rw [if_pos translated, failure_error, failure_error, same error translated]
        rfl
      · rw [if_neg translated]

theorem failure_parseAndAddXML (package : IMFPackage) (path : String) :
    failure Exn.defect (IMFPackage.parseAndAddXML disk package path) =
      firstFailure (xmlChecks disk (package.tracks.map TrackFile.track) path) := by
  rw [IMFPackage.parseAndAddXML, failure_rethrow]
  · unfold readXml xmlChecks
    cases disk.read path with
    | none => rfl
    | some file =>
        cases file with
        | mxf reading => rfl
        | other => rfl
        | xml pt =>
            dsimp only [ok_bind]
            split
            · rw [← failure_loadPlaylist]
              exact failure_bind_ok _
            · rfl
  · intro error caught
    cases error <;> first | rfl | cases caught

theorem pathOf_readPath {read next : IMFPackage × List String} {name : String}
    (succeeded : IMFPackage.readPath disk read name = .ok next) : next.1.pathOf = read.1.pathOf := by
  unfold IMFPackage.readPath at succeeded
  dsimp only at succeeded
  split at succeeded
  · obtain ⟨package, parsed, last⟩ := bind_eq_ok.mp succeeded
    obtain ⟨track, -, rfl⟩ := IMFPackage.parseAndAddTrack_eq_ok parsed
    rw [← Except.ok.inj last]
    exact read.1.pathOf_addTrack _
  · split at succeeded
    · rw [← Except.ok.inj succeeded]
    · rw [← Except.ok.inj succeeded]

theorem failure_readPath (read : IMFPackage × List String) (name : String) :
    failure Exn.defect (IMFPackage.readPath disk read name) =
      if FilePath.extension name = ".mxf" then trackFile disk (read.1.pathOf name) else none := by
  unfold IMFPackage.readPath
  dsimp only
  split
  · refine (failure_bind_ok _).trans ?_
    unfold IMFPackage.parseAndAddTrack trackFile
    cases disk.read (read.1.pathOf name) with
    | none => rfl
    | some file =>
        cases file with
        | mxf reading => cases reading <;> rfl
        | xml pt => rfl
        | other => rfl
  · split <;> rfl

section Assets

variable (package : IMFPackage)

theorem failure_readChunk (read : IMFPackage × List String) (chunk : String × PTree)
    (same : read.1.pathOf = package.pathOf) :
    failure Exn.defect (IMFPackage.readChunk disk read chunk) =
      firstFailure (chunkChecks disk package chunk) := by
  have classifies := Exn.defect_classifies
  simp only [chunkChecks, firstFailure_cons, firstFailure_nil, Option.or_none]
  rw [← classifies.getString, ← classifies.getInt, ← same]
  refine failure_bind fun name found => failure_bind fun volumeIndex _ => ?_
  rw [getStringD_of_getString found, failure_readPath]

theorem pathOf_readChunk {read next : IMFPackage × List String} {chunk : String × PTree}
    (succeeded : IMFPackage.readChunk disk read chunk = .ok next) :
    next.1.pathOf = read.1.pathOf := by
  obtain ⟨name, -, succeeded⟩ := bind_eq_ok.mp succeeded
  obtain ⟨volumeIndex, -, succeeded⟩ := bind_eq_ok.mp succeeded
  exact pathOf_readPath succeeded

theorem failure_readAsset (read : IMFPackage × List String) (asset : String × PTree)
    (same : read.1.pathOf = package.pathOf) :
    failure Exn.defect (IMFPackage.readAsset disk read asset) =
      firstFailure (assetChecks disk package asset) := by
  have classifies := Exn.defect_classifies
  unfold IMFPackage.readAsset assetChecks
  split
  · simp only [firstFailure_append, firstFailure_cons, firstFailure_nil, Option.or_none,
      Option.or_assoc]
    rw [← classifies.getString, ← classifies.getChild]
    refine failure_bind fun assetId _ => failure_bind fun chunkList found => ?_
    rw [childrenAt_of_some (some_of_getChild found)]
    exact failure_foldlM (fun read => read.1.pathOf = package.pathOf)
      (fun read chunk holds => failure_readChunk package read chunk holds)
      (fun read chunk next holds succeeded => (pathOf_readChunk succeeded).trans holds)
      chunkList.children same
  · rfl

theorem pathOf_readAsset {read next : IMFPackage × List String} {asset : String × PTree}
    (succeeded : IMFPackage.readAsset disk read asset = .ok next) :
    next.1.pathOf = read.1.pathOf := by
  unfold IMFPackage.readAsset at succeeded
  split at succeeded
  · obtain ⟨assetId, -, succeeded⟩ := bind_eq_ok.mp succeeded
    obtain ⟨chunkList, -, succeeded⟩ := bind_eq_ok.mp succeeded
    exact (foldlM_eq_ok (fun after => after.1.pathOf = read.1.pathOf) rfl
      (fun chunk before after holds taken => (pathOf_readChunk taken).trans holds) succeeded).1
  · rw [← Except.ok.inj succeeded]

theorem assetChecks_congr {first second : IMFPackage} (same : first.pathOf = second.pathOf) :
    assetChecks disk first = assetChecks disk second := by
  have chunks : chunkChecks disk first = chunkChecks disk second := by
    funext chunk
    rw [chunkChecks, chunkChecks, same]
  funext asset
  rw [assetChecks, assetChecks, chunks]

theorem failure_readAssets (assets : List (String × PTree)) :
    failure Exn.defect (assets.foldlM (IMFPackage.readAsset disk) (package, [])) =
      firstFailure (assets.flatMap (assetChecks disk package)) :=
  failure_foldlM (fun read => read.1.pathOf = package.pathOf)
    (fun read asset holds => failure_readAsset package read asset holds)
    (fun _ _ _ holds succeeded => (pathOf_readAsset succeeded).trans holds) assets rfl

theorem track_of_readPath {read next : IMFPackage × List String} {name : String}
    (succeeded : IMFPackage.readPath disk read name = .ok next)
    (mxf : FilePath.extension name = ".mxf") :
    ∃ track, disk.read (read.1.pathOf name) = some (.mxf (.ok track)) := by
  rw [IMFPackage.readPath, if_pos mxf] at succeeded
  obtain ⟨package, parsed, -⟩ := bind_eq_ok.mp succeeded
  obtain ⟨track, found, -⟩ := IMFPackage.parseAndAddTrack_eq_ok parsed
  exact ⟨track, found⟩

structure ChunkRead (disk : FileSystem File) (package : IMFPackage) (chunk : PTree) : Prop where
  path : ∃ path, chunk.text? ["Path"] = some path
  volumeIndex : ∃ index, getInt ["VolumeIndex"] chunk = .ok index
  track : FilePath.extension (chunk.getStringD ["Path"] "") = ".mxf" →
    ∃ track, disk.read (package.pathOf (chunk.getStringD ["Path"] "")) = some (.mxf (.ok track))

theorem chunkRead_of_readChunk {read next : IMFPackage × List String} {chunk : String × PTree}
    (succeeded : IMFPackage.readChunk disk read chunk = .ok next)
    (same : read.1.pathOf = package.pathOf) : ChunkRead disk package chunk.2 := by
  obtain ⟨name, found, succeeded⟩ := bind_eq_ok.mp succeeded
  obtain ⟨volumeIndex, volume, succeeded⟩ := bind_eq_ok.mp succeeded
  refine ⟨⟨name, text_of_getString found⟩, ⟨volumeIndex, volume⟩, fun mxf => ?_⟩
  rw [getStringD_of_getString found] at mxf ⊢
  rw [← same]
  exact track_of_readPath succeeded mxf

theorem assetRead_of_readAsset {read next : IMFPackage × List String} {asset : String × PTree}
    (succeeded : IMFPackage.readAsset disk read asset = .ok next)
    (same : read.1.pathOf = package.pathOf) (isAsset : asset.1 = "Asset") :
    IMFPackage.AssetGiven asset.2 ∧
      ∀ chunk ∈ childrenAt ["ChunkList"] asset.2, ChunkRead disk package chunk.2 := by
  rw [IMFPackage.readAsset, if_pos isAsset] at succeeded
  obtain ⟨assetId, id, succeeded⟩ := bind_eq_ok.mp succeeded
  obtain ⟨chunkList, found, succeeded⟩ := bind_eq_ok.mp succeeded
  have chunks : ∀ chunk ∈ childrenAt ["ChunkList"] asset.2, ChunkRead disk package chunk.2 := by
    rw [childrenAt_of_some (some_of_getChild found)]
    intro chunk member
    obtain ⟨before, after, holds, taken⟩ := (foldlM_eq_ok
      (fun read => read.1.pathOf = package.pathOf) same
      (fun chunk before after holds taken => (pathOf_readChunk taken).trans holds)
      succeeded).2 chunk member
    exact chunkRead_of_readChunk package taken holds
  exact ⟨⟨⟨assetId, text_of_getString id⟩, ⟨chunkList, some_of_getChild found⟩,
    fun chunk member => ⟨(chunks chunk member).path, (chunks chunk member).volumeIndex⟩⟩, chunks⟩

/-- Every track file that the map names was read, and the state after all assets is what the names
stand for. -/
theorem readAssets_eq_ok {pt list : PTree} {read : IMFPackage × List String}
    (found : pt.getChild? ["AssetMap", "AssetList"] = some list)
    (succeeded : list.children.foldlM (IMFPackage.readAsset disk) (package, []) = .ok read) :
    (∀ name ∈ readNames pt, FilePath.extension name = ".mxf" →
      ∃ track, disk.read (package.pathOf name) = some (.mxf (.ok track))) ∧
    read.1 = package.addTracks (tracksIn disk (((readNames pt).filter fun name =>
      FilePath.extension name = ".mxf").map package.pathOf)) ∧
    read.2 = ((readNames pt).filter fun name => FilePath.extension name = ".xml").map
      package.pathOf := by
  have assets : ∀ asset ∈ list.children, asset.1 = "Asset" →
      IMFPackage.AssetGiven asset.2 ∧
        ∀ chunk ∈ childrenAt ["ChunkList"] asset.2, ChunkRead disk package chunk.2 := by
    intro asset member isAsset
    obtain ⟨before, after, holds, taken⟩ := (foldlM_eq_ok
      (fun read => read.1.pathOf = package.pathOf) rfl
      (fun asset before after holds taken => (pathOf_readAsset taken).trans holds)
      succeeded).2 asset member
    exact assetRead_of_readAsset package taken holds isAsset
  have list : readNames pt = (((list.children.filter fun asset => asset.1 = "Asset").map fun asset =>
      childrenAt ["ChunkList"] asset.2).flatten).map fun chunk => chunk.2.getStringD ["Path"] "" := by
    rw [readNames, chunkLists, childrenAt_of_some found]
  have tracks : ∀ name ∈ readNames pt, FilePath.extension name = ".mxf" →
      ∃ track, disk.read (package.pathOf name) = some (.mxf (.ok track)) := by
    intro name member
    rw [list] at member
    obtain ⟨chunk, inside, rfl⟩ := List.mem_map.mp member
    obtain ⟨chunkList, listed, inList⟩ := List.mem_flatten.mp inside
    obtain ⟨asset, filtered, rfl⟩ := List.mem_map.mp listed
    obtain ⟨present, isAsset⟩ := List.mem_filter.mp filtered
    exact ((assets asset present (of_decide_eq_true isAsset)).2 chunk inList).track
  rw [IMFPackage.readAssets _ _ fun asset member isAsset => (assets asset member isAsset).1, ← list,
    IMFPackage.readPaths (readNames pt) (package, []) tracks] at succeeded
  rw [← Except.ok.inj succeeded]
  exact ⟨tracks, rfl, rfl⟩

end Assets

theorem failure_readAssetMapHeader {pt root : PTree} (found : pt.getChild? ["AssetMap"] = some root) :
    failure Exn.defect (XMLHeaderAssetMap.read root) =
      firstFailure [present ["AssetMap", "Creator"] pt, integer ["AssetMap", "VolumeCount"] pt,
        present ["AssetMap", "IssueDate"] pt, present ["AssetMap", "Issuer"] pt] := by
  have classifies := Exn.defect_classifies
  have count : integer ["AssetMap", "VolumeCount"] pt = integer ["VolumeCount"] root := by
    have first : pt.find "AssetMap" = some root := by
      simpa [PTree.getChild?] using found
    rw [integer, integer, PTree.text?_cons first]
  simp only [firstFailure_cons, firstFailure_nil, Option.or_none, present_cons found, count]
  rw [← classifies.getString, ← classifies.getInt, ← classifies.getString, ← classifies.getString]
  exact failure_bind fun creator _ => failure_bind fun volumeCount _ =>
    failure_bind fun issueDate _ => failure_bind_ok _

theorem tracks_parseAndAddXML {package next : IMFPackage} {path : String}
    (parsed : IMFPackage.parseAndAddXML disk package path = .ok next) :
    next.tracks = package.tracks := by
  have attempt := rethrow_eq_ok.mp parsed
  obtain ⟨pt, -, attempt⟩ := bind_eq_ok.mp attempt
  split at attempt
  · obtain ⟨playlist, -, last⟩ := bind_eq_ok.mp attempt
    rw [← Except.ok.inj last]
    rfl
  · rw [← Except.ok.inj attempt]

theorem failure_parseXMLs (package : IMFPackage) (paths : List String) :
    failure Exn.defect (paths.foldlM (IMFPackage.parseAndAddXML disk) package) =
      firstFailure (paths.flatMap (xmlChecks disk (package.tracks.map TrackFile.track))) := by
  refine failure_foldlM (fun next => next.tracks = package.tracks) ?_ ?_ paths rfl
  · intro next path holds
    rw [failure_parseAndAddXML, holds]
  · intro before path next holds parsed
    rw [tracks_parseAndAddXML parsed, holds]

theorem readTracks_withHeader (disk : FileSystem File) (package : IMFPackage) (pt : PTree)
    (uuid : String) (header : XMLHeaderAssetMap) :
    readTracks disk { package with uuid := uuid, headerAssetMap := header } pt =
      readTracks disk package pt := by
  rw [readTracks, readTracks, IMFPackage.addTracks_eq, IMFPackage.addTracks_eq]
  rfl

theorem failure_readTree (package : IMFPackage) (pt : PTree) :
    failure Exn.defect (do
      let packageId ← getString ["AssetMap", "Id"] pt
      let headerChild ← getChild ["AssetMap"] pt
      let header ← XMLHeaderAssetMap.read headerChild
      let package := { package with uuid := uuidClean packageId, headerAssetMap := header }
      let assets ← getChild ["AssetMap", "AssetList"] pt
      let read ← assets.children.foldlM (IMFPackage.readAsset disk) (package, [])
      read.2.foldlM (IMFPackage.parseAndAddXML disk) read.1) =
    firstFailure (headerChecks pt ++
      (childrenAt ["AssetMap", "AssetList"] pt).flatMap (assetChecks disk package) ++
      (((readNames pt).filter fun name => FilePath.extension name = ".xml").map
        package.pathOf).flatMap (xmlChecks disk (readTracks disk package pt))) := by
  have classifies := Exn.defect_classifies
  have parts : headerChecks pt = [present ["AssetMap", "Id"] pt, present ["AssetMap"] pt] ++
      ([present ["AssetMap", "Creator"] pt, integer ["AssetMap", "VolumeCount"] pt,
        present ["AssetMap", "IssueDate"] pt, present ["AssetMap", "Issuer"] pt] ++
        [present ["AssetMap", "AssetList"] pt]) := rfl
  rw [parts, List.append_assoc, List.append_assoc, List.append_assoc, firstFailure_append,
    firstFailure_cons, firstFailure_cons, firstFailure_nil, Option.or_none, Option.or_assoc,
    ← classifies.getString, ← classifies.getChild]
  refine failure_bind fun packageId _ => failure_bind fun headerChild root => ?_
  rw [firstFailure_append, ← failure_readAssetMapHeader (some_of_getChild root)]
  refine failure_bind fun header _ => ?_
  rw [firstFailure_append, firstFailure_cons, firstFailure_nil, Option.or_none,
    ← classifies.getChild]
  refine failure_bind fun assets found => ?_
  have list := some_of_getChild found
  rw [firstFailure_append, childrenAt_of_some list,
    ← readTracks_withHeader disk package pt (uuidClean packageId) header]
  generalize same : ({ package with
    uuid := uuidClean packageId, headerAssetMap := header } : IMFPackage) = headed
  have paths : headed.pathOf = package.pathOf := by rw [← same]; rfl
  rw [← paths]
  rw [← assetChecks_congr paths, ← failure_readAssets]
  refine failure_bind fun read succeeded => ?_
  obtain ⟨-, tracks, documents⟩ := readAssets_eq_ok headed list succeeded
  rw [documents, readTracks, ← tracks]
  exact failure_parseXMLs read.1 _

theorem failure_load (directory : String) :
    failure Exn.defect (IMFPackage.load disk directory) =
      firstFailure (directoryChecks disk directory) := by
  have classifies := Exn.defect_classifies
  unfold IMFPackage.load directoryChecks
  generalize ({ IMFPackage.new with
      location := FilePath.parentPath directory
      name := FilePath.filename directory } : IMFPackage) = package
  dsimp only
  rw [IMFPackage.readAssetMap, failure_rethrow]
  · unfold readXml
    cases disk.read (package.pathOf "ASSETMAP.xml") with
    | none => rfl
    | some file =>
        cases file with
        | mxf reading => rfl
        | other => rfl
        | xml pt =>
            dsimp only
            rw [ok_bind]
            exact failure_readTree package pt
  · intro error caught
    cases error <;> first | rfl | cases caught

theorem caught_iff_failure {attempt : Except Exn IMFPackage} :
    Caught (rethrow IMFPackage.caughtByReadAssetMap attempt) ↔
      failure Exn.defect attempt ≠ some .escaping := by
  cases attempt with
  | ok loaded => exact iff_of_true (Or.inl ⟨loaded, rfl⟩) nofun
  | error error =>
      have neverLoads {other : Exn} (refused : ∀ what, other ≠ .packageException what) :
          ¬ Caught (.error other) := by
        intro caught
        rcases caught with ⟨loaded, loads⟩ | ⟨what, throws⟩
        · cases loads
        · exact refused what (Except.error.inj throws)
      cases error with
      | ptreeBadPath path => exact iff_of_true (Or.inr ⟨_, rfl⟩) nofun
      | xmlParserError what => exact iff_of_true (Or.inr ⟨_, rfl⟩) nofun
      | compositionPlaylistException what => exact iff_of_true (Or.inr ⟨_, rfl⟩) nofun
      | packageException what => exact iff_of_true (Or.inr ⟨_, rfl⟩) nofun
      | ptreeBadData path => exact iff_of_false (neverLoads nofun) fun other => other rfl
      | badLexicalCast => exact iff_of_false (neverLoads nofun) fun other => other rfl
      | filesystemError what => exact iff_of_false (neverLoads nofun) fun other => other rfl
      | mxfReaderException what => exact iff_of_false (neverLoads nofun) fun other => other rfl
      | invalidReferenceException what =>
          exact iff_of_false (neverLoads nofun) fun other => other rfl

/-- Loading ends as expected if and only if no malformed number is the first thing that is wrong
with the directory. -/
theorem load_caught_iff (disk : FileSystem File) (directory : String) :
    Caught (IMFPackage.load disk directory) ↔
      firstFailure (directoryChecks disk directory) ≠ some .escaping := by
  rw [← failure_load]
  unfold IMFPackage.load IMFPackage.readAssetMap
  rw [caught_iff_failure, failure_rethrow]
  intro error caught
  cases error <;> first | rfl | cases caught

/-- A malformed index of a volume comes out of the loader as it is. -/
theorem malformed_index_escapes :
    IMFPackage.load (IMFPackage.sampleDisk [("VolumeIndex", .node "x" [])]) "/x/p" =
        .error (.ptreeBadData ["VolumeIndex"]) ∧
      ¬ Caught (IMFPackage.load (IMFPackage.sampleDisk [("VolumeIndex", .node "x" [])]) "/x/p") := by
  have thrown : IMFPackage.load (IMFPackage.sampleDisk [("VolumeIndex", .node "x" [])]) "/x/p" =
      .error (.ptreeBadData ["VolumeIndex"]) := by
    have opened : ({ IMFPackage.new with
        location := FilePath.parentPath "/x/p"
        name := FilePath.filename "/x/p" } : IMFPackage) = IMFPackage.samplePackage := by
      have parent : FilePath.parentPath "/x/p" = "/x" := by decide +kernel
      have name : FilePath.filename "/x/p" = "p" := by decide +kernel
      rw [parent, name]
      rfl
    have path : IMFPackage.samplePackage.pathOf "ASSETMAP.xml" = "/x/p/ASSETMAP.xml" := by
      decide +kernel
    rw [IMFPackage.load, opened, path, IMFPackage.readAssetMap, readXml, IMFPackage.read_sampleMap]
    rfl
  refine ⟨thrown, fun caught => ?_⟩
  rw [thrown] at caught
  rcases caught with ⟨loaded, loads⟩ | ⟨what, throws⟩
  · cases loads
  · cases throws

end Directory

end Imflib.Package
