import Imflib.Base.ContentModel
import Imflib.Package.DescriptorIndex
import Imflib.Package.PackageReading

/-! The schema of asset maps, and when a map that is valid against it is taken over. -/

namespace Imflib.Package

section Schema

def uuidType : PTree → Prop := HasText [] fun text => isUUID text

def userText : PTree → Prop := HasText ["language"] fun _ => True

def anyText : PTree → Prop := HasText [] fun _ => True

def chunkType : PTree → Prop := HasContent []
  [.required "Path" anyText, .optional "VolumeIndex" (HasText [] positiveInteger),
    .optional "Offset" (HasText [] nonNegativeInteger),
    .optional "Length" (HasText [] positiveInteger)]

def chunkListType : PTree → Prop := HasContent [] [.repeated "Chunk" chunkType]

def assetType : PTree → Prop := HasContent []
  [.required "Id" uuidType, .optional "AnnotationText" userText,
    .optional "PackingList" (HasText [] boolean), .required "ChunkList" chunkListType]

def assetListType : PTree → Prop := HasContent [] [.repeated "Asset" assetType]

def assetMapModel : List Particle :=
  [.required "Id" uuidType, .optional "AnnotationText" userText, .required "Creator" userText,
    .required "VolumeCount" (HasText [] positiveInteger), .required "IssueDate" anyText,
    .required "Issuer" userText, .required "AssetList" assetListType]

def assetMapType : PTree → Prop := HasContent [] assetMapModel

/-- A document that is valid against the schema of asset maps. -/
def ValidAssetMap : PTree → Prop := HasContent [] [.required "AssetMap" assetMapType]

end Schema

/-- What stands in the chunk lists of the assets, comments and attributes included. -/
def chunkLists (pt : PTree) : List (List (String × PTree)) :=
  ((childrenAt ["AssetMap", "AssetList"] pt).filter fun asset => asset.1 = "Asset").map
    fun asset => childrenAt ["ChunkList"] asset.2

def chunkPaths (pt : PTree) : List String :=
  ((chunkLists pt).flatten.filter fun chunk => chunk.1 = "Chunk").map
    fun chunk => chunk.2.getStringD ["Path"] ""

/-- What the reader needs beyond the schema. -/
structure VolumesGiven (pt : PTree) : Prop where
  volumeCount : ∃ n, pt.numberAt ["AssetMap", "VolumeCount"] = some n ∧ n < 2 ^ 31
  onlyChunks : ∀ chunkList ∈ chunkLists pt, ∀ child ∈ chunkList, child.1 = "Chunk"
  volumeIndex : ∀ chunkList ∈ chunkLists pt, ∀ child ∈ chunkList,
    ∃ n, child.2.numberAt ["VolumeIndex"] = some n ∧ n < 2 ^ 31

section Listed

variable (disk : FileSystem File) (package : IMFPackage) (pt : PTree)

def listedWith (extension : String) : List String :=
  ((chunkPaths pt).filter fun name => FilePath.extension name = extension).map package.pathOf

def tracksIn (paths : List String) : List TrackFile :=
  paths.filterMap fun path => match disk.read path with
    | some (.mxf (.ok track)) => some ⟨track, path⟩
    | _ => none

/-- The package with more tracks, each behind those of its type. -/
def IMFPackage.addTracks (assets : List TrackFile) : IMFPackage := assets.foldl addTrack package

def IMFPackage.withHeader (volumeCount : Int32) : IMFPackage :=
  { package with
    uuid := uuidClean (pt.getStringD ["AssetMap", "Id"] "")
    headerAssetMap :=
      { annotation := pt.getStringD ["AssetMap", "AnnotationText"] ""
        issuer := pt.getStringD ["AssetMap", "Issuer"] ""
        creator := pt.getStringD ["AssetMap", "Creator"] ""
        issueDate := pt.getStringD ["AssetMap", "IssueDate"] ""
        volumeCount := volumeCount } }

def isPlaylist (path : String) : Bool :=
  match disk.read path with
  | some (.xml xml) => (xml.getChild? ["CompositionPlaylist"]).isSome
  | _ => false

/-- Every track file that is listed is one, and every playlist can be loaded with the tracks. -/
structure FilesReadable : Prop where
  tracks : ∀ path ∈ listedWith package pt ".mxf",
    ∃ track, disk.read path = some (.mxf (.ok track))
  documents : ∀ path ∈ listedWith package pt ".xml", ∃ xml, disk.read path = some (.xml xml)
  playlists : ∀ path ∈ listedWith package pt ".xml", ∀ xml, disk.read path = some (.xml xml) →
    (xml.getChild? ["CompositionPlaylist"]).isSome →
    ∃ playlist, IMFCompositionPlaylist.load path xml
      ((package.addTracks (tracksIn disk (listedWith package pt ".mxf"))).tracks.map
        TrackFile.track) = .ok playlist

structure TakenOver (loaded : IMFPackage) : Prop where
  uuid : loaded.uuid = uuidClean (pt.getStringD ["AssetMap", "Id"] "")
  annotation : loaded.headerAssetMap.annotation = pt.getStringD ["AssetMap", "AnnotationText"] ""
  creator : loaded.headerAssetMap.creator = pt.getStringD ["AssetMap", "Creator"] ""
  volumeCount : pt.numberAt ["AssetMap", "VolumeCount"] =
    some loaded.headerAssetMap.volumeCount.toInt
  issueDate : loaded.headerAssetMap.issueDate = pt.getStringD ["AssetMap", "IssueDate"] ""
  issuer : loaded.headerAssetMap.issuer = pt.getStringD ["AssetMap", "Issuer"] ""
  tracks : loaded.tracks = (package.addTracks
    (tracksIn disk (listedWith package pt ".mxf"))).tracks
  playlists : loaded.compositionPlaylists.map IMFCompositionPlaylist.path =
    package.compositionPlaylists.map IMFCompositionPlaylist.path ++
      (listedWith package pt ".xml").filter (isPlaylist disk)

end Listed

theorem numberAt_of_getInt {path : List String} {tree : PTree} {value : Int32}
    (read : getInt path tree = .ok value) : tree.numberAt path = some value.toInt := by
  rw [getInt_eq] at read
  rw [PTree.numberAt]
  cases present : tree.text? path with
  | none =>
      rw [present] at read
      cases read
  | some text =>
      simp only [present] at read
      cases number : Text.readInt32 (Text.trim text.toList) with
      | none =>
          rw [number] at read
          cases read
      | some fitted =>
          rw [number] at read
          cases Except.ok.inj read
          exact Text.readDecimal_of_readInt32 number

theorem getInt_of_numberAt {path : List String} {tree : PTree} {n : Int}
    (present : tree.numberAt path = some n) (least : -2 ^ 31 ≤ n) (most : n < 2 ^ 31) :
    getInt path tree = .ok (Int32.ofInt n) := by
  obtain ⟨text, found, number⟩ := Option.bind_eq_some_iff.mp present
  rw [getInt_eq, found]
  simp only [Text.readInt32_of_readDecimal number least most]

namespace IMFPackage

variable {disk : FileSystem File}

theorem addTracks_eq (package : IMFPackage) (assets : List TrackFile) :
    package.addTracks assets =
      { package with
        videoTracks := package.videoTracks ++ assets.filter fun asset => asset.track.type = .video
        audioTracks := package.audioTracks ++ assets.filter fun asset => asset.track.type = .audio } := by
  induction assets generalizing package with
  | nil => simp [addTracks]
  | cons asset rest ih =>
      have first : package.addTracks (asset :: rest) = (package.addTrack asset).addTracks rest := rfl
      rw [first, ih, addTrack]
      cases type : asset.track.type with
      | video => simp [type]
      | audio => simp [type]

/-- Track files are added as they are met, and XML files are kept for later. -/
theorem readPaths (names : List String) (read : IMFPackage × List String)
    (found : ∀ name ∈ names, FilePath.extension name = ".mxf" →
      ∃ track, disk.read (read.1.pathOf name) = some (.mxf (.ok track))) :
    names.foldlM (readPath disk) read =
      .ok (read.1.addTracks (tracksIn disk
          ((names.filter fun name => FilePath.extension name = ".mxf").map read.1.pathOf)),
        read.2 ++ (names.filter fun name => FilePath.extension name = ".xml").map read.1.pathOf) := by
  induction names generalizing read with
  | nil => simp [tracksIn, addTracks]
  | cons name rest ih =>
      have others := fun other member => found other (List.mem_cons_of_mem name member)
      rw [List.foldlM_cons]
      by_cases mxf : FilePath.extension name = ".mxf"
      · obtain ⟨track, content⟩ := found name List.mem_cons_self mxf
        have pathOf := read.1.pathOf_addTrack ⟨track, read.1.pathOf name⟩
        rw [readPath_track mxf content, ok_bind, ih _ (by rw [pathOf]; exact others), pathOf]
        simp [mxf, tracksIn, content, addTracks]
      · by_cases xml : FilePath.extension name = ".xml"
        · rw [readPath_xml xml, ok_bind, ih (read.1, read.2 ++ [read.1.pathOf name]) others]
          simp [xml]
        · have passed : readPath disk read name = .ok read := by
            rw [readPath, if_neg mxf, if_neg xml, pure_eq_ok]
          rw [passed, ok_bind, ih read others]
          simp [mxf, xml]

theorem readChunks (chunks : List (String × PTree)) (read : IMFPackage × List String)
    (given : ∀ chunk ∈ chunks, (∃ path, chunk.2.text? ["Path"] = some path) ∧
      ∃ index, getInt ["VolumeIndex"] chunk.2 = .ok index) :
    chunks.foldlM (readChunk disk) read =
      (chunks.map fun chunk => chunk.2.getStringD ["Path"] "").foldlM (readPath disk) read := by
  induction chunks generalizing read with
  | nil => rfl
  | cons chunk rest ih =>
      obtain ⟨⟨path, present⟩, index, volume⟩ := given chunk List.mem_cons_self
      have first : readChunk disk read chunk =
          readPath disk read (chunk.2.getStringD ["Path"] "") := by
        rw [readChunk, getString_of_text present, volume, PTree.getStringD_eq, present]
        rfl
      rw [List.map_cons, List.foldlM_cons, List.foldlM_cons, first]
      refine bind_congr fun next => ?_
      exact ih next fun other member => given other (List.mem_cons_of_mem _ member)

structure AssetGiven (asset : PTree) : Prop where
  id : ∃ id, asset.text? ["Id"] = some id
  chunkList : ∃ chunkList, asset.getChild? ["ChunkList"] = some chunkList
  chunks : ∀ chunk ∈ childrenAt ["ChunkList"] asset,
    (∃ path, chunk.2.text? ["Path"] = some path) ∧
      ∃ index, getInt ["VolumeIndex"] chunk.2 = .ok index

theorem readAssets (assets : List (String × PTree)) (read : IMFPackage × List String)
    (given : ∀ asset ∈ assets, asset.1 = "Asset" → AssetGiven asset.2) :
    assets.foldlM (readAsset disk) read =
      ((((assets.filter fun asset => asset.1 = "Asset").map fun asset =>
        childrenAt ["ChunkList"] asset.2).flatten).map fun chunk =>
          chunk.2.getStringD ["Path"] "").foldlM (readPath disk) read := by
  induction assets generalizing read with
  | nil => rfl
  | cons asset rest ih =>
      have others := fun next => ih next fun other member => given other (List.mem_cons_of_mem _ member)
      rw [List.foldlM_cons, readAsset]
      by_cases isAsset : asset.1 = "Asset"
      · obtain ⟨⟨id, present⟩, ⟨chunkList, found⟩, chunks⟩ := given asset List.mem_cons_self isAsset
        rw [childrenAt_of_some found] at chunks
        simp only [if_pos isAsset, getString_of_text present, getChild_of_some found, ok_bind,
          readChunks _ _ chunks]
        simp only [isAsset, decide_true, List.filter_cons_of_pos, List.map_cons, List.flatten_cons,
          List.map_append, List.foldlM_append, childrenAt_of_some found]
        exact bind_congr others
      · rw [if_neg isAsset, pure_bind, others]
        simp [isAsset]

theorem parseXMLs (paths : List String) (package : IMFPackage)
    (documents : ∀ path ∈ paths, ∃ xml, disk.read path = some (.xml xml))
    (playlists : ∀ path ∈ paths, ∀ xml, disk.read path = some (.xml xml) →
      (xml.getChild? ["CompositionPlaylist"]).isSome → ∃ playlist,
        IMFCompositionPlaylist.load path xml (package.tracks.map TrackFile.track) = .ok playlist) :
    ∃ loaded, paths.foldlM (parseAndAddXML disk) package = .ok loaded ∧
      loaded = { package with compositionPlaylists := loaded.compositionPlaylists } ∧
      loaded.compositionPlaylists.map IMFCompositionPlaylist.path =
        package.compositionPlaylists.map IMFCompositionPlaylist.path ++
          paths.filter (isPlaylist disk) := by
  induction paths generalizing package with
  | nil => exact ⟨package, rfl, rfl, (List.append_nil _).symm⟩
  | cons path rest ih =>
      obtain ⟨xml, content⟩ := documents path List.mem_cons_self
      have later := fun other member => documents other (List.mem_cons_of_mem path member)
      have laterPlaylists := fun other member => playlists other (List.mem_cons_of_mem path member)
      by_cases root : (xml.getChild? ["CompositionPlaylist"]).isSome = true
      · obtain ⟨playlist, read⟩ := playlists path List.mem_cons_self xml content root
        obtain ⟨loaded, folded, frame, same⟩ :=
          ih (package.addCompositionPlaylist playlist) later laterPlaylists
        have parsed : parseAndAddXML disk package path =
            .ok (package.addCompositionPlaylist playlist) := by
          refine rethrow_eq_ok.mpr ?_
          simp [readXml, content, root, read]
        have listed : isPlaylist disk path = true := by rw [isPlaylist, content]; exact root
        refine ⟨loaded, ?_, frame, ?_⟩
        · rw [List.foldlM_cons, parsed, ok_bind, folded]
        · rw [List.filter_cons_of_pos listed, same, addCompositionPlaylist, List.map_append,
            List.map_singleton, IMFCompositionPlaylist.path_of_load read, List.append_assoc]
          rfl
      · obtain ⟨loaded, folded, frame, same⟩ := ih package later laterPlaylists
        have absent : xml.getChild? ["CompositionPlaylist"] = none :=
          Option.not_isSome_iff_eq_none.mp root
        have passed : ¬ isPlaylist disk path = true := by rw [isPlaylist, content]; exact root
        refine ⟨loaded, ?_, frame, ?_⟩
        · rw [List.foldlM_cons, parseAndAddXML_other content absent, ok_bind, folded]
        · rw [List.filter_cons_of_neg passed, same]

end IMFPackage

section Valid

variable {pt : PTree}

theorem assetMap_of_valid (valid : ValidAssetMap pt) :
    ∃ root, pt.find "AssetMap" = some root ∧ assetMapType root :=
  valid.required (by decide) List.mem_cons_self (by simp)

theorem assetList_of_type {root : PTree} (valid : assetMapType root) :
    ∃ list, root.find "AssetList" = some list ∧ assetListType list :=
  valid.required (by decide) (by simp [assetMapModel]) (by simp [assetMapModel])

theorem volumeCount_of_type {root : PTree} (valid : assetMapType root) :
    ∃ n, root.numberAt ["VolumeCount"] = some n ∧ 0 < n := by
  have listed : Particle.required "VolumeCount" (HasText [] positiveInteger) ∈ assetMapModel := by
    simp [assetMapModel]
  obtain ⟨child, found, text⟩ := valid.required (by decide) listed (by simp [assetMapModel])
  obtain ⟨n, number, positive⟩ := text.text
  refine ⟨n, ?_, positive⟩
  rw [PTree.numberAt, PTree.text?_cons found]
  exact number

theorem assetType_of_mem {list : PTree} (valid : assetListType list) {asset : String × PTree}
    (member : asset ∈ list.children) (isAsset : asset.1 = "Asset") : assetType asset.2 := by
  have element : asset ∈ list.elements :=
    List.mem_filter.mpr ⟨member, by rw [isAsset]; decide⟩
  exact ((Matches.repeated_iff.mp valid.content).2 asset element).2

theorem chunkList_of_type {asset : PTree} (valid : assetType asset) :
    ∃ chunkList, asset.find "ChunkList" = some chunkList ∧ chunkListType chunkList :=
  valid.required (by decide) (by simp) (by simp)

theorem chunkType_of_mem {chunkList : PTree} (valid : chunkListType chunkList)
    {chunk : String × PTree} (member : chunk ∈ chunkList.children)
    (element : isElement chunk.1 = true) : chunk.1 = "Chunk" ∧ chunkType chunk.2 :=
  (Matches.repeated_iff.mp valid.content).2 chunk (List.mem_filter.mpr ⟨member, element⟩)

theorem volumeIndex_of_type {chunk : PTree} (valid : chunkType chunk) {n : Int}
    (given : chunk.numberAt ["VolumeIndex"] = some n) : 0 < n := by
  obtain ⟨text, present, number⟩ := Option.bind_eq_some_iff.mp given
  obtain ⟨child, found, same⟩ := Option.map_eq_some_iff.mp present
  have volume : chunk.find "VolumeIndex" = some child := by
    cases first : chunk.find "VolumeIndex" with
    | none => simp [PTree.getChild?, first] at found
    | some other => simpa [PTree.getChild?, first] using found
  have typed : HasText [] positiveInteger child := valid.optional (by decide) (by simp) volume
  obtain ⟨m, written, positive⟩ := typed.text
  rw [same, number] at written
  rw [Option.some.inj written]
  exact positive

theorem text_of_present {root : PTree} {attributes : List String} {model : List Particle}
    (valid : HasContent attributes model root) {name : String} {type : PTree → Prop}
    (element : isElement name = true) (member : Particle.required name type ∈ model) :
    ∃ text, root.text? [name] = some text := by
  obtain ⟨child, found⟩ := valid.present element member
  exact ⟨child.data, PTree.text?_cons found []⟩

theorem assetGiven_of_type {asset : PTree} (valid : assetType asset)
    (volumes : ∀ chunk ∈ childrenAt ["ChunkList"] asset, chunk.1 = "Chunk" ∧
      ∃ n, chunk.2.numberAt ["VolumeIndex"] = some n ∧ n < 2 ^ 31) :
    IMFPackage.AssetGiven asset := by
  obtain ⟨chunkList, found, typed⟩ := chunkList_of_type valid
  have list : asset.getChild? ["ChunkList"] = some chunkList := PTree.getChild?_cons found []
  refine ⟨text_of_present valid (by decide) List.mem_cons_self, ⟨chunkList, list⟩, ?_⟩
  intro chunk member
  obtain ⟨isChunk, n, number, most⟩ := volumes chunk member
  rw [childrenAt_of_some list] at member
  have chunkTyped := (chunkType_of_mem typed member (by rw [isChunk]; decide)).2
  have positive := volumeIndex_of_type chunkTyped number
  exact ⟨text_of_present chunkTyped (by decide) List.mem_cons_self,
    _, getInt_of_numberAt number (by omega) most⟩

theorem volumes_of_read {chunkList : PTree} (valid : chunkListType chunkList)
    {chunk : String × PTree} (member : chunk ∈ chunkList.children) {path : String} {index : Int32}
    (readPath : getString ["Path"] chunk.2 = .ok path)
    (readIndex : getInt ["VolumeIndex"] chunk.2 = .ok index) :
    chunk.1 = "Chunk" ∧ ∃ n, chunk.2.numberAt ["VolumeIndex"] = some n ∧ n < 2 ^ 31 := by
  refine ⟨?_, index.toInt, numberAt_of_getInt readIndex, index.toInt_lt⟩
  by_cases element : isElement chunk.1 = true
  · exact (chunkType_of_mem valid member element).1
  · have noPath : chunk.2.find "Path" = none :=
      valid.find_attribute member (Bool.eq_false_iff.mpr element) (by decide) List.not_mem_nil
    have present := text_of_getString readPath
    simp [PTree.text?, PTree.getChild?, noPath] at present

end Valid

namespace IMFPackage

variable {disk : FileSystem File} {package : IMFPackage} {pt : PTree} {filename : String}

theorem volumes_of_asset {asset : String × PTree} (isAsset : asset.1 = "Asset")
    (valid : assetType asset.2) {before after : IMFPackage × List String}
    (read : readAsset disk before asset = .ok after) :
    ∀ child ∈ childrenAt ["ChunkList"] asset.2, child.1 = "Chunk" ∧
      ∃ n, child.2.numberAt ["VolumeIndex"] = some n ∧ n < 2 ^ 31 := by
  rw [readAsset, if_pos isAsset] at read
  obtain ⟨assetId, -, read⟩ := bind_eq_ok.mp read
  obtain ⟨chunkList, found, chunksRead⟩ := bind_eq_ok.mp read
  obtain ⟨node, nodeFound, typed⟩ := chunkList_of_type valid
  have sameNode := some_of_getChild found
  rw [PTree.getChild?_cons nodeFound] at sameNode
  cases Option.some.inj sameNode
  intro child member
  rw [childrenAt_of_some (some_of_getChild found)] at member
  obtain ⟨_, _, chunkRead⟩ := foldlM_steps chunksRead child member
  obtain ⟨path, pathRead, chunkRead⟩ := bind_eq_ok.mp chunkRead
  obtain ⟨index, indexRead, -⟩ := bind_eq_ok.mp chunkRead
  exact volumes_of_read typed member pathRead indexRead

theorem volumesGiven_of_read (valid : ValidAssetMap pt) (found : disk.read filename = some (.xml pt))
    {loaded : IMFPackage} (read : readAssetMap disk package filename = .ok loaded) :
    VolumesGiven pt := by
  obtain ⟨root, rootFound, rootTyped⟩ := assetMap_of_valid valid
  obtain ⟨list, listFound, listTyped⟩ := assetList_of_type rootTyped
  have assets : childrenAt ["AssetMap", "AssetList"] pt = list.children := by
    refine childrenAt_of_some ?_
    rw [PTree.getChild?_cons rootFound, PTree.getChild?_cons listFound]
    rfl
  have attempt := rethrow_eq_ok.mp read
  simp only [readXml, found, ok_bind] at attempt
  obtain ⟨packageId, -, attempt⟩ := bind_eq_ok.mp attempt
  obtain ⟨headerChild, headerFound, attempt⟩ := bind_eq_ok.mp attempt
  obtain ⟨header, headerRead, attempt⟩ := bind_eq_ok.mp attempt
  obtain ⟨assetList, assetListFound, attempt⟩ := bind_eq_ok.mp attempt
  obtain ⟨⟨package, xmlFiles⟩, assetsRead, -⟩ := bind_eq_ok.mp attempt
  have sameList : assetList = list := by
    have other := some_of_getChild assetListFound
    rw [PTree.getChild?_cons rootFound, PTree.getChild?_cons listFound] at other
    exact (Option.some.inj other).symm
  have chunks : ∀ chunkList ∈ chunkLists pt, ∀ child ∈ chunkList, child.1 = "Chunk" ∧
      ∃ n, child.2.numberAt ["VolumeIndex"] = some n ∧ n < 2 ^ 31 := by
    intro chunkList member
    obtain ⟨asset, listed, rfl⟩ := List.mem_map.mp member
    rw [assets] at listed
    obtain ⟨inside, isAsset⟩ := List.mem_filter.mp listed
    have isAsset : asset.1 = "Asset" := of_decide_eq_true isAsset
    obtain ⟨before, after, assetRead⟩ := foldlM_steps (sameList ▸ assetsRead) asset inside
    exact volumes_of_asset isAsset (assetType_of_mem listTyped inside isAsset) assetRead
  refine ⟨?_, fun chunkList member child inside => (chunks chunkList member child inside).1,
    fun chunkList member child inside => (chunks chunkList member child inside).2⟩
  obtain ⟨creator, -, headerRead⟩ := bind_eq_ok.mp headerRead
  obtain ⟨volumeCount, countRead, -⟩ := bind_eq_ok.mp headerRead
  have sameRoot := some_of_getChild headerFound
  rw [PTree.getChild?_cons rootFound] at sameRoot
  cases Option.some.inj sameRoot
  refine ⟨volumeCount.toInt, ?_, volumeCount.toInt_lt⟩
  rw [PTree.numberAt, PTree.text?_cons rootFound]
  exact numberAt_of_getInt countRead

theorem header_of_type {root : PTree} (valid : assetMapType root) {n : Int}
    (volumeCount : root.numberAt ["VolumeCount"] = some n) (least : 0 < n) (most : n < 2 ^ 31) :
    XMLHeaderAssetMap.read root = .ok
      { annotation := root.getStringD ["AnnotationText"] ""
        issuer := root.getStringD ["Issuer"] ""
        creator := root.getStringD ["Creator"] ""
        issueDate := root.getStringD ["IssueDate"] ""
        volumeCount := Int32.ofInt n } := by
  have given {name : String} {type : PTree → Prop} (element : isElement name = true)
      (member : Particle.required name type ∈ assetMapModel) :
      getString [name] root = .ok (root.getStringD [name] "") := by
    obtain ⟨text, present⟩ := text_of_present valid element member
    rw [getString_of_text present, PTree.getStringD_eq, present, Option.getD_some]
  have creator : Particle.required "Creator" userText ∈ assetMapModel := by simp [assetMapModel]
  have issueDate : Particle.required "IssueDate" anyText ∈ assetMapModel := by simp [assetMapModel]
  have issuer : Particle.required "Issuer" userText ∈ assetMapModel := by simp [assetMapModel]
  have count := getInt_of_numberAt volumeCount (by omega) most
  simp only [XMLHeaderAssetMap.read, given (by decide) creator, given (by decide) issueDate,
    given (by decide) issuer, count, ok_bind, pure_eq_ok]

theorem readAssets_chunkPaths {list : PTree} (valid : assetListType list)
    (found : pt.getChild? ["AssetMap", "AssetList"] = some list) (given : VolumesGiven pt)
    (read : IMFPackage × List String) :
    list.children.foldlM (readAsset disk) read = (chunkPaths pt).foldlM (readPath disk) read := by
  have assets : ∀ asset ∈ list.children, asset.1 = "Asset" → AssetGiven asset.2 := by
    intro asset member isAsset
    have listed : childrenAt ["ChunkList"] asset.2 ∈ chunkLists pt := by
      refine List.mem_map.mpr ⟨asset, List.mem_filter.mpr ⟨?_, decide_eq_true isAsset⟩, rfl⟩
      rwa [childrenAt_of_some found]
    refine assetGiven_of_type (assetType_of_mem valid member isAsset) fun chunk inside => ?_
    exact ⟨given.onlyChunks _ listed chunk inside, given.volumeIndex _ listed chunk inside⟩
  have all : (chunkLists pt).flatten.filter (fun chunk => chunk.1 = "Chunk") =
      (chunkLists pt).flatten := by
    refine List.filter_eq_self.mpr fun chunk member => ?_
    obtain ⟨chunkList, listed, inside⟩ := List.mem_flatten.mp member
    exact decide_eq_true (given.onlyChunks chunkList listed chunk inside)
  rw [readAssets list.children read assets, chunkPaths, all, chunkLists, childrenAt_of_some found]

theorem takenOver_of_volumesGiven (valid : ValidAssetMap pt)
    (found : disk.read filename = some (.xml pt)) (readable : FilesReadable disk package pt)
    (given : VolumesGiven pt) :
    ∃ loaded, readAssetMap disk package filename = .ok loaded ∧
      TakenOver disk package pt loaded := by
  obtain ⟨root, rootFound, rootTyped⟩ := assetMap_of_valid valid
  obtain ⟨list, listFound, listTyped⟩ := assetList_of_type rootTyped
  obtain ⟨n, count, least⟩ := volumeCount_of_type rootTyped
  have countAt : pt.numberAt ["AssetMap", "VolumeCount"] = some n := by
    rw [PTree.numberAt, PTree.text?_cons rootFound]
    exact count
  have most : n < 2 ^ 31 := by
    obtain ⟨m, same, most⟩ := given.volumeCount
    rw [countAt] at same
    rwa [Option.some.inj same]
  have inRoot (name : String) : pt.getStringD ["AssetMap", name] "" = root.getStringD [name] "" := by
    rw [PTree.getStringD_eq, PTree.getStringD_eq, PTree.text?_cons rootFound]
  have rootAt : getChild ["AssetMap"] pt = .ok root :=
    getChild_of_some (PTree.getChild?_cons rootFound [])
  have listAt : pt.getChild? ["AssetMap", "AssetList"] = some list := by
    rw [PTree.getChild?_cons rootFound, PTree.getChild?_cons listFound]
    rfl
  have idAt : getString ["AssetMap", "Id"] pt = .ok (pt.getStringD ["AssetMap", "Id"] "") := by
    have member : Particle.required "Id" uuidType ∈ assetMapModel := List.mem_cons_self
    obtain ⟨id, present⟩ := text_of_present rootTyped (by decide) member
    rw [inRoot, PTree.getStringD_eq, present]
    exact getString_of_text (by rw [PTree.text?_cons rootFound, present]; rfl)
  have headerRead : XMLHeaderAssetMap.read root =
      .ok (package.withHeader pt (Int32.ofInt n)).headerAssetMap := by
    simp only [header_of_type rootTyped count least most, IMFPackage.withHeader, inRoot]
  have assetsRead : list.children.foldlM (readAsset disk) (package.withHeader pt (Int32.ofInt n), []) =
      .ok ((package.withHeader pt (Int32.ofInt n)).addTracks
        (tracksIn disk (listedWith package pt ".mxf")), listedWith package pt ".xml") := by
    rw [readAssets_chunkPaths listTyped listAt given, readPaths]
    · rfl
    · intro name member mxf
      exact readable.tracks _ (List.mem_map_of_mem
        (List.mem_filter.mpr ⟨member, decide_eq_true mxf⟩))
  have tracks : ((package.withHeader pt (Int32.ofInt n)).addTracks
      (tracksIn disk (listedWith package pt ".mxf"))).tracks =
      (package.addTracks (tracksIn disk (listedWith package pt ".mxf"))).tracks := by
    rw [addTracks_eq, addTracks_eq]
    rfl
  obtain ⟨loaded, parsed, frame, paths⟩ := parseXMLs (listedWith package pt ".xml") _
    readable.documents (by rw [tracks]; exact readable.playlists)
  refine ⟨loaded, rethrow_eq_ok.mpr ?_, ?_⟩
  · simp only [readXml, found, ok_bind, idAt, rootAt, headerRead, getChild_of_some listAt]
    exact (congrArg (fun read => read >>= _) assetsRead).trans parsed
  · have header : loaded.headerAssetMap =
        (package.withHeader pt (Int32.ofInt n)).headerAssetMap := by
      rw [frame, addTracks_eq]
    exact
      { uuid := by rw [frame, addTracks_eq]; rfl
        annotation := by rw [header]; rfl
        creator := by rw [header]; rfl
        volumeCount := by
          rw [header, countAt]
          exact congrArg some (Int32.toInt_ofInt_of_le (by omega) most).symm
        issueDate := by rw [header]; rfl
        issuer := by rw [header]; rfl
        tracks := by rw [frame, ← tracks]; rfl
        playlists := by rw [paths, addTracks_eq]; rfl }

/-- A valid asset map is taken over if and only if it gives what the reader needs. -/
theorem takenOver_iff (valid : ValidAssetMap pt) (found : disk.read filename = some (.xml pt))
    (readable : FilesReadable disk package pt) :
    (∃ loaded, readAssetMap disk package filename = .ok loaded ∧ TakenOver disk package pt loaded) ↔
      VolumesGiven pt := by
  constructor
  · intro taken
    obtain ⟨loaded, read, -⟩ := taken
    exact volumesGiven_of_read valid found read
  · exact takenOver_of_volumesGiven valid found readable

section Sample

/-- A map of one video, with or without an index of its volume. -/
def sampleMap (volumeIndex : List (String × PTree)) : PTree :=
  .node "" [("AssetMap", .node ""
    [("Id", .node "urn:uuid:01234567-89ab-cdef-0123-456789abcdef" []),
      ("Creator", .node "creator" []), ("VolumeCount", .node "1" []),
      ("IssueDate", .node "2017-03-01T21:56:47Z" []), ("Issuer", .node "issuer" []),
      ("AssetList", .node "" [("Asset", .node ""
        [("Id", .node "urn:uuid:11111111-2222-3333-4444-555555555555" []),
          ("ChunkList", .node "" [("Chunk", .node ""
            (("Path", .node "a.mxf" []) :: volumeIndex))])])])])]

def samplePackage : IMFPackage := { new with location := "/x", name := "p" }

def sampleDisk (volumeIndex : List (String × PTree)) : FileSystem File where
  canonical := id
  directory := fun folder => folder = "/x/p"
  file := fun entry =>
    if entry = ("/x/p", "ASSETMAP.xml") then some (.xml (sampleMap volumeIndex))
    else if entry = ("/x/p", "a.mxf") then some (.mxf (.ok Sample.video))
    else none
  inside := by
    intro entry filled
    by_cases folder : entry.1 = "/x/p"
    · exact decide_eq_true folder
    · have notMap : entry ≠ ("/x/p", "ASSETMAP.xml") := fun same => folder (congrArg Prod.fst same)
      have notTrack : entry ≠ ("/x/p", "a.mxf") := fun same => folder (congrArg Prod.fst same)
      rw [if_neg notMap, if_neg notTrack] at filled
      cases filled

theorem sampleMap_valid {volumeIndex : List (String × PTree)}
    (elements : ∀ child ∈ volumeIndex, isElement child.1 = true)
    (matched : Matches [.optional "VolumeIndex" (HasText [] positiveInteger),
      .optional "Offset" (HasText [] nonNegativeInteger),
      .optional "Length" (HasText [] positiveInteger)] volumeIndex) :
    ValidAssetMap (sampleMap volumeIndex) := by
  have chunk : chunkType (.node "" (("Path", .node "a.mxf" []) :: volumeIndex)) :=
    .of_elements (List.forall_mem_cons.mpr ⟨by decide, elements⟩)
      (.required (.leaf trivial) matched)
  have chunkList : chunkListType (.node "" [("Chunk", _)]) :=
    .of_elements (by simp [isElement]) (Matches.repeated_singleton chunk)
  have asset : assetType (.node ""
      [("Id", .node "urn:uuid:11111111-2222-3333-4444-555555555555" []), ("ChunkList", _)]) :=
    .of_elements (by simp [isElement])
      (.required (.leaf (by decide +kernel)) (.missing rfl (.missing rfl (.required chunkList .nil))))
  have assetList : assetListType (.node "" [("Asset", _)]) :=
    .of_elements (by simp [isElement]) (Matches.repeated_singleton asset)
  refine .of_elements (by simp [isElement]) (.required (.of_elements (by simp [isElement]) ?_) .nil)
  exact .required (.leaf (by decide +kernel)) (.missing rfl (.required (.leaf trivial)
    (.required (.leaf ⟨1, by decide +kernel, by decide⟩) (.required (.leaf trivial)
      (.required (.leaf trivial) (.required assetList .nil))))))

theorem read_sampleMap (volumeIndex : List (String × PTree)) :
    (sampleDisk volumeIndex).read "/x/p/ASSETMAP.xml" = some (.xml (sampleMap volumeIndex)) := by
  have entry : (sampleDisk volumeIndex).entry "/x/p/ASSETMAP.xml" = ("/x/p", "ASSETMAP.xml") := by
    change (FilePath.parentPath "/x/p/ASSETMAP.xml", FilePath.filename "/x/p/ASSETMAP.xml") = _
    decide +kernel
  rw [FileSystem.read, entry]
  simp [sampleDisk]

theorem read_sampleTrack (volumeIndex : List (String × PTree)) :
    (sampleDisk volumeIndex).read "/x/p/a.mxf" = some (.mxf (.ok Sample.video)) := by
  have entry : (sampleDisk volumeIndex).entry "/x/p/a.mxf" = ("/x/p", "a.mxf") := by
    change (FilePath.parentPath "/x/p/a.mxf", FilePath.filename "/x/p/a.mxf") = _
    decide +kernel
  rw [FileSystem.read, entry]
  simp [sampleDisk]

theorem sample_readable {volumeIndex : List (String × PTree)}
    (tracks : listedWith samplePackage (sampleMap volumeIndex) ".mxf" = ["/x/p/a.mxf"])
    (documents : listedWith samplePackage (sampleMap volumeIndex) ".xml" = []) :
    FilesReadable (sampleDisk volumeIndex) samplePackage (sampleMap volumeIndex) := by
  refine ⟨fun path member => ?_, fun path member => ?_, fun path member => ?_⟩
  · rw [tracks, List.mem_singleton] at member
    exact ⟨Sample.video, member ▸ read_sampleTrack volumeIndex⟩
  · rw [documents] at member
    cases member
  · rw [documents] at member
    cases member

theorem takenOver_sample : ∃ loaded,
    readAssetMap (sampleDisk [("VolumeIndex", .node "1" [])]) samplePackage "/x/p/ASSETMAP.xml" =
      .ok loaded ∧
    TakenOver (sampleDisk [("VolumeIndex", .node "1" [])]) samplePackage
      (sampleMap [("VolumeIndex", .node "1" [])]) loaded := by
  have valid : ValidAssetMap (sampleMap [("VolumeIndex", .node "1" [])]) :=
    sampleMap_valid (by decide) (.optional (.leaf ⟨1, by decide +kernel, by decide⟩)
      (.missing rfl (.missing rfl .nil)))
  have readable := @sample_readable [("VolumeIndex", .node "1" [])]
    (by decide +kernel) (by decide +kernel)
  have only : chunkLists (sampleMap [("VolumeIndex", .node "1" [])]) =
      [[("Chunk", .node "" [("Path", .node "a.mxf" []), ("VolumeIndex", .node "1" [])])]] := rfl
  refine (takenOver_iff valid (read_sampleMap _) readable).mpr
    ⟨⟨1, by decide +kernel, by decide⟩, fun chunkList member child inside => ?_,
      fun chunkList member child inside => ?_⟩
  · rw [only, List.mem_singleton] at member
    rw [member, List.mem_singleton] at inside
    rw [inside]
  · rw [only, List.mem_singleton] at member
    rw [member, List.mem_singleton] at inside
    rw [inside]
    exact ⟨1, by decide +kernel, by decide⟩

/-- A valid map may leave the index of the volume out, and the reader gives up on it. -/
theorem valid_map_refused :
    ValidAssetMap (sampleMap []) ∧ FilesReadable (sampleDisk []) samplePackage (sampleMap []) ∧
      (sampleDisk []).read "/x/p/ASSETMAP.xml" = some (.xml (sampleMap [])) ∧
      readAssetMap (sampleDisk []) samplePackage "/x/p/ASSETMAP.xml" =
        .error (.packageException "No such node (VolumeIndex)") := by
  refine ⟨sampleMap_valid (by decide) (.missing rfl (.missing rfl (.missing rfl .nil))),
    sample_readable (by decide +kernel) (by decide +kernel), read_sampleMap [], ?_⟩
  rw [readAssetMap, readXml, read_sampleMap]
  rfl

end Sample

end IMFPackage

end Imflib.Package
