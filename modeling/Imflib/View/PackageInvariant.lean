import Imflib.Base.Transition
import Imflib.Package.PackageReading
import Imflib.View.PackageView

/-! What every action of the package view keeps of the package and its files. -/

namespace Imflib.View

open Imflib.Package

/-- Identifiers that no track has, the files of tracks, and what lies in the folder of the
package, if there is one. -/
structure Stored (placed : Prop) (fullPath : String) (made : List String)
    (disk : FileSystem File) (tracks : List TrackFile) : Prop where
  unusedTracks : ∀ uuid ∈ made, ∀ asset ∈ tracks, asset.track.uuid ≠ uuid
  unusedFiles : ∀ uuid ∈ made, ∀ entry track,
    disk.file entry = some (.mxf (.ok track)) → track.uuid ≠ uuid
  /-- Without copies of a track its file is where the package has it. -/
  files : (tracks.map (·.track.uuid)).Nodup →
    ∀ asset ∈ tracks, disk.read asset.path = some (.mxf (.ok asset.track))
  folder : placed → ∀ name content, disk.file (disk.folderOf fullPath, name) = some content →
    (∃ asset ∈ tracks, disk.entry asset.path = (disk.folderOf fullPath, name) ∧
      asset.getFileName = name) ∨
    (∃ base, name = base ++ ".xml") ∧ ∃ pt, content = .xml pt

def XmlName (folder : String) (entry : String × String) : Prop :=
  entry.1 = folder ∧ ∃ base, entry.2 = base ++ ".xml"

namespace Stored

variable {placed : Prop} {fullPath : String} {made : List String} {disk : FileSystem File}
  {tracks : List TrackFile}

theorem perm (stored : Stored placed fullPath made disk tracks) {others : List TrackFile}
    (same : tracks.Perm others) : Stored placed fullPath made disk others := by
  refine
    { unusedTracks := fun uuid member asset inside =>
        stored.unusedTracks uuid member asset (same.mem_iff.mpr inside)
      unusedFiles := stored.unusedFiles
      files := fun distinct asset inside =>
        stored.files ((same.map (·.track.uuid)).nodup_iff.mpr distinct) asset (same.mem_iff.mpr inside)
      folder := ?_ }
  intro isPlaced name content found
  refine (stored.folder isPlaced name content found).imp_left fun listed => ?_
  obtain ⟨asset, inside, named⟩ := listed
  exact ⟨asset, same.mem_iff.mp inside, named⟩

theorem move {asset : TrackFile} (stored : Stored placed fullPath made disk (asset :: tracks))
    (free : disk.read (fullPath ++ "/" ++ asset.getFileName) = none) {moved : FileSystem File}
    (renamed : disk.rename asset.path (fullPath ++ "/" ++ asset.getFileName) = some moved) :
    Stored placed fullPath made moved
      ({ asset with path := fullPath ++ "/" ++ asset.getFileName } :: tracks) := by
  have canonical := (FileSystem.rename_eq_some renamed).1
  have entries := FileSystem.entry_congr canonical
  have folders := FileSystem.folderOf_congr canonical
  refine
    { unusedTracks := ?_
      unusedFiles := ?_
      files := ?_
      folder := ?_ }
  · intro uuid member other inside
    rcases List.mem_cons.mp inside with rfl | old
    · exact stored.unusedTracks uuid member asset List.mem_cons_self
    · exact stored.unusedTracks uuid member other (List.mem_cons_of_mem _ old)
  · intro uuid member entry track held
    rcases FileSystem.held_of_rename renamed held with ⟨-, source⟩ | ⟨-, before⟩
    · exact stored.unusedFiles uuid member _ track source
    · exact stored.unusedFiles uuid member entry track before
  · intro distinct other inside
    have before := stored.files distinct
    rcases List.mem_cons.mp inside with rfl | old
    · rw [FileSystem.read_rename_target renamed]
      exact before asset List.mem_cons_self
    · have there := before other (List.mem_cons_of_mem _ old)
      have notTarget : disk.entry other.path ≠
          disk.entry (fullPath ++ "/" ++ asset.getFileName) := by
        intro clash
        rw [FileSystem.read, clash] at there
        rw [FileSystem.read, there] at free
        cases free
      have notSource : disk.entry other.path ≠ disk.entry asset.path := by
        intro clash
        have own := before asset List.mem_cons_self
        rw [FileSystem.read, ← clash, ← FileSystem.read, there] at own
        have sameTrack : other.track = asset.track := by
          injection own with own
          injection own with own
          injection own
        refine (List.nodup_cons.mp distinct).1 ?_
        have inList := List.mem_map_of_mem (f := (·.track.uuid)) old
        rwa [sameTrack] at inList
      rw [FileSystem.read_rename_of_ne renamed notSource notTarget]
      exact there
  · intro isPlaced name held heldAt
    rw [folders] at heldAt ⊢
    rcases FileSystem.held_of_rename renamed heldAt with ⟨atTarget, -⟩ | ⟨notSource, before⟩
    · refine Or.inl ⟨_, List.mem_cons_self, ?_, ?_⟩
      · rw [entries]
        exact atTarget.symm
      · rw [asset.getFileName_moved fullPath]
        rw [asset.entry_target disk fullPath] at atTarget
        exact (congrArg Prod.snd atTarget).symm
    · refine (stored.folder isPlaced name held before).imp_left fun listed => ?_
      obtain ⟨other, inside, at_, named⟩ := listed
      rcases List.mem_cons.mp inside with rfl | old
      · exact absurd at_.symm notSource
      · refine ⟨other, List.mem_cons_of_mem _ old, ?_, named⟩
        rw [entries]
        exact at_

theorem copyTrack {before after : List TrackFile} {asset : TrackFile}
    (stored : Stored placed fullPath made disk (before ++ asset :: after))
    (refused : Refusals) (failure : String → Exn) :
    Stored placed fullPath made (copyTrack fullPath refused failure disk asset).state.1
      (before ++ (Package.copyTrack fullPath refused failure disk asset).state.2 :: after) := by
  rcases copyTrack_cases fullPath refused failure disk asset with
    ⟨same, -⟩ | ⟨free, moved, renamed, same⟩
  · rw [same]
    exact stored
  · rw [same]
    exact ((stored.perm List.perm_middle).move free renamed).perm List.perm_middle.symm

theorem add (stored : Stored placed fullPath made disk tracks) {asset : TrackFile}
    (found : disk.read asset.path = some (.mxf (.ok asset.track))) :
    Stored placed fullPath made disk (asset :: tracks) := by
  refine
    { unusedTracks := ?_
      unusedFiles := stored.unusedFiles
      files := ?_
      folder := ?_ }
  · intro uuid member other inside
    rcases List.mem_cons.mp inside with rfl | old
    · exact stored.unusedFiles uuid member _ _ found
    · exact stored.unusedTracks uuid member other old
  · intro distinct other inside
    rcases List.mem_cons.mp inside with rfl | old
    · exact found
    · exact stored.files (List.nodup_cons.mp distinct).2 other old
  · intro isPlaced name content held
    refine (stored.folder isPlaced name content held).imp_left fun listed => ?_
    obtain ⟨other, inside, named⟩ := listed
    exact ⟨other, List.mem_cons_of_mem _ inside, named⟩

theorem addUUID (stored : Stored placed fullPath made disk tracks) {uuid : String}
    (unusedTracks : ∀ asset ∈ tracks, asset.track.uuid ≠ uuid)
    (unusedFiles : ∀ entry track, disk.file entry = some (.mxf (.ok track)) → track.uuid ≠ uuid) :
    Stored placed fullPath (made ++ [uuid]) disk tracks := by
  refine
    { unusedTracks := ?_
      unusedFiles := ?_
      files := stored.files
      folder := stored.folder }
  · intro other member
    rcases List.mem_append.mp member with old | new
    · exact stored.unusedTracks other old
    · exact List.mem_singleton.mp new ▸ unusedTracks
  · intro other member
    rcases List.mem_append.mp member with old | new
    · exact stored.unusedFiles other old
    · exact List.mem_singleton.mp new ▸ unusedFiles

theorem newFolder (stored : Stored placed fullPath made disk tracks) {uuid folder : String}
    (unusedTracks : ∀ asset ∈ tracks, asset.track.uuid ≠ uuid)
    (unusedFiles : ∀ entry track, disk.file entry = some (.mxf (.ok track)) → track.uuid ≠ uuid)
    (absent : disk.directoryExists folder = false) {after : FileSystem File}
    (folderMade : disk.mkdir folder .other = some after) (nowPlaced : Prop) :
    Stored nowPlaced folder [uuid] after tracks := by
  obtain ⟨canonical, vacant, place, free, file⟩ := FileSystem.mkdir_eq_some absent folderMade
  refine
    { unusedTracks := fun other member => List.mem_singleton.mp member ▸ unusedTracks
      unusedFiles := ?_
      files := ?_
      folder := ?_ }
  · intro other member entry track held
    cases List.mem_singleton.mp member
    rw [file] at held
    by_cases here : entry = place
    · rw [here, Function.update_self] at held
      cases held
    · rw [Function.update_of_ne here] at held
      exact unusedFiles entry track held
  · intro distinct asset inside
    have there := stored.files distinct asset inside
    have elsewhere : disk.entry asset.path ≠ place := by
      intro here
      rw [FileSystem.read, here, free] at there
      cases there
    rw [FileSystem.read, FileSystem.entry_congr canonical, file, Function.update_of_ne elsewhere]
    exact there
  · intro _ name content held
    rw [FileSystem.folderOf_congr canonical, vacant] at held
    cases held

theorem writesXml (stored : Stored placed fullPath made disk tracks) (isPlaced : placed)
    {after : FileSystem File}
    (writes : WritesXml (XmlName (disk.folderOf fullPath)) disk after) :
    Stored placed fullPath made after tracks := by
  have entries := writes.entry
  have folders := FileSystem.folderOf_congr writes.canonical
  refine
    { unusedTracks := stored.unusedTracks
      unusedFiles := ?_
      files := ?_
      folder := ?_ }
  · intro uuid member entry track held
    rcases writes.files entry with same | ⟨-, pt, written⟩
    · rw [same] at held
      exact stored.unusedFiles uuid member entry track held
    · rw [written] at held
      cases held
  · intro distinct asset inside
    have there := stored.files distinct asset inside
    have notXml : ¬ XmlName (disk.folderOf fullPath) (disk.entry asset.path) := by
      intro xmlName
      obtain ⟨inFolder, base, named⟩ := xmlName
      have place : disk.entry asset.path = (disk.folderOf fullPath, base ++ ".xml") :=
        Prod.ext inFolder named
      rw [FileSystem.read, place] at there
      rcases stored.folder isPlaced _ _ there with ⟨other, -, -, mxf⟩ | ⟨-, pt, xml⟩
      · rw [other.getFileName_eq] at mxf
        exact mxf_ne_xml _ _ mxf
      · cases xml
    rw [writes.read notXml]
    exact there
  · intro _ name content held
    rw [folders] at held ⊢
    rw [entries]
    rcases writes.files (disk.folderOf fullPath, name) with same | ⟨⟨-, xml⟩, pt, written⟩
    · rw [same] at held
      exact stored.folder isPlaced name content held
    · rw [written] at held
      exact Or.inr ⟨xml, pt, (Option.some.inj held).symm⟩

end Stored

section Names

def playlistName (uuid : String) : String := "CPL_" ++ uuid ++ ".xml"

def packageListName (uuid : String) : String := "PKL_" ++ uuid ++ ".xml"

theorem playlistName_inj {first second : String} (same : playlistName first = playlistName second) :
    first = second := by
  have text := congrArg String.toList same
  simp only [playlistName, String.toList_append, List.append_cancel_right_eq,
    List.append_cancel_left_eq] at text
  exact String.toList_injective text

theorem names_apart (first second : String) : playlistName first ≠ packageListName second ∧
    playlistName first ≠ "ASSETMAP.xml" ∧ packageListName second ≠ "ASSETMAP.xml" := by
  have start (text suffix : String) : (text ++ suffix).toList.head? =
      text.toList.head?.or suffix.toList.head? := by
    rw [String.toList_append, List.head?_append]
  have playlist : (playlistName first).toList.head? = some 'C' := by
    rw [playlistName, start, start]
    rfl
  have list : (packageListName second).toList.head? = some 'P' := by
    rw [packageListName, start, start]
    rfl
  have map : ("ASSETMAP.xml".toList).head? = some 'A' := rfl
  refine ⟨fun same => ?_, fun same => ?_, fun same => ?_⟩
  · rw [same, list] at playlist
    exact absurd playlist (by decide)
  · rw [same, map] at playlist
    exact absurd playlist (by decide)
  · rw [same, map] at list
    exact absurd list (by decide)

theorem entry_pathOf (disk : FileSystem File) (package : IMFPackage) {base : String}
    (plain : '/' ∉ base.toList) : disk.entry (package.pathOf (base ++ ".xml")) =
      (disk.folderOf package.getFullPath, base ++ ".xml") :=
  disk.entry_join _ (slash_not_mem_append plain (by decide)) (append_ne_empty base (by decide))

theorem stem_pathOf (package : IMFPackage) {base : String} (plain : '/' ∉ base.toList) :
    FilePath.stem (package.pathOf (base ++ ".xml")) = base := by
  have named : FilePath.filename (package.pathOf (base ++ ".xml")) = base ++ "." ++ "xml" := by
    rw [IMFPackage.pathOf, FilePath.filename_join _ (slash_not_mem_append plain (by decide))
      (append_ne_empty base (by decide)), xml_suffix]
  exact FilePath.stem_of_suffix named (by decide) (by decide)

theorem extension_xml {base : String} (plain : '/' ∉ base.toList) :
    FilePath.extension (base ++ ".xml") = ".xml" := by
  have named : FilePath.filename (base ++ ".xml") = base ++ "." ++ "xml" := by
    rw [FilePath.filename_of_plain (slash_not_mem_append plain (by decide))
      (append_ne_empty base (by decide)), xml_suffix]
  exact FilePath.extension_of_suffix named (by decide) (by decide)

theorem assetMap_file (disk : FileSystem File) (package : IMFPackage) :
    disk.entry (package.pathOf "ASSETMAP.xml") =
      (disk.folderOf package.getFullPath, "ASSETMAP.xml") :=
  @entry_pathOf disk package "ASSETMAP" (by decide)

end Names

def playlistUUIDs (package : IMFPackage) : List String :=
  package.compositionPlaylists.map IMFCompositionPlaylist.uuid

def madeUUIDs (package : IMFPackage) : List String :=
  if package.location = "" then [] else package.uuid :: playlistUUIDs package

theorem madeUUIDs_placed {package : IMFPackage} (placed : package.location ≠ "") :
    madeUUIDs package = package.uuid :: playlistUUIDs package := if_neg placed

theorem playlistUUID_made {package : IMFPackage} (placed : package.location ≠ "")
    {playlist : IMFCompositionPlaylist} (member : playlist ∈ package.compositionPlaylists) :
    playlist.uuid ∈ madeUUIDs package := by
  rw [madeUUIDs_placed placed]
  exact List.mem_cons_of_mem _ (List.mem_map_of_mem member)

theorem packageUUID_made {package : IMFPackage} (placed : package.location ≠ "") :
    package.uuid ∈ madeUUIDs package := by
  rw [madeUUIDs_placed placed]
  exact List.mem_cons_self

structure Managed (working : WorkingPackage) : Prop where
  named : working.package.location = "" ↔ working.package.name = ""
  /-- A package without folder is written nowhere. -/
  unplaced : working.package.location = "" →
    working.package.compositionPlaylists = [] ∧ working.package.packageList = none
  header : working.package.headerAssetMap = .standard
  outputProfiles : working.package.outputProfiles = []
  packageList : working.package.orNewPackageList =
    ⟨working.package.uuid, working.package.pathOf ("PKL_" ++ working.package.uuid ++ ".xml"),
      .standard⟩
  playlists : ∀ playlist ∈ working.package.compositionPlaylists,
    playlist.path = working.package.pathOf ("CPL_" ++ playlist.uuid ++ ".xml") ∧
      playlist.segments = []
  distinct : (madeUUIDs working.package).Nodup
  plain : ∀ uuid ∈ madeUUIDs working.package, '/' ∉ uuid.toList
  stored : Stored (working.package.location ≠ "") working.package.getFullPath
    (madeUUIDs working.package) working.disk working.package.tracks

structure FreshUUID (working : WorkingPackage) (uuid : String) : Prop where
  plain : '/' ∉ uuid.toList
  made : uuid ∉ madeUUIDs working.package
  tracks : ∀ asset ∈ working.package.tracks, asset.track.uuid ≠ uuid
  files : ∀ entry track, working.disk.file entry = some (.mxf (.ok track)) → track.uuid ≠ uuid

def PackageStep (fileSize : File → Nat) (working : WorkingPackage) (action : PackageAction)
    (next : WorkingPackage) : Prop :=
  (∀ uuid ∈ action.madeUUID, FreshUUID working uuid) ∧
    actOnPackage fileSize working action = some next

def PackageStarted (working : WorkingPackage) : Prop := working.package = .new

namespace Managed

variable {working : WorkingPackage}

theorem of_started (started : PackageStarted working) : Managed working := by
  obtain ⟨disk, package⟩ := working
  cases started
  exact
    { named := Iff.rfl
      unplaced := fun _ => ⟨rfl, rfl⟩
      header := rfl
      outputProfiles := rfl
      packageList := IMFPackage.orNewPackageList_of_none rfl
      playlists := fun _ member => absurd member List.not_mem_nil
      distinct := List.nodup_nil
      plain := fun _ member => absurd member List.not_mem_nil
      stored :=
        { unusedTracks := fun _ member => absurd member List.not_mem_nil
          unusedFiles := fun _ member => absurd member List.not_mem_nil
          files := fun _ _ member => absurd member List.not_mem_nil
          folder := fun placed => absurd rfl placed } }

theorem withTracks (managed : Managed working) {disk : FileSystem File}
    {videoTracks audioTracks : List TrackFile}
    (stored : Stored (working.package.location ≠ "") working.package.getFullPath
      (madeUUIDs working.package) disk (videoTracks ++ audioTracks)) :
    Managed ⟨disk, { working.package with
      videoTracks := videoTracks, audioTracks := audioTracks }⟩ :=
  { named := managed.named
    unplaced := managed.unplaced
    header := managed.header
    outputProfiles := managed.outputProfiles
    packageList := managed.packageList
    playlists := managed.playlists
    distinct := managed.distinct
    plain := managed.plain
    stored := stored }

theorem addTrackFile (managed : Managed working) (fileName : String) :
    Managed (addTrackFile working fileName) := by
  unfold View.addTrackFile
  split
  · exact managed
  · split
    · rename_i package parsed
      obtain ⟨track, found, rfl⟩ := IMFPackage.parseAndAddTrack_eq_ok parsed
      have perm := working.package.tracks_addTrack_perm ⟨track, fileName⟩
      obtain ⟨videoTracks, audioTracks, same⟩ := working.package.addTrack_eq ⟨track, fileName⟩
      rw [same] at perm ⊢
      have added : Stored _ _ _ working.disk (⟨track, fileName⟩ :: working.package.tracks) :=
        managed.stored.add found
      exact managed.withTracks (added.perm perm.symm)
    · exact managed

theorem madeUUIDs_addCompositionPlaylist {package : IMFPackage} (placed : package.location ≠ "")
    (playlist : IMFCompositionPlaylist) :
    madeUUIDs (package.addCompositionPlaylist playlist) = madeUUIDs package ++ [playlist.uuid] := by
  have still : (package.addCompositionPlaylist playlist).location ≠ "" := placed
  rw [madeUUIDs_placed still, madeUUIDs_placed placed, playlistUUIDs, playlistUUIDs,
    IMFPackage.addCompositionPlaylist, List.map_append, List.map_singleton, List.cons_append]

theorem newCompositionPlaylist (managed : Managed working) {frame uuid : String}
    (fresh : FreshUUID working uuid) {next : WorkingPackage}
    (made : newCompositionPlaylist working frame uuid = some next) : Managed next := by
  unfold View.newCompositionPlaylist at made
  split at made
  · cases made
    exact managed
  split at made
  · cases made
    exact managed
  split at made
  · cases made
  split at made
  · cases made
    exact managed
  rename_i placed _ _ er _ _
  cases Option.some.inj made
  have isPlaced : working.package.location ≠ "" :=
    fun empty => placed ⟨empty, managed.named.mp empty⟩
  have uuids := madeUUIDs_addCompositionPlaylist isPlaced { IMFCompositionPlaylist.new uuid
    (working.package.pathOf ("CPL_" ++ uuid ++ ".xml")) with editRate := er }
  refine
    { named := managed.named
      unplaced := fun empty => absurd empty isPlaced
      header := managed.header
      outputProfiles := managed.outputProfiles
      packageList := managed.packageList
      playlists := ?_
      distinct := ?_
      plain := ?_
      stored := ?_ }
  · intro playlist member
    rcases List.mem_append.mp member with old | new
    · exact managed.playlists playlist old
    · cases List.mem_singleton.mp new
      exact ⟨rfl, rfl⟩
  · rw [uuids]
    refine List.nodup_append.mpr ⟨managed.distinct, List.nodup_singleton _, ?_⟩
    intro old member new isNew clash
    have reused : old = uuid := clash.trans (List.mem_singleton.mp isNew)
    exact fresh.made (reused ▸ member)
  · intro other member
    rw [uuids] at member
    rcases List.mem_append.mp member with old | new
    · exact managed.plain other old
    · cases List.mem_singleton.mp new
      exact fresh.plain
  · rw [uuids]
    exact managed.stored.addUUID fresh.tracks fresh.files

theorem prepareSave (managed : Managed working) {directory name uuid : String}
    (fresh : FreshUUID working uuid) {prepared : WorkingPackage}
    (made : prepareSave working directory name uuid = some prepared) :
    Managed prepared ∧ prepared.package.location ≠ "" ∧
      prepared.package.tracks = working.package.tracks := by
  unfold View.prepareSave at made
  split at made
  · rename_i unplaced
    have isUnplaced : working.package.location = "" := unplaced.elim id managed.named.mpr
    split at made
    · cases made
    rename_i chosen
    rw [not_or] at chosen
    dsimp only at made
    split at made
    · cases made
    rename_i present
    obtain ⟨disk, folderMade, rfl⟩ := Option.map_eq_some_iff.mp made
    have absent := Bool.eq_false_iff.mpr present
    obtain ⟨playlists, packageList⟩ := managed.unplaced isUnplaced
    have madeNow : madeUUIDs { working.package with
        location := directory, name := name, uuid := uuid } = [uuid] := by
      rw [madeUUIDs, if_neg chosen.1]
      simp only [playlistUUIDs, playlists, List.map_nil]
    refine ⟨?_, chosen.1, rfl⟩
    exact
      { named := iff_of_false chosen.1 chosen.2
        unplaced := fun empty => absurd empty chosen.1
        header := managed.header
        outputProfiles := managed.outputProfiles
        packageList := IMFPackage.orNewPackageList_of_none packageList
        playlists := fun playlist member => absurd (playlists ▸ member) List.not_mem_nil
        distinct := madeNow ▸ List.nodup_singleton uuid
        plain := fun other member => List.mem_singleton.mp (madeNow ▸ member) ▸ fresh.plain
        stored := madeNow ▸ managed.stored.newFolder fresh.tracks fresh.files absent folderMade _ }
  · rename_i placed
    cases made
    exact ⟨managed, fun empty => placed (Or.inl empty), rfl⟩

theorem copyTrackFiles (managed : Managed working) (refused : Refusals) :
    Managed (working.copyTrackFiles refused).state := by
  refine Outcome.andThen_keeps Managed ?_ fun state kept => ?_
  · refine managed.withTracks ?_
    exact Outcome.traverse_keeps
      (fun disk videoTracks => Stored (working.package.location ≠ "") working.package.getFullPath
        (madeUUIDs working.package) disk (videoTracks ++ working.package.audioTracks))
      (fun disk before asset after stored => by
        rw [List.append_assoc] at stored ⊢
        exact stored.copyTrack refused .filesystemError) [] managed.stored
  · have audioFirst (disk : FileSystem File) (audioTracks : List TrackFile) :
        Stored (state.package.location ≠ "") state.package.getFullPath (madeUUIDs state.package)
          disk (audioTracks ++ state.package.videoTracks) ↔
        Stored (state.package.location ≠ "") state.package.getFullPath (madeUUIDs state.package)
          disk (state.package.videoTracks ++ audioTracks) :=
      ⟨fun stored => stored.perm List.perm_append_comm, fun stored => stored.perm List.perm_append_comm⟩
    refine kept.withTracks ((audioFirst _ _).mp ?_)
    exact Outcome.traverse_keeps
      (fun disk audioTracks => Stored (state.package.location ≠ "") state.package.getFullPath
        (madeUUIDs state.package) disk (audioTracks ++ state.package.videoTracks))
      (fun disk before asset after stored => by
        rw [List.append_assoc] at stored ⊢
        exact stored.copyTrack refused .packageException) [] ((audioFirst _ _).mpr kept.stored)

theorem withList (managed : Managed working) (placed : working.package.location ≠ "")
    {after : WorkingPackage} (listed : WorkingPackage.HasList working.package after.package)
    (stored : Stored (working.package.location ≠ "") working.package.getFullPath
      (madeUUIDs working.package) after.disk working.package.tracks) : Managed after := by
  obtain ⟨disk, package⟩ := after
  rcases listed with rfl | rfl
  · exact managed.withTracks stored
  · exact
      { named := managed.named
        unplaced := fun empty => absurd empty placed
        header := managed.header
        outputProfiles := managed.outputProfiles
        packageList := managed.packageList
        playlists := managed.playlists
        distinct := managed.distinct
        plain := managed.plain
        stored := stored }

section Placed

variable (managed : Managed working) (placed : working.package.location ≠ "")

include managed placed

theorem plain_playlist {playlist : IMFCompositionPlaylist}
    (member : playlist ∈ working.package.compositionPlaylists) :
    '/' ∉ ("CPL_" ++ playlist.uuid).toList :=
  slash_not_mem_append (by decide) (managed.plain _ (playlistUUID_made placed member))

theorem plain_packageList : '/' ∉ ("PKL_" ++ working.package.uuid).toList :=
  slash_not_mem_append (by decide) (managed.plain _ (packageUUID_made placed))

theorem playlist_file {playlist : IMFCompositionPlaylist}
    (member : playlist ∈ working.package.compositionPlaylists) :
    working.disk.entry playlist.path =
        (working.disk.folderOf working.package.getFullPath, playlistName playlist.uuid) ∧
      playlist.item.getFileName = playlistName playlist.uuid := by
  have plain := managed.plain_playlist placed member
  have path := (managed.playlists playlist member).1
  constructor
  · rw [path]
    exact entry_pathOf working.disk working.package plain
  · have stem : FilePath.stem playlist.path = "CPL_" ++ playlist.uuid := by
      rw [path, stem_pathOf working.package plain]
    exact congrArg (· ++ ".xml") stem

theorem packageList_file :
    working.disk.entry working.package.orNewPackageList.path =
        (working.disk.folderOf working.package.getFullPath, packageListName working.package.uuid) ∧
      working.package.orNewPackageList.item.getFileName = packageListName working.package.uuid := by
  have plain := managed.plain_packageList placed
  rw [managed.packageList]
  exact ⟨entry_pathOf working.disk working.package plain,
    congrArg (· ++ ".xml") (stem_pathOf working.package plain)⟩

/-- Wherever `Write` ends, it has changed XML files of the package only. -/
theorem write_writing (fileSize : File → Nat) (refused : Refusals) :
    Writing (XmlName (working.disk.folderOf working.package.getFullPath)) working
      (working.write fileSize refused).state := by
  refine working.write_writing ?_ ?_ ?_
  · intro playlist member
    rw [(managed.playlist_file placed member).1]
    exact ⟨rfl, "CPL_" ++ playlist.uuid, rfl⟩
  · rw [(managed.packageList_file placed).1]
    exact ⟨rfl, "PKL_" ++ working.package.uuid, rfl⟩
  · rw [assetMap_file]
    exact ⟨rfl, "ASSETMAP", rfl⟩

end Placed

theorem write (managed : Managed working) (placed : working.package.location ≠ "")
    (fileSize : File → Nat) (refused : Refusals) :
    Managed (working.write fileSize refused).state := by
  have writing := managed.write_writing placed fileSize refused
  exact managed.withList placed writing.package (managed.stored.writesXml placed writing.files)

theorem save (managed : Managed working) (placed : working.package.location ≠ "")
    (fileSize : File → Nat) (refused : Refusals) :
    Managed (working.save fileSize refused).state := by
  have copied := managed.copyTrackFiles refused
  have stillPlaced : (working.copyTrackFiles refused).state.package.location ≠ "" := by
    rwa [working.copyTrackFiles_location]
  unfold WorkingPackage.save Outcome.andThen
  split
  · exact copied.write stillPlaced fileSize refused
  · exact copied

theorem saveFile {fileSize : File → Nat} (managed : Managed working)
    {directory name uuid : String} {refused : Refusals} (fresh : FreshUUID working uuid)
    {next : WorkingPackage}
    (saved : saveFile working fileSize directory name uuid refused = some next) : Managed next := by
  unfold View.saveFile at saved
  split at saved
  · cases saved
    exact managed
  · rename_i prepared prepares
    obtain ⟨ready, placed, -⟩ := managed.prepareSave fresh prepares
    have kept := ready.save placed fileSize refused
    generalize prepared.save fileSize refused = outcome at saved kept
    split at saved
    · cases saved
      exact kept
    · cases saved
      exact kept
    · cases saved

theorem step {fileSize : File → Nat} (managed : Managed working) {action : PackageAction}
    {next : WorkingPackage} (taken : PackageStep fileSize working action next) : Managed next := by
  obtain ⟨fresh, acted⟩ := taken
  cases action with
  | addTrackFile fileName =>
      cases Option.some.inj acted
      exact managed.addTrackFile fileName
  | newCompositionPlaylist frame uuid =>
      exact managed.newCompositionPlaylist (fresh uuid rfl) acted
  | saveFile directory name uuid refused =>
      exact managed.saveFile (fresh uuid rfl) acted

theorem of_reachable {fileSize : File → Nat} {start : WorkingPackage} (started : PackageStarted start)
    (reached : Transition.Reachable (PackageStep fileSize) start working) : Managed working :=
  reached.invariant Managed (of_started started) fun _ _ _ managed taken => managed.step taken

end Managed

end Imflib.View
