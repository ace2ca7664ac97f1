import Imflib.Base.FileSystem
import Imflib.Base.Outcome
import Imflib.Package.Playlist

/-! A package and its track files, and how they are moved into the folder of the package. -/

namespace Imflib.Package

/-- What a file holds, as far as a package reads it. -/
inductive File where
  /-- The track that the MXF reader finds, or the text of its exception. -/
  | mxf (reading : Except String IMFTrack)
  | xml (pt : PTree)
  /-- Any other file, or a folder. -/
  | other

inductive ItemType where
  | video
  | audio
  | cpl
  | opl
  | pkl
  deriving DecidableEq, Repr

structure IMFPackageItem where
  uuid : String
  path : String
  type : ItemType
  deriving DecidableEq, Repr

namespace IMFPackageItem

variable (item : IMFPackageItem)

def getFileName : String :=
  FilePath.stem item.path ++ if item.type = .video ∨ item.type = .audio then ".mxf" else ".xml"

def applicationType : String :=
  match item.type with
  | .video | .audio => "application/mxf"
  | .cpl | .opl | .pkl => "text/xml"

end IMFPackageItem

structure TrackFile where
  track : IMFTrack
  path : String
  deriving DecidableEq, Repr

namespace TrackFile

variable (asset : TrackFile)

def item : IMFPackageItem :=
  { uuid := asset.track.uuid
    path := asset.path
    type := match asset.track.type with
      | .video => .video
      | .audio => .audio }

def getFileName : String := asset.item.getFileName

end TrackFile

def IMFCompositionPlaylist.item (playlist : IMFCompositionPlaylist) : IMFPackageItem :=
  ⟨playlist.uuid, playlist.path, .cpl⟩

structure IMFOutputProfile where
  uuid : String
  path : String
  deriving DecidableEq, Repr

def IMFOutputProfile.item (profile : IMFOutputProfile) : IMFPackageItem :=
  ⟨profile.uuid, profile.path, .opl⟩

structure IMFPackageList where
  uuid : String
  path : String
  header : XMLHeaderPackageList
  deriving DecidableEq, Repr

def IMFPackageList.item (list : IMFPackageList) : IMFPackageItem :=
  ⟨list.uuid, list.path, .pkl⟩

structure IMFPackage where
  name : String
  location : String
  uuid : String
  videoTracks : List TrackFile
  audioTracks : List TrackFile
  compositionPlaylists : List IMFCompositionPlaylist
  outputProfiles : List IMFOutputProfile
  packageList : Option IMFPackageList
  headerAssetMap : XMLHeaderAssetMap

namespace IMFPackage

def new : IMFPackage :=
  { name := ""
    location := ""
    uuid := ""
    videoTracks := []
    audioTracks := []
    compositionPlaylists := []
    outputProfiles := []
    packageList := none
    headerAssetMap := .standard }

variable (package : IMFPackage)

def getFullPath : String := package.location ++ "/" ++ package.name

def pathOf (name : String) : String := package.getFullPath ++ "/" ++ name

def tracks : List TrackFile := package.videoTracks ++ package.audioTracks

def addTrack (asset : TrackFile) : IMFPackage :=
  match asset.track.type with
  | .video => { package with videoTracks := package.videoTracks ++ [asset] }
  | .audio => { package with audioTracks := package.audioTracks ++ [asset] }

def addCompositionPlaylist (playlist : IMFCompositionPlaylist) : IMFPackage :=
  { package with compositionPlaylists := package.compositionPlaylists ++ [playlist] }

def hasVideoTrackFile (file : String) : Bool := package.videoTracks.any fun asset => asset.path = file

def hasAudioTrackFile (file : String) : Bool := package.audioTracks.any fun asset => asset.path = file

def hasTrackFile (file : String) : Bool :=
  package.hasVideoTrackFile file || package.hasAudioTrackFile file

def parseAndAddTrack (disk : FileSystem File) (fullPath : String) : Except Exn IMFPackage :=
  match disk.read fullPath with
  | some (.mxf (.ok track)) => .ok (package.addTrack ⟨track, fullPath⟩)
  | some (.mxf (.error what)) => .error (.packageException what)
  | _ => .error (.packageException "invalid essence type")

theorem parseAndAddTrack_eq_ok {package : IMFPackage} {disk : FileSystem File} {fullPath : String}
    {result : IMFPackage} (parsed : package.parseAndAddTrack disk fullPath = .ok result) :
    ∃ track, disk.read fullPath = some (.mxf (.ok track)) ∧
      result = package.addTrack ⟨track, fullPath⟩ := by
  unfold parseAndAddTrack at parsed
  split at parsed
  · exact ⟨_, ‹_›, (Except.ok.inj parsed).symm⟩
  · cases parsed
  · cases parsed

theorem addTrack_eq (asset : TrackFile) : ∃ videoTracks audioTracks, package.addTrack asset =
    { package with videoTracks := videoTracks, audioTracks := audioTracks } := by
  unfold addTrack
  cases asset.track.type with
  | video => exact ⟨_, _, rfl⟩
  | audio => exact ⟨_, _, rfl⟩

theorem tracks_addTrack_perm (asset : TrackFile) :
    (package.addTrack asset).tracks.Perm (asset :: package.tracks) := by
  unfold addTrack tracks
  cases asset.track.type with
  | video =>
      rw [List.append_assoc]
      exact List.perm_middle
  | audio =>
      rw [← List.append_assoc]
      exact List.perm_append_singleton _ _

end IMFPackage

structure WorkingPackage where
  disk : FileSystem File
  package : IMFPackage

/-- The calls that the system refuses, whatever the files are. -/
structure Refusals where
  /-- `exists` of a path. -/
  status : String → Bool
  rename : String → String → Bool
  /-- `file_size` of a path, for the packing list and for the asset map. -/
  packedSize : String → Bool
  mappedSize : String → Bool
  /-- `write_xml` to a path. -/
  write : String → Bool

def Refusals.none : Refusals :=
  { status := fun _ => false
    rename := fun _ _ => false
    packedSize := fun _ => false
    mappedSize := fun _ => false
    write := fun _ => false }

def renameFile (refused : Refusals) (disk : FileSystem File) (source target : String) :
    Option (FileSystem File) :=
  if refused.rename source target then none else disk.rename source target

/-- The loop body of `CopyTrackFiles`. A track whose target exists is left alone. -/
def copyTrack (fullPath : String) (refused : Refusals) (failure : String → Exn)
    (disk : FileSystem File) (asset : TrackFile) : Outcome (FileSystem File × TrackFile) Exn :=
  let target := fullPath ++ "/" ++ asset.getFileName
  -- `exists` stands outside of any `try`.
  if refused.status target then .fail (disk, asset) (.filesystemError "boost::filesystem::status")
  else if disk.fileExists target then .done (disk, asset)
  else match renameFile refused disk asset.path target with
    | none => .fail (disk, asset) (failure "boost::filesystem::rename")
    | some disk => .done (disk, { asset with path := target })

namespace WorkingPackage

variable (working : WorkingPackage) (refused : Refusals)

def copyVideoTracks : Outcome WorkingPackage Exn :=
  (Outcome.traverse (copyTrack working.package.getFullPath refused .filesystemError)
    working.package.videoTracks working.disk).map fun copied =>
      { disk := copied.1, package := { working.package with videoTracks := copied.2 } }

def copyAudioTracks : Outcome WorkingPackage Exn :=
  (Outcome.traverse (copyTrack working.package.getFullPath refused .packageException)
    working.package.audioTracks working.disk).map fun copied =>
      { disk := copied.1, package := { working.package with audioTracks := copied.2 } }

def copyTrackFiles : Outcome WorkingPackage Exn :=
  (working.copyVideoTracks refused).andThen fun working => working.copyAudioTracks refused

end WorkingPackage

theorem copyTrack_cases (fullPath : String) (refused : Refusals) (failure : String → Exn)
    (disk : FileSystem File) (asset : TrackFile) :
    (copyTrack fullPath refused failure disk asset).state = (disk, asset) ∧
        ((copyTrack fullPath refused failure disk asset).error = none →
          disk.fileExists (fullPath ++ "/" ++ asset.getFileName)) ∨
      disk.read (fullPath ++ "/" ++ asset.getFileName) = none ∧
        ∃ after, disk.rename asset.path (fullPath ++ "/" ++ asset.getFileName) = some after ∧
          (copyTrack fullPath refused failure disk asset).state =
            (after, { asset with path := fullPath ++ "/" ++ asset.getFileName }) := by
  unfold copyTrack
  by_cases hidden : refused.status (fullPath ++ "/" ++ asset.getFileName) = true
  · exact Or.inl (by simp [hidden, Outcome.fail])
  by_cases occupied : disk.fileExists (fullPath ++ "/" ++ asset.getFileName) = true
  · exact Or.inl (by simp [hidden, occupied, Outcome.done])
  · have free : disk.read (fullPath ++ "/" ++ asset.getFileName) = none := by
      rwa [FileSystem.fileExists, Option.not_isSome_iff_eq_none] at occupied
    cases moved : renameFile refused disk asset.path (fullPath ++ "/" ++ asset.getFileName) with
    | none => exact Or.inl (by simp [hidden, occupied, moved, Outcome.fail])
    | some after =>
        refine Or.inr ⟨free, after, ?_, by simp [hidden, occupied, moved, Outcome.done]⟩
        unfold renameFile at moved
        split at moved
        · cases moved
        · exact moved

end Imflib.Package
