import Imflib.Package.IMFPackage

/-! What `CopyTrackFiles` does to the files and to the tracks. -/

namespace Imflib.Package

theorem mxf_suffix (base : String) : base ++ ".mxf" = base ++ "." ++ "mxf" := by
  rw [String.append_assoc]
  rfl

theorem xml_suffix (base : String) : base ++ ".xml" = base ++ "." ++ "xml" := by
  rw [String.append_assoc]
  rfl

theorem append_ne_empty (base : String) {suffix : String} (nonempty : suffix ≠ "") :
    base ++ suffix ≠ "" := by
  intro empty
  have parts := congrArg String.toList empty
  rw [String.toList_append] at parts
  exact nonempty (String.toList_eq_nil_iff.mp (List.append_eq_nil_iff.mp parts).2)

theorem slash_not_mem_append {base suffix : String} (inBase : '/' ∉ base.toList)
    (inSuffix : '/' ∉ suffix.toList) : '/' ∉ (base ++ suffix).toList := by
  rw [String.toList_append]
  exact fun member => (List.mem_append.mp member).elim inBase inSuffix

theorem mxf_ne_xml (first second : String) : first ++ ".mxf" ≠ second ++ ".xml" := by
  intro same
  have last := congrArg (fun text : String => text.toList.getLast?) same
  have mxf : ".mxf".toList.getLast? = some 'f' := rfl
  have xml : ".xml".toList.getLast? = some 'l' := rfl
  simp only [String.toList_append, List.getLast?_append, mxf, xml, Option.some_or] at last
  exact absurd last (by decide)

namespace TrackFile

variable (asset : TrackFile)

theorem getFileName_eq : asset.getFileName = FilePath.stem asset.path ++ ".mxf" := by
  unfold getFileName IMFPackageItem.getFileName item
  cases asset.track.type <;> rfl

theorem slash_not_mem_getFileName : '/' ∉ asset.getFileName.toList := by
  rw [getFileName_eq]
  exact slash_not_mem_append (FilePath.slash_not_mem_stem asset.path) (by decide)

theorem getFileName_ne_empty : asset.getFileName ≠ "" := by
  rw [getFileName_eq]
  exact append_ne_empty _ (by decide)

theorem filename_target (fullPath : String) :
    FilePath.filename (fullPath ++ "/" ++ asset.getFileName) = asset.getFileName :=
  FilePath.filename_join fullPath asset.slash_not_mem_getFileName asset.getFileName_ne_empty

theorem entry_target (disk : FileSystem File) (fullPath : String) :
    disk.entry (fullPath ++ "/" ++ asset.getFileName) =
      (disk.folderOf fullPath, asset.getFileName) :=
  disk.entry_join fullPath asset.slash_not_mem_getFileName asset.getFileName_ne_empty

variable {asset}

theorem getFileName_congr {other : TrackFile}
    (same : FilePath.filename other.path = FilePath.filename asset.path) :
    other.getFileName = asset.getFileName := by
  rw [getFileName_eq, getFileName_eq, FilePath.stem_congr same]

theorem getFileName_of_target {other : TrackFile}
    (named : FilePath.filename other.path = asset.getFileName) :
    other.getFileName = asset.getFileName := by
  rw [getFileName_eq, mxf_suffix] at named
  rw [getFileName_eq, getFileName_eq,
    FilePath.stem_of_suffix named (by decide) (by decide)]

theorem getFileName_of_entry {disk : FileSystem File} {other : TrackFile} {fullPath : String}
    (same : disk.entry other.path = disk.entry (fullPath ++ "/" ++ asset.getFileName)) :
    other.getFileName = asset.getFileName :=
  getFileName_of_target ((FileSystem.filename_of_entry same).trans (asset.filename_target fullPath))

theorem getFileName_moved (asset : TrackFile) (fullPath : String) :
    TrackFile.getFileName { asset with path := fullPath ++ "/" ++ asset.getFileName } =
      asset.getFileName :=
  getFileName_of_target (asset.filename_target fullPath)

/-- What `CopyTrackFiles` does not change in a track. -/
def listing (asset : TrackFile) : IMFTrack × String := (asset.track, asset.getFileName)

end TrackFile

section Step

variable (fullPath : String) (refused : Refusals) (failure : String → Exn)

theorem listing_copyTrack (disk : FileSystem File) (asset : TrackFile) :
    (copyTrack fullPath refused failure disk asset).state.2.listing = asset.listing := by
  rcases copyTrack_cases fullPath refused failure disk asset with ⟨same, -⟩ | ⟨-, after, -, same⟩
  · rw [same]
  · rw [same]
    exact Prod.ext rfl (asset.getFileName_moved fullPath)

theorem canonical_copyTrack (disk : FileSystem File) (asset : TrackFile) :
    (copyTrack fullPath refused failure disk asset).state.1.canonical = disk.canonical := by
  rcases copyTrack_cases fullPath refused failure disk asset with ⟨same, -⟩ | ⟨-, after, moved, same⟩
  · rw [same]
  · rw [same]
    exact (FileSystem.rename_eq_some moved).1

end Step

structure Settled (canonical : String → String) (fullPath : String) (asset : TrackFile)
    (disk : FileSystem File) : Prop where
  canonical : disk.canonical = canonical
  target : disk.read (fullPath ++ "/" ++ asset.getFileName) = some (.mxf (.ok asset.track))

/-- The file of a track is at its target, or the target is free and the file is at its path. -/
structure Ready (canonical : String → String) (fullPath : String) (asset : TrackFile)
    (disk : FileSystem File) : Prop where
  canonical : disk.canonical = canonical
  somewhere : disk.read (fullPath ++ "/" ++ asset.getFileName) = some (.mxf (.ok asset.track)) ∨
    disk.read (fullPath ++ "/" ++ asset.getFileName) = none ∧
      disk.read asset.path = some (.mxf (.ok asset.track))

section Settle

variable {fullPath : String} {refused : Refusals} {failure : String → Exn}
  {canonical : String → String} {asset : TrackFile} {disk : FileSystem File}

theorem Settled.copyTrack_self (ready : Ready canonical fullPath asset disk)
    (succeeded : (copyTrack fullPath refused failure disk asset).error = none) :
    Settled canonical fullPath asset (copyTrack fullPath refused failure disk asset).state.1 := by
  refine ⟨(canonical_copyTrack fullPath refused failure disk asset).trans ready.canonical, ?_⟩
  rcases copyTrack_cases fullPath refused failure disk asset with ⟨same, stayed⟩ | ⟨free, after, moved, same⟩
  · rw [same]
    rcases ready.somewhere with there | ⟨free, -⟩
    · exact there
    · have occupied := stayed succeeded
      rw [FileSystem.fileExists, free] at occupied
      cases occupied
  · rcases ready.somewhere with there | ⟨-, atPath⟩
    · rw [free] at there
      cases there
    · rw [same, FileSystem.read_rename_target moved]
      exact atPath

/-- What is at the target of a track stays there: it would be its own target. -/
theorem read_target_copyTrack {content : File}
    (there : disk.read (fullPath ++ "/" ++ asset.getFileName) = some content)
    (refused : Refusals) (failure : String → Exn) (other : TrackFile) :
    (copyTrack fullPath refused failure disk other).state.1.read
      (fullPath ++ "/" ++ asset.getFileName) = some content := by
  rcases copyTrack_cases fullPath refused failure disk other with ⟨same, -⟩ | ⟨free, after, moved, same⟩
  · rw [same]
    exact there
  · have notTarget : disk.entry (fullPath ++ "/" ++ asset.getFileName) ≠
        disk.entry (fullPath ++ "/" ++ other.getFileName) := by
      intro clash
      rw [FileSystem.read, clash] at there
      rw [FileSystem.read, there] at free
      cases free
    have notSource : disk.entry (fullPath ++ "/" ++ asset.getFileName) ≠ disk.entry other.path := by
      intro clash
      exact notTarget (by rw [TrackFile.getFileName_of_entry clash.symm])
    rw [same, FileSystem.read_rename_of_ne moved notSource notTarget]
    exact there

theorem Settled.copyTrack (settled : Settled canonical fullPath asset disk)
    (refused : Refusals) (failure : String → Exn) (other : TrackFile) :
    Settled canonical fullPath asset (copyTrack fullPath refused failure disk other).state.1 :=
  ⟨(canonical_copyTrack fullPath refused failure disk other).trans settled.canonical,
    read_target_copyTrack settled.target refused failure other⟩

theorem Ready.copyTrack (ready : Ready canonical fullPath asset disk)
    (refused : Refusals) (failure : String → Exn) {other : TrackFile}
    (alone : other.getFileName = asset.getFileName → disk.entry other.path = disk.entry asset.path) :
    Ready canonical fullPath asset (copyTrack fullPath refused failure disk other).state.1 := by
  rcases ready.somewhere with there | ⟨targetFree, atPath⟩
  · have settled := Settled.copyTrack ⟨ready.canonical, there⟩ refused failure other
    exact ⟨settled.canonical, Or.inl settled.target⟩
  refine ⟨(canonical_copyTrack fullPath refused failure disk other).trans ready.canonical, ?_⟩
  rcases copyTrack_cases fullPath refused failure disk other with ⟨same, -⟩ | ⟨free, after, moved, same⟩
  · rw [same]
    exact Or.inr ⟨targetFree, atPath⟩
  · rw [same]
    by_cases sameName : other.getFileName = asset.getFileName
    · -- The other track is this file under another path: it is moved where this one belongs.
      refine Or.inl ?_
      rw [← sameName, FileSystem.read_rename_target moved, FileSystem.read, alone sameName]
      exact atPath
    · have notTarget : disk.entry (fullPath ++ "/" ++ asset.getFileName) ≠
          disk.entry (fullPath ++ "/" ++ other.getFileName) := by
        rw [asset.entry_target, other.entry_target]
        exact fun clash => sameName (congrArg Prod.snd clash).symm
      have notSource : disk.entry (fullPath ++ "/" ++ asset.getFileName) ≠ disk.entry other.path :=
        fun clash => sameName (TrackFile.getFileName_of_entry clash.symm)
      have pathNotTarget : disk.entry asset.path ≠
          disk.entry (fullPath ++ "/" ++ other.getFileName) :=
        fun clash => sameName (TrackFile.getFileName_of_entry clash).symm
      have pathNotSource : disk.entry asset.path ≠ disk.entry other.path :=
        fun clash => sameName (TrackFile.getFileName_congr (FileSystem.filename_of_entry clash)).symm
      rw [FileSystem.read_rename_of_ne moved notSource notTarget,
        FileSystem.read_rename_of_ne moved pathNotSource pathNotTarget]
      exact Or.inr ⟨targetFree, atPath⟩

end Settle

def NamedByPath (tracks : List TrackFile) : Prop :=
  ∀ asset ∈ tracks, FilePath.filename asset.path = asset.getFileName

section Arrive

variable {fullPath : String} {refused : Refusals} {failure : String → Exn} {disk : FileSystem File}
  {tracks : List TrackFile}

/-- A track leaves alone what has another bare name. -/
theorem file_copyTrack {other : TrackFile}
    (named : FilePath.filename other.path = other.getFileName) {entry : String × String}
    (apart : entry.2 ≠ other.getFileName) :
    (copyTrack fullPath refused failure disk other).state.1.file entry = disk.file entry := by
  rcases copyTrack_cases fullPath refused failure disk other with ⟨same, -⟩ | ⟨-, after, moved, same⟩
  · rw [same]
  · obtain ⟨-, content, -, file⟩ := FileSystem.rename_eq_some moved
    have notTarget : entry ≠ disk.entry (fullPath ++ "/" ++ other.getFileName) := by
      intro clash
      rw [clash, other.entry_target] at apart
      exact apart rfl
    have notSource : entry ≠ disk.entry other.path := by
      intro clash
      rw [clash, ← named] at apart
      exact apart rfl
    rw [same]
    dsimp only
    rw [file, Function.update_of_ne notTarget, Function.update_of_ne notSource]

theorem file_copyTracks (named : NamedByPath tracks) {entry : String × String}
    (apart : ∀ other ∈ tracks, entry.2 ≠ other.getFileName) :
    (Outcome.traverse (copyTrack fullPath refused failure) tracks disk).state.1.file entry =
      disk.file entry :=
  Outcome.traverse_keeps_state (fun after : FileSystem File => after.file entry = disk.file entry)
    (fun other member _ same => (file_copyTrack (named other member) (apart other member)).trans same)
    rfl

theorem canonical_copyTracks (fullPath : String) (refused : Refusals) (failure : String → Exn)
    (disk : FileSystem File) (tracks : List TrackFile) :
    (Outcome.traverse (copyTrack fullPath refused failure) tracks disk).state.1.canonical =
      disk.canonical :=
  Outcome.traverse_keeps_state (fun after : FileSystem File => after.canonical = disk.canonical)
    (fun other _ disk same => (canonical_copyTrack fullPath refused failure disk other).trans same)
    rfl

theorem entry_copyTracks (fullPath : String) (refused : Refusals) (failure : String → Exn)
    (disk : FileSystem File) (tracks : List TrackFile) :
    (Outcome.traverse (copyTrack fullPath refused failure) tracks disk).state.1.entry = disk.entry :=
  FileSystem.entry_congr (canonical_copyTracks fullPath refused failure disk tracks)

def firstNamed (tracks : List TrackFile) (name : String) : Option TrackFile :=
  tracks.find? fun other => other.getFileName = name

theorem firstNamed_eq_some {name : String} {first : TrackFile}
    (found : firstNamed tracks name = some first) : first ∈ tracks ∧ first.getFileName = name := by
  refine ⟨List.mem_of_find?_eq_some found, ?_⟩
  have same := List.find?_some found
  exact of_decide_eq_true same

theorem firstNamed_eq_none {name : String} (found : firstNamed tracks name = none) :
    ∀ other ∈ tracks, name ≠ other.getFileName := fun other member same =>
  List.find?_eq_none.mp found other member (decide_eq_true same.symm)

/-- When its turn is over, there is a file under the name of a track. -/
theorem read_copyTrack_target {head : TrackFile}
    (succeeded : (copyTrack fullPath refused failure disk head).error = none) :
    ∃ content, (disk.read (fullPath ++ "/" ++ head.getFileName)).or (disk.read head.path) =
        some content ∧
      (copyTrack fullPath refused failure disk head).state.1.read
        (fullPath ++ "/" ++ head.getFileName) = some content := by
  cases occupied : disk.read (fullPath ++ "/" ++ head.getFileName) with
  | some content =>
      exact ⟨content, Option.some_or, read_target_copyTrack occupied refused failure head⟩
  | none =>
      rw [Option.none_or]
      rcases copyTrack_cases fullPath refused failure disk head with
        ⟨-, stayed⟩ | ⟨-, after, moved, result⟩
      · have there := stayed succeeded
        rw [FileSystem.fileExists, occupied] at there
        cases there
      · obtain ⟨-, content, found, -⟩ := FileSystem.rename_eq_some moved
        refine ⟨content, found, ?_⟩
        rw [result, FileSystem.read_rename_target moved, found]

/-- What is at a target stays there. -/
theorem read_target_copyTracks {asset : TrackFile} {content : File}
    (there : disk.read (fullPath ++ "/" ++ asset.getFileName) = some content) :
    (Outcome.traverse (copyTrack fullPath refused failure) tracks disk).state.1.read
      (fullPath ++ "/" ++ asset.getFileName) = some content :=
  Outcome.traverse_keeps_state (fun disk : FileSystem File =>
    disk.read (fullPath ++ "/" ++ asset.getFileName) = some content)
    (fun other _ _ there => read_target_copyTrack there refused failure other) there

theorem read_copyTracks (named : NamedByPath tracks) (asset : TrackFile)
    (succeeded : (Outcome.traverse (copyTrack fullPath refused failure) tracks disk).error = none) :
    (Outcome.traverse (copyTrack fullPath refused failure) tracks disk).state.1.read
        (fullPath ++ "/" ++ asset.getFileName) =
      (disk.read (fullPath ++ "/" ++ asset.getFileName)).or
        ((firstNamed tracks asset.getFileName).bind fun first => disk.read first.path) := by
  induction tracks generalizing disk with
  | nil => exact Option.or_none.symm
  | cons head rest ih =>
      obtain ⟨first, later⟩ := Outcome.traverse_succeeded.mp succeeded
      have entry := FileSystem.entry_congr (canonical_copyTrack fullPath refused failure disk head)
      rw [Outcome.traverse_cons_of_succeeded rest first]
      dsimp only [Outcome.map]
      by_cases same : head.getFileName = asset.getFileName
      · have here : firstNamed (head :: rest) asset.getFileName = some head :=
          List.find?_cons_of_pos (decide_eq_true same)
        rw [here, Option.bind_some, ← same]
        obtain ⟨content, before, arrived⟩ := read_copyTrack_target first
        rw [before]
        exact read_target_copyTracks arrived
      · have own := named head List.mem_cons_self
        have target : (copyTrack fullPath refused failure disk head).state.1.read
            (fullPath ++ "/" ++ asset.getFileName) =
              disk.read (fullPath ++ "/" ++ asset.getFileName) := by
          rw [FileSystem.read, FileSystem.read, entry]
          apply file_copyTrack own
          rw [asset.entry_target]
          exact Ne.symm same
        have behind : firstNamed (head :: rest) asset.getFileName = firstNamed rest asset.getFileName :=
          List.find?_cons_of_neg (by simpa using same)
        rw [ih (fun other member => named other (List.mem_cons_of_mem head member)) later, target,
          behind]
        congr 1
        refine Option.bind_congr fun other found => ?_
        obtain ⟨member, otherName⟩ := firstNamed_eq_some found
        rw [FileSystem.read, FileSystem.read, entry]
        apply file_copyTrack own
        rw [FileSystem.entry, named other (List.mem_cons_of_mem head member), otherName]
        exact Ne.symm same

end Arrive

namespace WorkingPackage

theorem copyTrackFiles_package (working : WorkingPackage) (refused : Refusals) :
    ∃ videoTracks audioTracks, (working.copyTrackFiles refused).state.package =
        { working.package with videoTracks := videoTracks, audioTracks := audioTracks } ∧
      videoTracks.map TrackFile.listing = working.package.videoTracks.map TrackFile.listing ∧
      audioTracks.map TrackFile.listing = working.package.audioTracks.map TrackFile.listing := by
  refine Outcome.andThen_keeps (fun state : WorkingPackage => ∃ videoTracks audioTracks, state.package =
      { working.package with videoTracks := videoTracks, audioTracks := audioTracks } ∧
    videoTracks.map TrackFile.listing = working.package.videoTracks.map TrackFile.listing ∧
    audioTracks.map TrackFile.listing = working.package.audioTracks.map TrackFile.listing) ?_ ?_
  · exact ⟨_, _, rfl, Outcome.traverse_map TrackFile.listing
      (listing_copyTrack _ refused .filesystemError) _ _, rfl⟩
  · intro state copied
    obtain ⟨videoTracks, audioTracks, same, videos, audios⟩ := copied
    refine ⟨videoTracks, (Outcome.traverse (copyTrack state.package.getFullPath refused
      .packageException) state.package.audioTracks state.disk).state.2, ?_, videos, ?_⟩
    · simp only [copyAudioTracks, Outcome.map, same]
    · rw [Outcome.traverse_map TrackFile.listing (listing_copyTrack _ refused .packageException),
        same]
      exact audios

section Package

variable (working : WorkingPackage) (refused : Refusals)

theorem copyTrackFiles_location :
    (working.copyTrackFiles refused).state.package.location = working.package.location := by
  obtain ⟨videoTracks, audioTracks, same, -⟩ := working.copyTrackFiles_package refused
  rw [same]

theorem copyTrackFiles_getFullPath :
    (working.copyTrackFiles refused).state.package.getFullPath = working.package.getFullPath := by
  obtain ⟨videoTracks, audioTracks, same, -⟩ := working.copyTrackFiles_package refused
  rw [same]
  rfl

theorem copyTrackFiles_pathOf :
    (working.copyTrackFiles refused).state.package.pathOf = working.package.pathOf := by
  funext name
  rw [IMFPackage.pathOf, IMFPackage.pathOf, copyTrackFiles_getFullPath]

theorem copyTrackFiles_compositionPlaylists :
    (working.copyTrackFiles refused).state.package.compositionPlaylists =
      working.package.compositionPlaylists := by
  obtain ⟨videoTracks, audioTracks, same, -⟩ := working.copyTrackFiles_package refused
  rw [same]

theorem copyTrackFiles_packageList :
    (working.copyTrackFiles refused).state.package.packageList = working.package.packageList := by
  obtain ⟨videoTracks, audioTracks, same, -⟩ := working.copyTrackFiles_package refused
  rw [same]

theorem copyTrackFiles_outputProfiles :
    (working.copyTrackFiles refused).state.package.outputProfiles =
      working.package.outputProfiles := by
  obtain ⟨videoTracks, audioTracks, same, -⟩ := working.copyTrackFiles_package refused
  rw [same]

end Package

theorem listing_copyTrackFiles (working : WorkingPackage) (refused : Refusals) :
    (working.copyTrackFiles refused).state.package.tracks.map TrackFile.listing =
      working.package.tracks.map TrackFile.listing := by
  obtain ⟨videoTracks, audioTracks, same, videos, audios⟩ := working.copyTrackFiles_package refused
  rw [same, IMFPackage.tracks, IMFPackage.tracks, List.map_append, List.map_append, videos, audios]

theorem canonical_copyTrackFiles (working : WorkingPackage) (refused : Refusals) :
    (working.copyTrackFiles refused).state.disk.canonical = working.disk.canonical := by
  refine Outcome.andThen_keeps
    (fun state : WorkingPackage => state.disk.canonical = working.disk.canonical)
    ?_ fun state same => ?_
  · exact canonical_copyTracks working.package.getFullPath refused _ working.disk _
  · exact (canonical_copyTracks state.package.getFullPath refused _ state.disk _).trans same

theorem entry_copyTrackFiles (working : WorkingPackage) (refused : Refusals) :
    (working.copyTrackFiles refused).state.disk.entry = working.disk.entry :=
  FileSystem.entry_congr (working.canonical_copyTrackFiles refused)

/-- If the bare name of a track belongs to its file only, the track is at its target in the end. -/
theorem copyTrackFiles_settles {working : WorkingPackage} {refused : Refusals} {asset : TrackFile}
    (member : asset ∈ working.package.tracks)
    (ready : Ready working.disk.canonical working.package.getFullPath asset working.disk)
    (alone : ∀ other ∈ working.package.tracks, other.getFileName = asset.getFileName →
      working.disk.entry other.path = working.disk.entry asset.path)
    (succeeded : (working.copyTrackFiles refused).error = none) :
    Settled working.disk.canonical working.package.getFullPath asset
      (working.copyTrackFiles refused).state.disk := by
  have waiting (failure : String → Exn) (other : TrackFile)
      (otherMember : other ∈ working.package.tracks) (disk : FileSystem File)
      (waits : Ready working.disk.canonical working.package.getFullPath asset disk) :
      Ready working.disk.canonical working.package.getFullPath asset
        (copyTrack working.package.getFullPath refused failure disk other).state.1 := by
    refine waits.copyTrack refused failure fun same => ?_
    rw [FileSystem.entry_congr waits.canonical]
    exact alone other otherMember same
  have isVideo {other : TrackFile} (inside : other ∈ working.package.videoTracks) :
      other ∈ working.package.tracks := List.mem_append_left _ inside
  have isAudio {other : TrackFile} (inside : other ∈ working.package.audioTracks) :
      other ∈ working.package.tracks := List.mem_append_right _ inside
  obtain ⟨videosCopied, audiosCopied⟩ := Outcome.andThen_succeeded.mp succeeded
  rw [copyTrackFiles, Outcome.andThen_of_succeeded _ videosCopied]
  rcases List.mem_append.mp member with video | audio
  · have settled := Outcome.traverse_achieves
      (Ready working.disk.canonical working.package.getFullPath asset)
      (Settled working.disk.canonical working.package.getFullPath asset) video
      (fun disk waits copied => Settled.copyTrack_self waits copied)
      (fun other inside disk waits => waiting _ other (isVideo inside) disk waits)
      (fun other _ disk settled => settled.copyTrack refused _ other) ready videosCopied
    exact Outcome.traverse_keeps_state
      (Settled working.disk.canonical working.package.getFullPath asset)
      (fun other _ disk settled => settled.copyTrack refused _ other) settled
  · have still : Ready working.disk.canonical working.package.getFullPath asset
        (working.copyVideoTracks refused).state.disk :=
      Outcome.traverse_keeps_state
        (Ready working.disk.canonical working.package.getFullPath asset)
        (fun other inside disk waits => waiting _ other (isVideo inside) disk waits) ready
    exact Outcome.traverse_achieves
      (Ready working.disk.canonical working.package.getFullPath asset)
      (Settled working.disk.canonical working.package.getFullPath asset) audio
      (fun disk waits copied => Settled.copyTrack_self waits copied)
      (fun other inside disk waits => waiting _ other (isAudio inside) disk waits)
      (fun other _ disk settled => settled.copyTrack refused _ other) still audiosCopied

section Arrive

variable {working : WorkingPackage} {refused : Refusals} (named : NamedByPath working.package.tracks)

include named

theorem file_copyTrackFiles {entry : String × String}
    (succeeded : (working.copyTrackFiles refused).error = none)
    (apart : ∀ other ∈ working.package.tracks, entry.2 ≠ other.getFileName) :
    (working.copyTrackFiles refused).state.disk.file entry = working.disk.file entry := by
  obtain ⟨videosCopied, -⟩ := Outcome.andThen_succeeded.mp succeeded
  rw [copyTrackFiles, Outcome.andThen_of_succeeded _ videosCopied]
  have videos := @file_copyTracks working.package.getFullPath refused .filesystemError working.disk
    _ (fun other member => named other (List.mem_append_left _ member)) entry
    fun other member => apart other (List.mem_append_left _ member)
  exact (file_copyTracks (fun other member => named other (List.mem_append_right _ member))
    fun other member => apart other (List.mem_append_right _ member)).trans videos

theorem read_copyTrackFiles (asset : TrackFile)
    (succeeded : (working.copyTrackFiles refused).error = none)
    (present : ∀ other ∈ working.package.tracks, working.disk.fileExists other.path = true) :
    (working.copyTrackFiles refused).state.disk.read (working.package.pathOf asset.getFileName) =
      (working.disk.read (working.package.pathOf asset.getFileName)).or
        ((firstNamed working.package.tracks asset.getFileName).bind fun first =>
          working.disk.read first.path) := by
  obtain ⟨videosCopied, audiosCopied⟩ := Outcome.andThen_succeeded.mp succeeded
  rw [copyTrackFiles, Outcome.andThen_of_succeeded _ videosCopied]
  have namedVideos : NamedByPath working.package.videoTracks :=
    fun other member => named other (List.mem_append_left _ member)
  have namedAudios : NamedByPath working.package.audioTracks :=
    fun other member => named other (List.mem_append_right _ member)
  have videos := read_copyTracks namedVideos asset videosCopied
  have audios := read_copyTracks namedAudios asset audiosCopied
  refine audios.trans ?_
  have inOrder : firstNamed working.package.tracks asset.getFileName =
      (firstNamed working.package.videoTracks asset.getFileName).or
        (firstNamed working.package.audioTracks asset.getFileName) := List.find?_append
  have arrived : (working.copyVideoTracks refused).state.disk.read
      (working.package.pathOf asset.getFileName) = _ := videos
  rw [inOrder]
  refine (congrArg (Option.or · _) arrived).trans ?_
  rw [Option.or_assoc, IMFPackage.pathOf]
  congr 1
  cases found : firstNamed working.package.videoTracks asset.getFileName with
  | some first =>
      have there := present first (List.mem_append_left _ (firstNamed_eq_some found).1)
      obtain ⟨content, held⟩ := Option.isSome_iff_exists.mp there
      rw [Option.bind_some, held, Option.some_or, Option.some_or, Option.bind_some, held]
  | none =>
      -- No video track has the name, so nothing has happened to the audio tracks that have it.
      rw [Option.bind_none, Option.none_or, Option.none_or]
      refine Option.bind_congr fun other later => ?_
      obtain ⟨member, otherName⟩ := firstNamed_eq_some later
      have entry : (working.copyVideoTracks refused).state.disk.entry = working.disk.entry :=
        entry_copyTracks working.package.getFullPath refused .filesystemError working.disk
          working.package.videoTracks
      rw [FileSystem.read, FileSystem.read, entry]
      apply file_copyTracks namedVideos
      intro video inside
      rw [FileSystem.entry, namedAudios other member, otherName]
      exact firstNamed_eq_none found video inside

end Arrive

end WorkingPackage

end Imflib.Package
