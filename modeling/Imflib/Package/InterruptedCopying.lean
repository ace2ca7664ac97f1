import Imflib.Package.TrackCopying

/-! Moving the track files when some of the moves fail: no file is lost, every track keeps its file,
and a second run completes the first one. -/

namespace Imflib.Package

section Step

variable {fullPath : String} {refused : Refusals} {failure : String → Exn}

theorem copyTrack_relaxes (fullPath : String) (refused : Refusals) (failure : String → Exn) :
    Outcome.Relaxes (copyTrack fullPath .none failure)
      (copyTrack fullPath refused failure) := by
  intro disk asset succeeded
  unfold copyTrack at succeeded ⊢
  by_cases hidden : refused.status (fullPath ++ "/" ++ asset.getFileName) = true
  · simp [hidden, Outcome.fail] at succeeded
  by_cases occupied : disk.fileExists (fullPath ++ "/" ++ asset.getFileName) = true
  · simp [hidden, occupied, Refusals.none]
  · simp only [hidden, occupied] at succeeded ⊢
    unfold renameFile at succeeded ⊢
    by_cases refuses : refused.rename asset.path (fullPath ++ "/" ++ asset.getFileName) = true
    · simp [refuses, Outcome.fail] at succeeded
    · simp [refuses, Refusals.none]

theorem copyTrack_unchanged (disk : FileSystem File) (asset : TrackFile)
    (failed : (copyTrack fullPath refused failure disk asset).error ≠ none) :
    (copyTrack fullPath refused failure disk asset).state = (disk, asset) := by
  unfold copyTrack at failed ⊢
  by_cases hidden : refused.status (fullPath ++ "/" ++ asset.getFileName) = true
  · simp [hidden, Outcome.fail]
  by_cases occupied : disk.fileExists (fullPath ++ "/" ++ asset.getFileName) = true
  · simp [hidden, occupied, Outcome.done] at failed
  · cases moved : renameFile refused disk asset.path (fullPath ++ "/" ++ asset.getFileName) with
    | none => simp [hidden, occupied, moved, Outcome.fail]
    | some after => simp [hidden, occupied, moved, Outcome.done] at failed

theorem copyTrack_settles (fullPath : String) (refused : Refusals) (failure : String → Exn) :
    Outcome.Settles (copyTrack fullPath refused failure) fun disk asset =>
      disk.fileExists (fullPath ++ "/" ++ asset.getFileName) = true := by
  constructor
  · intro disk asset succeeded
    rcases copyTrack_cases fullPath refused failure disk asset with
      ⟨same, stayed⟩ | ⟨free, after, moved, same⟩
    · rw [same]
      exact stayed succeeded
    · obtain ⟨-, content, found, -⟩ := FileSystem.rename_eq_some moved
      rw [same, asset.getFileName_moved, FileSystem.fileExists,
        FileSystem.read_rename_target moved, found, Option.isSome_some]
  · intro disk other asset occupied
    obtain ⟨content, there⟩ := Option.isSome_iff_exists.mp occupied
    rw [FileSystem.fileExists, read_target_copyTrack there, Option.isSome_some]
  · intro disk asset occupied succeeded
    unfold copyTrack at succeeded ⊢
    by_cases hidden : refused.status (fullPath ++ "/" ++ asset.getFileName) = true
    · simp [hidden, Outcome.fail] at succeeded
    · simp [hidden, occupied]

end Step

section Retry

namespace WorkingPackage

theorem copyTrackFiles_relaxes {working : WorkingPackage} {refused : Refusals}
    (succeeded : (working.copyTrackFiles refused).error = none) :
    working.copyTrackFiles .none = working.copyTrackFiles refused := by
  obtain ⟨videos, audios⟩ := Outcome.andThen_succeeded.mp succeeded
  have sameVideos : working.copyVideoTracks .none = working.copyVideoTracks refused := by
    unfold copyVideoTracks
    rw [Outcome.traverse_relaxes (copyTrack_relaxes _ refused _) videos]
  rw [copyTrackFiles, copyTrackFiles, sameVideos, Outcome.andThen_of_succeeded _ videos,
    Outcome.andThen_of_succeeded _ videos]
  unfold copyAudioTracks at audios ⊢
  rw [Outcome.traverse_relaxes (copyTrack_relaxes _ refused _) audios]

theorem copyVideoTracks_retry {working : WorkingPackage} {refused later : Refusals}
    (succeeded : ((working.copyVideoTracks refused).state.copyVideoTracks later).error = none) :
    working.copyVideoTracks .none =
      (working.copyVideoTracks refused).state.copyVideoTracks later := by
  have again := Outcome.traverse_retry (copyTrack_relaxes working.package.getFullPath refused _)
    (copyTrack_relaxes working.package.getFullPath later _)
    (copyTrack_settles working.package.getFullPath refused _)
    (copyTrack_settles working.package.getFullPath later _) copyTrack_unchanged succeeded
  rw [copyVideoTracks, again]
  rfl

theorem copyAudioTracks_retry {working : WorkingPackage} {refused later : Refusals}
    (succeeded : ((working.copyAudioTracks refused).state.copyAudioTracks later).error = none) :
    working.copyAudioTracks .none =
      (working.copyAudioTracks refused).state.copyAudioTracks later := by
  have again := Outcome.traverse_retry (copyTrack_relaxes working.package.getFullPath refused _)
    (copyTrack_relaxes working.package.getFullPath later _)
    (copyTrack_settles working.package.getFullPath refused _)
    (copyTrack_settles working.package.getFullPath later _) copyTrack_unchanged succeeded
  rw [copyAudioTracks, again]
  rfl

theorem copyVideoTracks_idle {working : WorkingPackage} {refused later : Refusals}
    (moved : (working.copyVideoTracks refused).error = none)
    (succeeded : (((working.copyVideoTracks refused).state.copyAudioTracks
      refused).state.copyVideoTracks later).error = none) :
    ((working.copyVideoTracks refused).state.copyAudioTracks refused).state.copyVideoTracks later =
      .done ((working.copyVideoTracks refused).state.copyAudioTracks refused).state := by
  have settled := (copyTrack_settles working.package.getFullPath refused _).traverse_settled moved
  have stays : ∀ asset ∈ (working.copyVideoTracks refused).state.package.videoTracks,
      ((working.copyVideoTracks refused).state.copyAudioTracks refused).state.disk.fileExists
        (working.package.getFullPath ++ "/" ++ asset.getFileName) = true := by
    intro asset member
    exact Outcome.traverse_keeps_state
      (fun disk : FileSystem File => disk.fileExists
        (working.package.getFullPath ++ "/" ++ asset.getFileName) = true)
      (fun other _ disk there =>
        (copyTrack_settles working.package.getFullPath refused _).others disk other asset there)
      (settled asset member)
  have idle := (copyTrack_settles working.package.getFullPath later
    .filesystemError).traverse_idle stays succeeded
  rw [copyVideoTracks]
  exact congrArg (Outcome.map _) idle

/-- A second run completes the first one, wherever that was interrupted. -/
theorem copyTrackFiles_retry {working : WorkingPackage} {refused later : Refusals}
    (succeeded : ((working.copyTrackFiles refused).state.copyTrackFiles later).error = none) :
    working.copyTrackFiles .none =
      (working.copyTrackFiles refused).state.copyTrackFiles later := by
  cases videos : (working.copyVideoTracks refused).error with
  | some error =>
      have interrupted : (working.copyTrackFiles refused).state =
          (working.copyVideoTracks refused).state := by
        rw [copyTrackFiles, Outcome.andThen, videos]
      rw [interrupted] at succeeded ⊢
      obtain ⟨videosMoved, audiosMoved⟩ := Outcome.andThen_succeeded.mp succeeded
      rw [copyTrackFiles, copyTrackFiles, copyVideoTracks_retry videosMoved,
        Outcome.andThen_of_succeeded _ videosMoved, Outcome.andThen_of_succeeded _ videosMoved]
      unfold copyAudioTracks at audiosMoved ⊢
      rw [Outcome.traverse_relaxes (copyTrack_relaxes _ later _) audiosMoved]
  | none =>
      have interrupted : (working.copyTrackFiles refused).state =
          ((working.copyVideoTracks refused).state.copyAudioTracks refused).state := by
        rw [copyTrackFiles, Outcome.andThen_of_succeeded _ videos]
      have sameVideos : working.copyVideoTracks .none = working.copyVideoTracks refused := by
        unfold copyVideoTracks
        rw [Outcome.traverse_relaxes (copyTrack_relaxes _ refused _) videos]
      rw [interrupted] at succeeded ⊢
      have idle := copyVideoTracks_idle videos (Outcome.andThen_succeeded.mp succeeded).1
      rw [copyTrackFiles, idle, Outcome.andThen_of_succeeded _ rfl] at succeeded
      rw [copyTrackFiles, copyTrackFiles, idle, sameVideos, Outcome.andThen_of_succeeded _ videos,
        Outcome.andThen_of_succeeded _ rfl]
      exact copyAudioTracks_retry succeeded

end WorkingPackage

end Retry

/-- Every file is in a place of its own, every track goes with its file, and other files stay. -/
structure Relocated (before after : FileSystem File) (tracks moved : List TrackFile)
    (place : Equiv.Perm (String × String)) : Prop where
  canonical : after.canonical = before.canonical
  files : ∀ entry, after.file (place entry) = before.file entry
  followed : moved.map (fun asset => (asset.track, after.entry asset.path)) =
    tracks.map fun asset => (asset.track, place (before.entry asset.path))
  others : ∀ entry, (before.file entry).isSome = true →
    entry ∉ tracks.map (fun asset => before.entry asset.path) → place entry = entry

namespace Relocated

variable {before disk : FileSystem File} {tracks moved : List TrackFile}
  {place : Equiv.Perm (String × String)}

theorem start (disk : FileSystem File) (tracks : List TrackFile) :
    Relocated disk disk tracks tracks (Equiv.refl _) :=
  ⟨rfl, fun _ => rfl, rfl, fun _ _ _ => rfl⟩

theorem entries (relocated : Relocated before disk tracks moved place) :
    moved.map (fun asset => disk.entry asset.path) =
      (tracks.map fun asset => before.entry asset.path).map place := by
  have second := congrArg (List.map Prod.snd) relocated.followed
  rw [List.map_map, List.map_map] at second
  rw [List.map_map]
  exact second

theorem reads (relocated : Relocated before disk tracks moved place) :
    moved.map (fun asset => (asset.track, disk.read asset.path)) =
      tracks.map fun asset => (asset.track, before.read asset.path) := by
  have looked := congrArg (List.map fun pair => (pair.1, disk.file pair.2)) relocated.followed
  rw [List.map_map, List.map_map] at looked
  refine looked.trans (List.map_congr_left fun asset _ => ?_)
  exact Prod.ext rfl (relocated.files _)

theorem occupied (relocated : Relocated before disk tracks moved place)
    (there : ∀ asset ∈ tracks, before.fileExists asset.path = true) :
    ∀ asset ∈ moved, disk.fileExists asset.path = true := by
  intro asset member
  have listed := List.mem_map_of_mem (f := fun asset => (asset.track, disk.read asset.path)) member
  rw [relocated.reads] at listed
  obtain ⟨original, inside, same⟩ := List.mem_map.mp listed
  have content : before.read original.path = disk.read asset.path := congrArg Prod.snd same
  rw [FileSystem.fileExists, ← content]
  exact there original inside

theorem follow {front back : List TrackFile} {asset : TrackFile} {target : String}
    {exchange : Equiv.Perm (String × String)}
    (relocated : Relocated before disk tracks (front ++ asset :: back) place)
    (own : exchange (disk.entry asset.path) = disk.entry target)
    (stays : ∀ other ∈ front ++ back, exchange (disk.entry other.path) = disk.entry other.path) :
    (front ++ { asset with path := target } :: back).map
        (fun asset => (asset.track, disk.entry asset.path)) =
      tracks.map fun asset => (asset.track, exchange (place (before.entry asset.path))) := by
  have exchanged := congrArg (List.map fun pair : IMFTrack × String × String =>
    (pair.1, exchange pair.2)) relocated.followed
  simp only [List.map_map, List.map_append, List.map_cons, Function.comp_def, own] at exchanged
  rw [← exchanged, List.map_append, List.map_cons]
  have same (others : List TrackFile) (within : ∀ other ∈ others, other ∈ front ++ back) :
      others.map (fun asset => (asset.track, disk.entry asset.path)) =
        others.map fun asset => (asset.track, exchange (disk.entry asset.path)) := by
    apply List.map_congr_left
    intro other member
    rw [stays other (within other member)]
  rw [same front fun _ => List.mem_append_left back, same back fun _ => List.mem_append_right front]

theorem entry_ne {front back : List TrackFile} {asset other : TrackFile}
    (relocated : Relocated before disk tracks (front ++ asset :: back) place)
    (distinct : (tracks.map fun asset => before.entry asset.path).Nodup)
    (member : other ∈ front ++ back) : disk.entry other.path ≠ disk.entry asset.path := by
  have entries : ((front ++ asset :: back).map fun asset => disk.entry asset.path).Nodup := by
    rw [relocated.entries]
    exact distinct.map place.injective
  have middle : (front ++ asset :: back).Perm (asset :: (front ++ back)) := List.perm_middle
  have same := middle.map fun asset => disk.entry asset.path
  have first := List.nodup_cons.mp (same.nodup_iff.mp entries)
  intro clash
  exact first.1 (List.mem_map.mpr ⟨other, member, clash⟩)

/-- A file that is no track's does not become one's. -/
theorem other_ne (relocated : Relocated before disk tracks moved place) {asset : TrackFile}
    (member : asset ∈ moved) {other : String × String} (filled : (before.file other).isSome = true)
    (notTrack : other ∉ tracks.map fun asset => before.entry asset.path) :
    other ≠ disk.entry asset.path := by
  intro clash
  have listed : disk.entry asset.path ∈
      (tracks.map fun asset => before.entry asset.path).map place := by
    rw [← relocated.entries]
    exact List.mem_map_of_mem member
  obtain ⟨original, inside, same⟩ := List.mem_map.mp listed
  rw [← clash, ← relocated.others other filled notTrack] at same
  exact notTrack (place.injective same ▸ inside)

theorem copyTrack {front back : List TrackFile} {asset : TrackFile}
    (relocated : Relocated before disk tracks (front ++ asset :: back) place)
    (distinct : (tracks.map fun asset => before.entry asset.path).Nodup)
    (there : ∀ asset ∈ tracks, before.fileExists asset.path = true) (fullPath : String)
    (refused : Refusals) (failure : String → Exn) :
    ∃ place, Relocated before (copyTrack fullPath refused failure disk asset).state.1 tracks
      (front ++ (copyTrack fullPath refused failure disk asset).state.2 :: back) place := by
  rcases copyTrack_cases fullPath refused failure disk asset with
    ⟨same, -⟩ | ⟨free, after, moves, same⟩
  · rw [same]
    exact ⟨place, relocated⟩
  rw [same]
  have canonical := (FileSystem.rename_eq_some moves).1
  have entry := FileSystem.entry_congr canonical
  have notTarget (other : String × String) (filled : (disk.file other).isSome = true) :
      other ≠ disk.entry (fullPath ++ "/" ++ asset.getFileName) := by
    rintro rfl
    rw [← FileSystem.read, free] at filled
    cases filled
  have swapped := FileSystem.rename_swap moves free
  -- the files of the other tracks are not touched
  have stays (other : TrackFile) (member : other ∈ front ++ back) :
      Equiv.swap (disk.entry asset.path) (disk.entry (fullPath ++ "/" ++ asset.getFileName))
        (disk.entry other.path) = disk.entry other.path := by
    have inAll : other ∈ front ++ asset :: back :=
      List.perm_middle.mem_iff.mpr (List.mem_cons_of_mem asset member)
    exact Equiv.swap_apply_of_ne_of_ne (relocated.entry_ne distinct member)
      (notTarget _ (relocated.occupied there other inAll))
  have own := Equiv.swap_apply_left (disk.entry asset.path)
    (disk.entry (fullPath ++ "/" ++ asset.getFileName))
  have apart (other : String × String) := Equiv.swap_apply_of_ne_of_ne (x := other)
    (a := disk.entry asset.path) (b := disk.entry (fullPath ++ "/" ++ asset.getFileName))
  generalize Equiv.swap (disk.entry asset.path)
    (disk.entry (fullPath ++ "/" ++ asset.getFileName)) = exchange at swapped stays own apart
  refine ⟨place.trans exchange, canonical.trans relocated.canonical, ?_, ?_, ?_⟩
  · intro other
    rw [Equiv.trans_apply, swapped]
    exact relocated.files other
  · rw [entry]
    exact relocated.follow own stays
  · intro other filled notTrack
    have place_other := relocated.others other filled notTrack
    rw [Equiv.trans_apply, place_other]
    apply apart
    · exact relocated.other_ne (List.mem_append_right front List.mem_cons_self) filled notTrack
    · apply notTarget
      rw [← place_other, relocated.files]
      exact filled

end Relocated

section Run

variable {working : WorkingPackage}

/-- The tracks lie in files of their own. -/
structure OwnFiles (working : WorkingPackage) : Prop where
  distinct : (working.package.tracks.map fun asset => working.disk.entry asset.path).Nodup
  there : ∀ asset ∈ working.package.tracks, working.disk.fileExists asset.path = true

theorem OwnFiles.copyTrackFiles (own : OwnFiles working) (refused : Refusals) :
    ∃ place, Relocated working.disk (working.copyTrackFiles refused).state.disk
      working.package.tracks (working.copyTrackFiles refused).state.package.tracks place := by
  refine Outcome.andThen_keeps (fun state : WorkingPackage => ∃ place,
    Relocated working.disk state.disk working.package.tracks state.package.tracks place) ?_ ?_
  · -- the audio tracks stand behind the video tracks that are moved
    refine Outcome.traverse_keeps (fun disk videos => ∃ place, Relocated working.disk disk
      working.package.tracks (videos ++ working.package.audioTracks) place) ?_ []
      ⟨_, Relocated.start working.disk working.package.tracks⟩
    intro disk front asset back holds
    obtain ⟨place, relocated⟩ := holds
    rw [List.append_assoc, List.cons_append] at relocated ⊢
    exact relocated.copyTrack own.distinct own.there _ refused _
  · intro state holds
    refine Outcome.traverse_keeps (fun disk tracks => ∃ place, Relocated working.disk disk
      working.package.tracks tracks place) ?_ state.package.videoTracks holds
    intro disk front asset back holds
    obtain ⟨place, relocated⟩ := holds
    exact relocated.copyTrack own.distinct own.there _ refused _

/-- Wherever moving the tracks is interrupted, every track keeps its file and no file is lost, and a
later run that succeeds ends as a single run does. -/
theorem copyTrackFiles_interruptible (own : OwnFiles working) (refused : Refusals) :
    (∃ place, Relocated working.disk (working.copyTrackFiles refused).state.disk
      working.package.tracks (working.copyTrackFiles refused).state.package.tracks place) ∧
    (working.copyTrackFiles refused).state.package.tracks.map
        (fun asset => (asset.track, (working.copyTrackFiles refused).state.disk.read asset.path)) =
      working.package.tracks.map (fun asset => (asset.track, working.disk.read asset.path)) ∧
    ∀ later, ((working.copyTrackFiles refused).state.copyTrackFiles later).error = none →
      working.copyTrackFiles .none =
          (working.copyTrackFiles refused).state.copyTrackFiles later ∧
        ∀ single, (working.copyTrackFiles single).error = none →
          working.copyTrackFiles single =
            (working.copyTrackFiles refused).state.copyTrackFiles later := by
  obtain ⟨place, relocated⟩ := own.copyTrackFiles refused
  refine ⟨⟨place, relocated⟩, relocated.reads, fun later succeeded => ?_⟩
  have completed := WorkingPackage.copyTrackFiles_retry succeeded
  refine ⟨completed, fun single alone => ?_⟩
  rw [← WorkingPackage.copyTrackFiles_relaxes alone]
  exact completed

end Run

namespace Sample

/-- A video in `/x` and audio in `/y`, and an empty folder for the package. -/
def scattered : WorkingPackage where
  disk :=
    { canonical := id
      directory := fun folder => folder = "/x" ∨ folder = "/y" ∨ folder = "/p"
      file := fun entry =>
        if entry = ("/x", "a.mxf") then some (.mxf (.ok video))
        else if entry = ("/y", "b.mxf") then some (.mxf (.ok audio))
        else none
      inside := by
        intro entry filled
        by_cases first : entry = ("/x", "a.mxf")
        · simp [first]
        · by_cases second : entry = ("/y", "b.mxf")
          · simp [second]
          · rw [if_neg first, if_neg second] at filled
            cases filled }
  package :=
    { IMFPackage.new with
      name := "p"
      videoTracks := [⟨video, "/x/a.mxf"⟩]
      audioTracks := [⟨audio, "/y/b.mxf"⟩] }

def audioRefused : Refusals := { Refusals.none with rename := fun source _ => source = "/y/b.mxf" }

/-- The audio is refused, after the video has been moved. -/
theorem scattered_interrupted :
    (scattered.copyTrackFiles audioRefused).error ≠ none ∧
    (∃ place, Relocated scattered.disk
      (scattered.copyTrackFiles audioRefused).state.disk scattered.package.tracks
      (scattered.copyTrackFiles audioRefused).state.package.tracks place) ∧
    scattered.copyTrackFiles .none =
      (scattered.copyTrackFiles audioRefused).state.copyTrackFiles .none := by
  have own : OwnFiles scattered := ⟨by decide +kernel, by decide +kernel⟩
  have interrupted := copyTrackFiles_interruptible own audioRefused
  exact ⟨by decide +kernel, interrupted.1,
    (interrupted.2.2 .none (by decide +kernel)).1⟩

end Sample

end Imflib.Package
