import Imflib.View.EditEffects
import Imflib.View.Session

/-! What every action of a session keeps. For the files of a package it does not matter what is in
its playlists. -/

namespace Imflib.View

open Imflib.Package

def barePlaylist (playlist : IMFCompositionPlaylist) : IMFCompositionPlaylist :=
  { IMFCompositionPlaylist.new playlist.uuid playlist.path with
    editRate := playlist.editRate
    header := playlist.header }

def barePackage (package : IMFPackage) : IMFPackage :=
  { package with compositionPlaylists := package.compositionPlaylists.map barePlaylist }

def bare (working : WorkingPackage) : WorkingPackage :=
  { working with package := barePackage working.package }

section Bare

variable {working : WorkingPackage}

theorem playlistUUIDs_bare (package : IMFPackage) :
    playlistUUIDs (barePackage package) = playlistUUIDs package := by
  rw [playlistUUIDs, barePackage, List.map_map]
  rfl

theorem madeUUIDs_bare (package : IMFPackage) :
    madeUUIDs (barePackage package) = madeUUIDs package := by
  rw [madeUUIDs, madeUUIDs, playlistUUIDs_bare]
  rfl

theorem FreshUUID.bare {uuid : String} (fresh : FreshUUID working uuid) :
    FreshUUID (bare working) uuid := by
  refine ⟨fresh.plain, ?_, fresh.tracks, fresh.files⟩
  rw [View.bare, madeUUIDs_bare]
  exact fresh.made

theorem barePackage_addTrack (package : IMFPackage) (asset : TrackFile) :
    barePackage (package.addTrack asset) = (barePackage package).addTrack asset := by
  unfold IMFPackage.addTrack
  cases asset.track.type <;> rfl

theorem bare_addTrackFile (working : WorkingPackage) (fileName : String) :
    bare (addTrackFile working fileName) = addTrackFile (bare working) fileName := by
  have parsed : (bare working).package.parseAndAddTrack working.disk fileName =
      (working.package.parseAndAddTrack working.disk fileName).map barePackage := by
    unfold IMFPackage.parseAndAddTrack
    split
    · exact congrArg Except.ok (barePackage_addTrack _ _).symm
    · rfl
    · rfl
  have same : (bare working).package.hasTrackFile fileName = working.package.hasTrackFile fileName :=
    rfl
  unfold addTrackFile
  rw [same, show (bare working).disk = working.disk from rfl, parsed]
  split
  · rfl
  · cases working.package.parseAndAddTrack working.disk fileName <;> rfl

theorem bare_newCompositionPlaylist (working : WorkingPackage) (frame madeUUID : String) :
    newCompositionPlaylist (bare working) frame madeUUID =
      (newCompositionPlaylist working frame madeUUID).map bare := by
  have added (playlist : IMFCompositionPlaylist) (same : barePlaylist playlist = playlist) :
      barePackage (working.package.addCompositionPlaylist playlist) =
        (barePackage working.package).addCompositionPlaylist playlist := by
    simp only [barePackage, IMFPackage.addCompositionPlaylist, List.map_append, List.map_singleton,
      same]
  unfold newCompositionPlaylist
  by_cases unplaced : working.package.location = "" ∧ working.package.name = ""
  · have bareUnplaced : (bare working).package.location = "" ∧ (bare working).package.name = "" :=
      unplaced
    rw [if_pos unplaced, if_pos bareUnplaced]
    rfl
  · have barePlaced : ¬ ((bare working).package.location = "" ∧ (bare working).package.name = "") :=
      unplaced
    rw [if_neg unplaced, if_neg barePlaced]
    by_cases cancelled : frame = ""
    · rw [if_pos cancelled, if_pos cancelled]
      rfl
    · rw [if_neg cancelled, if_neg cancelled]
      cases RationalNumber.fromIMFString frame with
      | error error => rfl
      | ok er =>
          by_cases zero : er.denum = 0
          · simp only [zero, if_true]
            rfl
          · simp only [zero, if_false, Option.map_some, bare]
            rw [added _ rfl]
            rfl

theorem bare_prepareSave (working : WorkingPackage) (directory name madeUUID : String) :
    prepareSave (bare working) directory name madeUUID =
      (prepareSave working directory name madeUUID).map bare := by
  unfold prepareSave
  rw [show (bare working).package.location = working.package.location from rfl,
    show (bare working).package.name = working.package.name from rfl,
    show (bare working).disk = working.disk from rfl]
  split
  · split
    · rfl
    · dsimp only
      split
      · rfl
      · rw [Option.map_map]
        rfl
  · rfl

theorem bare_copyTrackFiles (working : WorkingPackage) (refused : Refusals) :
    (bare working).copyTrackFiles refused = (working.copyTrackFiles refused).map bare := by
  have video : (bare working).copyVideoTracks refused =
      (working.copyVideoTracks refused).map bare := rfl
  have audio (working : WorkingPackage) : (bare working).copyAudioTracks refused =
      (working.copyAudioTracks refused).map bare := rfl
  unfold WorkingPackage.copyTrackFiles
  rw [video, Outcome.andThen, Outcome.andThen]
  generalize working.copyVideoTracks refused = copied
  obtain ⟨state, error⟩ := copied
  cases error with
  | none => exact audio state
  | some error => rfl

end Bare

namespace Managed

variable {working : WorkingPackage}

theorem playlist_file_bare (managed : Managed (bare working)) (placed : working.package.location ≠ "")
    {playlist : IMFCompositionPlaylist} (member : playlist ∈ working.package.compositionPlaylists) :
    working.disk.entry playlist.path =
        (working.disk.folderOf working.package.getFullPath, playlistName playlist.uuid) ∧
      playlist.item.getFileName = playlistName playlist.uuid := by
  have inside : barePlaylist playlist ∈ (bare working).package.compositionPlaylists :=
    List.mem_map.mpr ⟨playlist, member, rfl⟩
  have file := managed.playlist_file placed inside
  exact file

theorem write_writing_bare (managed : Managed (bare working))
    (placed : working.package.location ≠ "") (fileSize : File → Nat) (refused : Refusals) :
    Writing (XmlName (working.disk.folderOf working.package.getFullPath)) working
      (working.write fileSize refused).state := by
  apply working.write_writing
  · intro playlist member
    rw [(managed.playlist_file_bare placed member).1]
    exact ⟨rfl, "CPL_" ++ playlist.uuid, rfl⟩
  · have list := (managed.packageList_file placed).1
    exact list ▸ ⟨rfl, "PKL_" ++ working.package.uuid, rfl⟩
  · rw [assetMap_file]
    exact ⟨rfl, "ASSETMAP", rfl⟩

theorem write_bare (managed : Managed (bare working)) (placed : working.package.location ≠ "")
    (fileSize : File → Nat) (refused : Refusals) :
    Managed (bare (working.write fileSize refused).state) := by
  have writing := managed.write_writing_bare placed fileSize refused
  have listed : WorkingPackage.HasList (bare working).package
      (bare (working.write fileSize refused).state).package := by
    rcases writing.package with same | same
    · exact .inl (congrArg barePackage same)
    · exact .inr (congrArg barePackage same)
  exact managed.withList placed listed (managed.stored.writesXml placed writing.files)

theorem save_bare (managed : Managed (bare working)) (placed : working.package.location ≠ "")
    (fileSize : File → Nat) (refused : Refusals) :
    Managed (bare (working.save fileSize refused).state) := by
  have copied := managed.copyTrackFiles refused
  rw [bare_copyTrackFiles] at copied
  have stillPlaced : (working.copyTrackFiles refused).state.package.location ≠ "" := by
    rwa [working.copyTrackFiles_location]
  unfold WorkingPackage.save Outcome.andThen
  split
  · exact write_bare copied stillPlaced fileSize refused
  · exact copied

theorem prepareSave_bare (managed : Managed (bare working)) {directory name uuid : String}
    (fresh : FreshUUID working uuid) {prepared : WorkingPackage}
    (made : View.prepareSave working directory name uuid = some prepared) :
    Managed (bare prepared) ∧ prepared.package.location ≠ "" ∧
      prepared.package.tracks = working.package.tracks := by
  have bareMade : View.prepareSave (bare working) directory name uuid = some (bare prepared) := by
    rw [bare_prepareSave, made, Option.map_some]
  exact managed.prepareSave fresh.bare bareMade

end Managed

/-- Resources refer to tracks of the package and carry the edit rate of their playlist. -/
def HoldsTracks (package : IMFPackage) (playlist : IMFCompositionPlaylist) : Prop :=
  ∀ resource, playlist.Held resource → resource.track ∈ package.tracks.map TrackFile.track ∧
    resource.playlistEditRate = playlist.editRate

structure TracksByKind (package : IMFPackage) : Prop where
  video : ∀ asset ∈ package.videoTracks, asset.track.type = .video
  audio : ∀ asset ∈ package.audioTracks, asset.track.type = .audio

theorem TracksByKind.addTrack {package : IMFPackage} (kinds : TracksByKind package)
    (asset : TrackFile) : TracksByKind (package.addTrack asset) := by
  unfold IMFPackage.addTrack
  cases type : asset.track.type with
  | video =>
      refine ⟨fun other member => ?_, kinds.audio⟩
      rcases List.mem_append.mp member with old | new
      · exact kinds.video other old
      · rwa [List.mem_singleton.mp new]
  | audio =>
      refine ⟨kinds.video, fun other member => ?_⟩
      rcases List.mem_append.mp member with old | new
      · exact kinds.audio other old
      · rwa [List.mem_singleton.mp new]

structure Session.Consistent (session : Session) : Prop where
  managed : Managed (bare session.working)
  kinds : TracksByKind session.working.package
  playlists : ∀ playlist ∈ session.working.package.compositionPlaylists,
    Sound playlist ∧ HoldsTracks session.working.package playlist
  /-- The timeline shows a playlist as it is in the package. -/
  shown : ∀ index, session.shown = some index → session.sequenceView.Shown ∧
    session.working.package.compositionPlaylists[index]? =
      some session.sequenceView.compositionPlaylist
  tabled : Tabled session.working.package session.data

theorem HoldsTracks.mono {package after : IMFPackage} {playlist : IMFCompositionPlaylist}
    (holds : HoldsTracks package playlist)
    (tracks : package.tracks.map TrackFile.track ⊆ after.tracks.map TrackFile.track) :
    HoldsTracks after playlist := by
  intro resource held
  obtain ⟨track, editRate⟩ := holds resource held
  exact ⟨tracks track, editRate⟩

section Save

variable {working : WorkingPackage} {fileSize : File → Nat} {refused : Refusals}

/-- Saving leaves the playlists and what the table shows of the tracks. -/
structure SameItems (before after : IMFPackage) : Prop where
  videoTracks : after.videoTracks.map TrackFile.listing = before.videoTracks.map TrackFile.listing
  audioTracks : after.audioTracks.map TrackFile.listing = before.audioTracks.map TrackFile.listing
  compositionPlaylists : after.compositionPlaylists = before.compositionPlaylists
  outputProfiles : after.outputProfiles = before.outputProfiles

namespace SameItems

variable {before after last : IMFPackage}

theorem refl (package : IMFPackage) : SameItems package package := ⟨rfl, rfl, rfl, rfl⟩

theorem trans (first : SameItems before after) (second : SameItems after last) :
    SameItems before last :=
  ⟨second.videoTracks.trans first.videoTracks, second.audioTracks.trans first.audioTracks,
    second.compositionPlaylists.trans first.compositionPlaylists,
    second.outputProfiles.trans first.outputProfiles⟩

theorem copyTrackFiles (working : WorkingPackage) (refused : Refusals) :
    SameItems working.package (working.copyTrackFiles refused).state.package := by
  obtain ⟨videoTracks, audioTracks, same, videos, audios⟩ := working.copyTrackFiles_package refused
  rw [same]
  exact ⟨videos, audios, rfl, rfl⟩

theorem of_hasList (listed : WorkingPackage.HasList before after) : SameItems before after := by
  rcases listed with rfl | rfl
  · exact refl after
  · exact ⟨rfl, rfl, rfl, rfl⟩

theorem prepareSave {directory name uuid : String} {prepared : WorkingPackage}
    (made : View.prepareSave working directory name uuid = some prepared) :
    SameItems working.package prepared.package := by
  unfold View.prepareSave at made
  split at made
  · split at made
    · cases made
    · dsimp only at made
      split at made
      · cases made
      · obtain ⟨disk, -, rfl⟩ := Option.map_eq_some_iff.mp made
        exact ⟨rfl, rfl, rfl, rfl⟩
  · cases made
    exact refl working.package

theorem save (managed : Managed (bare working)) (placed : working.package.location ≠ "")
    (fileSize : File → Nat) (refused : Refusals) :
    SameItems working.package (working.save fileSize refused).state.package := by
  have copied := copyTrackFiles working refused
  have kept := managed.copyTrackFiles refused
  rw [bare_copyTrackFiles] at kept
  have stillPlaced : (working.copyTrackFiles refused).state.package.location ≠ "" := by
    rwa [working.copyTrackFiles_location]
  unfold WorkingPackage.save Outcome.andThen
  split
  · exact copied.trans (of_hasList (Managed.write_writing_bare kept stillPlaced fileSize refused).package)
  · exact copied

theorem tracks (same : SameItems before after) :
    after.tracks.map TrackFile.listing = before.tracks.map TrackFile.listing := by
  rw [IMFPackage.tracks, IMFPackage.tracks, List.map_append, List.map_append, same.videoTracks,
    same.audioTracks]

theorem map_track (same : SameItems before after) :
    after.tracks.map TrackFile.track = before.tracks.map TrackFile.track := by
  have listed (package : IMFPackage) : package.tracks.map TrackFile.track =
      (package.tracks.map TrackFile.listing).map Prod.fst := by
    rw [List.map_map]
    rfl
  rw [listed, listed, same.tracks]

theorem kinds (same : SameItems before after) (kinds : TracksByKind before) : TracksByKind after := by
  have each {old new : List TrackFile} {type : TrackType}
      (listed : new.map TrackFile.listing = old.map TrackFile.listing)
      (all : ∀ asset ∈ old, asset.track.type = type) : ∀ asset ∈ new, asset.track.type = type := by
    intro asset member
    have inside := List.mem_map_of_mem (f := TrackFile.listing) member
    rw [listed] at inside
    obtain ⟨other, otherMember, same⟩ := List.mem_map.mp inside
    exact (congrArg (fun pair => pair.1.type) same).symm.trans (all other otherMember)
  exact ⟨each same.videoTracks kinds.video, each same.audioTracks kinds.audio⟩

theorem tabled (same : SameItems before after) {data : List TableRow}
    (tabled : Tabled before data) : Tabled after data := by
  have uuids {old new : List TrackFile}
      (listed : new.map TrackFile.listing = old.map TrackFile.listing) :
      new.map (·.item.uuid) = old.map (·.item.uuid) := by
    have through (tracks : List TrackFile) : tracks.map (·.item.uuid) =
        (tracks.map TrackFile.listing).map (·.1.uuid) := by
      rw [List.map_map]
      rfl
    rw [through, through, listed]
  have all : after.assets.map IMFPackageItem.uuid = before.assets.map IMFPackageItem.uuid := by
    simp only [IMFPackage.assets, IMFPackage.tracks, List.map_append, List.map_map,
      same.compositionPlaylists, same.outputProfiles]
    have videos := uuids same.videoTracks
    have audios := uuids same.audioTracks
    simp only [Function.comp_def, videos, audios]
  refine tabled.congr ?_ fun item member => ?_
  · exact ⟨(uuids same.videoTracks) ▸ List.prefix_rfl, (uuids same.audioTracks) ▸ List.prefix_rfl,
      same.compositionPlaylists ▸ List.prefix_rfl, same.outputProfiles ▸ List.prefix_rfl⟩
  · have listed := List.mem_map_of_mem (f := IMFPackageItem.uuid) member
    rw [all] at listed
    exact List.mem_map.mp listed

end SameItems

theorem saveFile_cases {directory name uuid : String} {next : WorkingPackage}
    (managed : Managed (bare working)) (fresh : FreshUUID working uuid)
    (saved : View.saveFile working fileSize directory name uuid refused = some next) :
    Managed (bare next) ∧ SameItems working.package next.package := by
  unfold View.saveFile at saved
  cases prepares : View.prepareSave working directory name uuid with
  | none =>
      rw [prepares] at saved
      cases saved
      exact ⟨managed, SameItems.refl _⟩
  | some prepared =>
      rw [prepares] at saved
      obtain ⟨ready, placed, -⟩ := Managed.prepareSave_bare managed fresh prepares
      have kept := Managed.save_bare ready placed fileSize refused
      have same := (SameItems.prepareSave prepares).trans (SameItems.save ready placed fileSize refused)
      dsimp only at saved
      generalize prepared.save fileSize refused = outcome at saved kept same
      split at saved
      · cases saved
        exact ⟨kept, same⟩
      · cases saved
        exact ⟨kept, same⟩
      · cases saved

end Save

namespace Session

variable {session next : Session} {fileSize : File → Nat}

namespace Consistent

theorem of_started (started : Started session) : Consistent session := by
  obtain ⟨⟨disk, package⟩, data, sequenceView, shown⟩ := session
  obtain ⟨rfl, rfl, rfl⟩ := started
  have managed : Managed (bare ⟨disk, .new⟩) := Managed.of_started rfl
  refine ⟨managed, ⟨fun asset member => ?_, fun asset member => ?_⟩, fun playlist member => ?_,
    fun index isShown => ?_, Tabled.empty⟩
  · cases member
  · cases member
  · cases member
  · cases isShown

theorem newFile (_ : Consistent session) : Consistent session.newFile :=
  of_started ⟨rfl, rfl, rfl⟩

theorem working_addTrackFile (session : Session) (fileName : String) :
    (session.addTrackFile fileName).working = View.addTrackFile session.working fileName := by
  unfold Session.addTrackFile View.addTrackFile
  split
  · rfl
  · cases session.working.package.parseAndAddTrack session.working.disk fileName <;> rfl

theorem tabled_addTrack {package : IMFPackage} {data : List TableRow} (tabled : Tabled package data)
    (asset : TrackFile) : Tabled (package.addTrack asset)
      (PackageModel.appendMissing (package.addTrack asset) data
        (PackageModel.trackRows (package.addTrack asset))) := by
  have grown : Tabled.Extends package (package.addTrack asset) := by
    unfold IMFPackage.addTrack
    cases asset.track.type with
    | video =>
        exact ⟨(List.map_append ▸ List.prefix_append _ _), List.prefix_rfl, List.prefix_rfl,
          List.prefix_rfl⟩
    | audio =>
        exact ⟨List.prefix_rfl, (List.map_append ▸ List.prefix_append _ _), List.prefix_rfl,
          List.prefix_rfl⟩
  have others : (package.addTrack asset).compositionPlaylists = package.compositionPlaylists ∧
      (package.addTrack asset).outputProfiles = package.outputProfiles := by
    unfold IMFPackage.addTrack
    cases asset.track.type <;> exact ⟨rfl, rfl⟩
  refine tabled.extend grown (fun row member => ?_) fun item member => ?_
  · exact TableRow.mem_assetRows.mp (List.mem_append_left _ (List.mem_append_left _ member))
  · obtain ⟨row, found⟩ := TableRow.exists_item_iff.mpr member
    have listed : row ∈ PackageModel.assetRows (package.addTrack asset) := by
      rw [TableRow.mem_assetRows, found, Option.isSome_some]
    have old (inside : item ∈ package.assets) : some item.uuid ∈ data.map (TableRow.uuid package) :=
      tabled.complete item inside
    cases row with
    | video index =>
        refine .inr (List.mem_map.mpr ⟨.video index, ?_, by rw [TableRow.uuid, found]; rfl⟩)
        simpa [PackageModel.assetRows] using listed
    | audio index =>
        refine .inr (List.mem_map.mpr ⟨.audio index, ?_, by rw [TableRow.uuid, found]; rfl⟩)
        simpa [PackageModel.assetRows] using listed
    | playlist index =>
        rw [TableRow.item, others.1] at found
        exact .inl (old (TableRow.exists_item_iff.mp ⟨.playlist index, found⟩))
    | profile index =>
        rw [TableRow.item, others.2] at found
        exact .inl (old (TableRow.exists_item_iff.mp ⟨.profile index, found⟩))

theorem addTrackFile (consistent : Consistent session) (fileName : String) :
    Consistent (session.addTrackFile fileName) := by
  have managed := consistent.managed.addTrackFile fileName
  rw [← bare_addTrackFile, ← working_addTrackFile] at managed
  by_cases passed : fileName = "" ∨ session.working.package.hasTrackFile fileName = true
  · rw [Session.addTrackFile, if_pos passed]
    exact consistent
  · cases parsed : session.working.package.parseAndAddTrack session.working.disk fileName with
    | error error =>
        rw [Session.addTrackFile, if_neg passed, parsed]
        exact consistent
    | ok package =>
        rw [Session.addTrackFile, if_neg passed, parsed] at managed ⊢
        obtain ⟨track, -, rfl⟩ := IMFPackage.parseAndAddTrack_eq_ok parsed
        have perm := session.working.package.tracks_addTrack_perm ⟨track, fileName⟩
        have more : session.working.package.tracks.map TrackFile.track ⊆
            (session.working.package.addTrack ⟨track, fileName⟩).tracks.map TrackFile.track := by
          intro old member
          exact (perm.map TrackFile.track).symm.subset (List.mem_cons_of_mem _ member)
        have playlists := IMFPackage.compositionPlaylists_addTrack session.working.package
          ⟨track, fileName⟩
        refine ⟨managed, consistent.kinds.addTrack _, fun playlist member => ?_,
          fun index isShown => ?_, tabled_addTrack consistent.tabled ⟨track, fileName⟩⟩
        · obtain ⟨sound, holds⟩ := consistent.playlists playlist (playlists ▸ member)
          exact ⟨sound, holds.mono more⟩
        · obtain ⟨shown, found⟩ := consistent.shown index isShown
          exact ⟨shown, playlists.symm ▸ found⟩

theorem compositionPlaylistDoubleClick (consistent : Consistent session) {index : Nat}
    {playlist : IMFCompositionPlaylist}
    (found : session.working.package.compositionPlaylists[index]? = some playlist) :
    Consistent (session.compositionPlaylistDoubleClick index playlist) := by
  refine ⟨consistent.managed, consistent.kinds, consistent.playlists, fun other isShown => ?_,
    consistent.tabled⟩
  cases Option.some.inj isShown
  obtain ⟨sound, -⟩ := consistent.playlists playlist (List.mem_of_getElem? found)
  exact ⟨session.sequenceView.shown_of_changed sound.indexed.consistent.keys_nodup, found⟩

theorem tableViewRowSelectedDoubleClick (consistent : Consistent session) (row : Nat) :
    Consistent (session.tableViewRowSelectedDoubleClick row) := by
  unfold Session.tableViewRowSelectedDoubleClick
  split
  · split
    · exact consistent.compositionPlaylistDoubleClick ‹_›
    · exact consistent
  · exact consistent

theorem tabled_addCompositionPlaylist {package : IMFPackage} {data : List TableRow}
    (tabled : Tabled package data) {playlist : IMFCompositionPlaylist}
    (fresh : ∀ item ∈ package.assets, item.uuid ≠ playlist.uuid) :
    Tabled (package.addCompositionPlaylist playlist)
      (PackageModel.appendItem data (.playlist package.compositionPlaylists.length)) := by
  have grown : Tabled.Extends package (package.addCompositionPlaylist playlist) :=
    ⟨List.prefix_rfl, List.prefix_rfl, (List.map_append ▸ List.prefix_append _ _), List.prefix_rfl⟩
  have own : (TableRow.playlist package.compositionPlaylists.length).item
      (package.addCompositionPlaylist playlist) = some playlist.item := by
    simp [TableRow.item, IMFPackage.addCompositionPlaylist]
  have missing : PackageModel.hasItem (package.addCompositionPlaylist playlist) data
      (.playlist package.compositionPlaylists.length) = false := by
    rw [Bool.eq_false_iff]
    intro shown
    obtain ⟨row, member, same⟩ := List.any_eq_true.mp shown
    obtain ⟨item, found⟩ := Option.isSome_iff_exists.mp (tabled.present row member)
    have old : row.uuid package = some item.uuid := by rw [TableRow.uuid, found, Option.map_some]
    have equal := of_decide_eq_true same
    rw [grown.uuid old, TableRow.uuid, own] at equal
    exact fresh item (TableRow.exists_item_iff.mp ⟨row, found⟩) (Option.some.inj equal).symm
  have appended : PackageModel.appendMissing (package.addCompositionPlaylist playlist) data
      [.playlist package.compositionPlaylists.length] =
        PackageModel.appendItem data (.playlist package.compositionPlaylists.length) := by
    rw [PackageModel.appendMissing, List.foldl_cons, missing]
    rfl
  rw [← appended]
  refine tabled.extend grown (fun row member => ?_) fun item member => ?_
  · rw [List.mem_singleton.mp member, own, Option.isSome_some]
  · by_cases old : item ∈ package.assets
    · exact .inl (tabled.complete item old)
    · have new : item = playlist.item := by
        simp only [IMFPackage.assets, IMFPackage.addCompositionPlaylist, IMFPackage.tracks,
          List.map_append, List.mem_append, List.map_singleton, List.mem_singleton] at member old
        tauto
      rw [List.map_singleton, TableRow.uuid, own, new]
      exact .inr List.mem_cons_self

theorem newCompositionPlaylist (consistent : Consistent session) {frame uuid : String}
    (fresh : FreshUUID session.working uuid)
    (made : session.newCompositionPlaylist frame uuid = some next) : Consistent next := by
  have managed (working : WorkingPackage)
      (same : View.newCompositionPlaylist session.working frame uuid = some working) :
      Managed (bare working) := by
    have bareSame : View.newCompositionPlaylist (bare session.working) frame uuid =
        some (bare working) := by
      rw [bare_newCompositionPlaylist, same, Option.map_some]
    exact consistent.managed.newCompositionPlaylist fresh.bare bareSame
  unfold Session.newCompositionPlaylist at made
  unfold View.newCompositionPlaylist at managed
  dsimp only at made
  split at made
  · cases made
    exact consistent
  split at made
  · cases made
    exact consistent
  split at made
  · cases made
  split at made
  · cases made
    exact consistent
  rename_i placed named _ er read nonzero
  cases Option.some.inj made
  rw [if_neg placed, if_neg named, read] at managed
  dsimp only at managed
  rw [if_neg nonzero] at managed
  have isPlaced : session.working.package.location ≠ "" :=
    fun empty => placed ⟨empty, consistent.managed.named.mp empty⟩
  have unused : ∀ item ∈ session.working.package.assets, item.uuid ≠ uuid := by
    intro item member
    rw [IMFPackage.assets, List.mem_append, List.mem_append] at member
    rcases member with (track | playlist) | profile
    · obtain ⟨asset, inside, rfl⟩ := List.mem_map.mp track
      exact fresh.tracks asset inside
    · obtain ⟨playlist, inside, rfl⟩ := List.mem_map.mp playlist
      exact fun same => fresh.made (same ▸ playlistUUID_made isPlaced inside)
    · have none := consistent.managed.outputProfiles
      rw [show session.working.package.outputProfiles = [] from none] at profile
      cases profile
  apply compositionPlaylistDoubleClick
  · refine ⟨managed _ rfl, ⟨consistent.kinds.video, consistent.kinds.audio⟩,
      fun playlist member => ?_, fun index isShown => ?_, tabled_addCompositionPlaylist consistent.tabled unused⟩
    · rcases List.mem_append.mp member with old | new
      · obtain ⟨sound, holds⟩ := consistent.playlists playlist old
        exact ⟨sound, holds⟩
      · cases List.mem_singleton.mp new
        refine ⟨Sound.of_initial (.empty rfl rfl), fun resource held => ?_⟩
        exact absurd (held.of_store rfl) (IMFCompositionPlaylist.not_held_new uuid
          (session.working.package.pathOf ("CPL_" ++ uuid ++ ".xml")))
    · obtain ⟨shown, found⟩ := consistent.shown index isShown
      refine ⟨shown, ?_⟩
      exact List.getElem?_append_left (List.getElem?_eq_some_iff.mp found).1 ▸ found
  · exact List.getElem?_concat_length

theorem barePlaylist_congr {playlist after : IMFCompositionPlaylist}
    (details : after.details = playlist.details) : barePlaylist after = barePlaylist playlist := by
  simp only [IMFCompositionPlaylist.details, Prod.mk.injEq] at details
  obtain ⟨uuid, path, editRate, header⟩ := details
  rw [barePlaylist, barePlaylist, uuid, path, editRate, header]

theorem map_set_eq {α β : Type} (look : α → β) {list : List α} {index : Nat} {old new : α}
    (found : list[index]? = some old) (same : look new = look old) :
    (list.set index new).map look = list.map look := by
  have mapped : (list.map look)[index]? = some (look old) := by
    rw [List.getElem?_map, found, Option.map_some]
  obtain ⟨below, value⟩ := List.getElem?_eq_some_iff.mp mapped
  rw [List.map_set, same, ← value]
  exact List.set_getElem_self below

/-- An edit changes the playlist that is shown, and none of its details. -/
theorem edit (consistent : Consistent session) {action : Action}
    (enabled : session.sequenceView.Enabled action)
    (dragged : ∀ drop ∈ action.dropped, ∃ row ∈ session.data,
      row.track session.working.package = some drop.1)
    (edited : session.edit action = some next) : Consistent next := by
  unfold Session.edit at edited
  split at edited
  · cases edited
  rename_i index isShown
  obtain ⟨shown, found⟩ := consistent.shown index isShown
  obtain ⟨sound, holds⟩ := consistent.playlists _ (List.mem_of_getElem? found)
  obtain ⟨after, acted, stillSound⟩ := CPLSequenceView.act_sound shown sound enabled
  have changes := CPLSequenceView.act_edited acted
  have details := CPLSequenceView.details_act acted
  rw [CPLSequenceView.perform, acted, Option.map_some, Option.map_some] at edited
  cases Option.some.inj edited
  have sameBare := map_set_eq barePlaylist found (barePlaylist_congr details)
  have sameItem : after.item = session.sequenceView.compositionPlaylist.item := by
    simp only [IMFCompositionPlaylist.details, Prod.mk.injEq] at details
    obtain ⟨uuid, path, -⟩ := details
    rw [IMFCompositionPlaylist.item, IMFCompositionPlaylist.item, uuid, path]
  have sameItems := map_set_eq IMFCompositionPlaylist.item found sameItem
  refine ⟨?_, ⟨consistent.kinds.video, consistent.kinds.audio⟩, fun playlist member => ?_,
    fun other otherShown => ?_, ?_⟩
  · have managed := consistent.managed
    rw [bare, barePackage] at managed ⊢
    dsimp only [CPLSequenceView.compositionPlaylistChanged]
    rw [sameBare]
    exact managed
  · rcases List.mem_or_eq_of_mem_set member with old | new
    · obtain ⟨oldSound, oldHolds⟩ := consistent.playlists playlist old
      exact ⟨oldSound, oldHolds⟩
    · rw [new]
      refine ⟨stillSound, fun resource held => ?_⟩
      rcases changes.held resource held with before | ⟨drop, dropped, made⟩
      · obtain ⟨track, editRate⟩ := holds resource before
        exact ⟨track, editRate.trans changes.editRate.symm⟩
      · obtain ⟨row, -, found⟩ := dragged drop dropped
        rw [made]
        exact ⟨TableRow.mem_tracks found, changes.editRate.symm⟩
  · have same : other = index := Option.some.inj (otherShown.symm.trans isShown)
    refine ⟨session.sequenceView.shown_of_changed stillSound.indexed.consistent.keys_nodup, ?_⟩
    rw [same]
    exact List.getElem?_set_self (List.getElem?_eq_some_iff.mp found).1
  · have uuids (playlists : List IMFCompositionPlaylist) : playlists.map (·.item.uuid) =
        (playlists.map IMFCompositionPlaylist.item).map IMFPackageItem.uuid := by
      rw [List.map_map]
      rfl
    refine consistent.tabled.congr ?_ fun item member => ⟨item, ?_, rfl⟩
    · refine ⟨List.prefix_rfl, List.prefix_rfl, ?_, List.prefix_rfl⟩
      rw [uuids, uuids]
      dsimp only [CPLSequenceView.compositionPlaylistChanged]
      rw [sameItems]
    · simp only [IMFPackage.assets, CPLSequenceView.compositionPlaylistChanged, sameItems] at member
      exact member

theorem saveFile (consistent : Consistent session) {directory name uuid : String}
    {refused : Refusals} (fresh : FreshUUID session.working uuid)
    (saved : session.saveFile fileSize directory name uuid refused = some next) :
    Consistent next := by
  obtain ⟨working, saves, rfl⟩ := Option.map_eq_some_iff.mp saved
  obtain ⟨managed, same⟩ := saveFile_cases consistent.managed fresh saves
  refine ⟨managed, same.kinds consistent.kinds, fun playlist member => ?_,
    fun index isShown => ?_, same.tabled consistent.tabled⟩
  · obtain ⟨sound, holds⟩ := consistent.playlists playlist (same.compositionPlaylists ▸ member)
    exact ⟨sound, holds.mono (same.map_track ▸ List.Subset.refl _)⟩
  · obtain ⟨shown, found⟩ := consistent.shown index isShown
    exact ⟨shown, same.compositionPlaylists.symm ▸ found⟩

theorem step (consistent : Consistent session) {action : SessionAction}
    (taken : Step fileSize session action next) : Consistent next := by
  obtain ⟨enabled, performed⟩ := taken
  cases action with
  | newFile =>
      cases Option.some.inj performed
      exact consistent.newFile
  | addTrackFile fileName =>
      cases Option.some.inj performed
      exact consistent.addTrackFile fileName
  | newCompositionPlaylist frame uuid =>
      exact consistent.newCompositionPlaylist (enabled uuid rfl) performed
  | selectRow row =>
      cases Option.some.inj performed
      exact consistent.tableViewRowSelectedDoubleClick row
  | edit action => exact consistent.edit enabled.1 enabled.2 performed
  | saveFile directory name uuid refused => exact consistent.saveFile (enabled uuid rfl) performed

end Consistent

end Session

end Imflib.View
