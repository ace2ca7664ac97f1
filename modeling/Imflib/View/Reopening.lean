import Imflib.View.ReadingBack

/-! What is opened again after it was saved. -/

namespace Imflib.View

open Imflib.Package

/-- The same tracks in another reading, and the same playlists, whatever their files are called. -/
structure SameContent (reread : IMFTrack → IMFTrack) (package opened : IMFPackage) : Prop where
  videoTracks : opened.videoTracks.map TrackFile.track =
    (package.videoTracks.map TrackFile.track).map reread
  audioTracks : opened.audioTracks.map TrackFile.track =
    (package.audioTracks.map TrackFile.track).map reread
  compositionPlaylists : List.Forall₂ (SameTimeline reread) package.compositionPlaylists
    opened.compositionPlaylists

namespace WrittenFrom

variable {fileSize : File → Nat} {copied saved : WorkingPackage} {fresh : IMFPackage}
  {madeUUID : String → String} {loaded : List IMFCompositionPlaylist}

theorem madeUUIDs_readPackage (from_ : WrittenFrom fileSize copied saved)
    (opens : OpensAt copied saved fresh)
    (uuids : List.Forall₂ (fun playlist loaded : IMFCompositionPlaylist =>
      playlist.uuid = loaded.uuid) copied.package.compositionPlaylists loaded) :
    madeUUIDs (readPackage madeUUID fresh copied saved loaded) = madeUUIDs saved.package := by
  have placed : saved.package.location ≠ "" := by
    rw [from_.written.package]
    exact from_.placed
  have location : (readPackage madeUUID fresh copied saved loaded).location ≠ "" := opens.location
  have same : copied.package.compositionPlaylists.map IMFCompositionPlaylist.uuid =
      loaded.map IMFCompositionPlaylist.uuid := by
    rw [← List.forall₂_eq_eq_eq, List.forall₂_map_left_iff, List.forall₂_map_right_iff]
    exact uuids
  have playlists : playlistUUIDs (readPackage madeUUID fresh copied saved loaded) =
      playlistUUIDs saved.package := by
    rw [playlistUUIDs, playlistUUIDs, from_.written.package]
    exact same.symm
  rw [madeUUIDs_placed location, madeUUIDs_placed placed, playlists]
  rfl

theorem mem_tracks_readPackage {asset : TrackFile}
    (member : asset ∈ (readPackage madeUUID fresh copied saved loaded).tracks) :
    ∃ old ∈ copied.package.tracks,
      asset = ⟨old.track.reread madeUUID, fresh.pathOf old.getFileName⟩ := by
  rw [tracks_readPackage] at member
  obtain ⟨old, inside, same⟩ := List.mem_map.mp member
  exact ⟨old, inside, same.symm⟩

theorem stored_readPackage (from_ : WrittenFrom fileSize copied saved)
    (opens : OpensAt copied saved fresh) {made : List String}
    (stored : Stored (saved.package.location ≠ "") saved.package.getFullPath made saved.disk
      saved.package.tracks) :
    Stored (fresh.location ≠ "") fresh.getFullPath made (saved.disk.map (File.reread madeUUID))
      (readPackage madeUUID fresh copied saved loaded).tracks := by
  have savedTracks : saved.package.tracks = copied.package.tracks := by
    rw [from_.written.package]
    rfl
  have placed : saved.package.location ≠ "" := by
    rw [from_.written.package]
    exact from_.placed
  have savedFolder : saved.disk.folderOf saved.package.getFullPath =
      saved.disk.folderOf fresh.getFullPath := by
    rw [opens.folder, FileSystem.folderOf_congr from_.files.canonical, from_.written.package]
    rfl
  refine
    { unusedTracks := fun uuid isMade asset member => ?_
      unusedFiles := fun uuid isMade entry track found => ?_
      files := fun _ asset member => ?_
      folder := fun _ name content found => ?_ }
  · obtain ⟨old, inside, rfl⟩ := mem_tracks_readPackage member
    exact stored.unusedTracks uuid isMade old (savedTracks ▸ inside)
  · obtain ⟨file, there, read⟩ := Option.map_eq_some_iff.mp found
    obtain ⟨before, rfl, rfl⟩ := File.reread_eq_mxf madeUUID read
    exact stored.unusedFiles uuid isMade entry before there
  · obtain ⟨old, inside, rfl⟩ := mem_tracks_readPackage member
    exact opens.read_track inside
  · obtain ⟨file, there, rfl⟩ := Option.map_eq_some_iff.mp found
    have held : saved.disk.file (saved.disk.folderOf saved.package.getFullPath, name) = some file := by
      rw [savedFolder]
      exact there
    rcases stored.folder placed name file held with ⟨old, inside, -, named⟩ | ⟨xml, pt, rfl⟩
    · left
      refine ⟨⟨old.track.reread madeUUID, fresh.pathOf old.getFileName⟩, ?_, ?_, ?_⟩
      · rw [tracks_readPackage]
        exact List.mem_map.mpr ⟨old, savedTracks ▸ inside, rfl⟩
      · rw [← named]
        exact FileSystem.entry_join _ _ old.slash_not_mem_getFileName old.getFileName_ne_empty
      · rw [← named]
        exact old.getFileName_moved fresh.getFullPath
    · exact .inr ⟨xml, pt, rfl⟩

/-- A package that is read from its folder is kept as one that was made. -/
theorem managed_readPackage (from_ : WrittenFrom fileSize copied saved)
    (managed : Managed (bare saved)) (opens : OpensAt copied saved fresh)
    (paths : List.Forall₂ (fun playlist loaded : IMFCompositionPlaylist =>
      loaded.path = fresh.pathOf (playlistName playlist.uuid) ∧ loaded.uuid = playlist.uuid)
      copied.package.compositionPlaylists loaded) :
    Managed (bare ⟨saved.disk.map (File.reread madeUUID),
      readPackage madeUUID fresh copied saved loaded⟩) := by
  have made : madeUUIDs (barePackage (readPackage madeUUID fresh copied saved loaded)) =
      madeUUIDs (barePackage saved.package) := by
    rw [madeUUIDs_bare, madeUUIDs_bare]
    exact from_.madeUUIDs_readPackage opens (paths.imp fun _ _ both => both.2.symm)
  have stored := @stored_readPackage _ _ _ _ madeUUID loaded from_ opens _ managed.stored
  exact
    { named := iff_of_false opens.location opens.name
      unplaced := fun empty => absurd empty opens.location
      header := managed.header
      outputProfiles := opens.outputProfiles
      packageList := IMFPackage.orNewPackageList_of_none opens.packageList
      playlists := by
        intro playlist member
        obtain ⟨own, inside, rfl⟩ := List.mem_map.mp member
        obtain ⟨old, -, path, uuid⟩ := exists_left_of_forall₂ paths inside
        refine ⟨?_, rfl⟩
        rw [barePlaylist, IMFCompositionPlaylist.new, path, uuid, playlistName]
        rfl
      distinct := made ▸ managed.distinct
      plain := made ▸ managed.plain
      stored := made ▸ stored }

end WrittenFrom

/-- The package is saved, and the folder it was saved to is opened. The reader then makes an
identifier for the descriptor of each track. -/
structure Reopening where
  directory : String
  name : String
  madeUUID : String
  refused : Refusals
  opened : String
  descriptorUUID : String → String

namespace Session

variable {session : Session} {fileSize : File → Nat} {reopening : Reopening}

def reopen (fileSize : File → Nat) (session : Session) (reopening : Reopening) : Option Session :=
  match prepareSave session.working reopening.directory reopening.name reopening.madeUUID with
  | none => none
  | some prepared =>
      match prepared.save fileSize reopening.refused with
      | ⟨saved, none⟩ =>
          let disk := saved.disk.map (File.reread reopening.descriptorUUID)
          { session with working := { saved with disk := disk } }.openFile reopening.opened
      | ⟨_, some _⟩ => none

/-- Tracks that can be told apart, and the path of the folder in which the package is saved. -/
structure Allows (session : Session) (reopening : Reopening) : Prop where
  fresh : FreshUUID session.working reopening.madeUUID
  distinct : DistinctTracks session.working.package
  leads : ∀ prepared ∈
    prepareSave session.working reopening.directory reopening.name reopening.madeUUID,
    LeadsTo prepared.disk reopening.opened prepared.package.getFullPath
  parent : FilePath.parentPath reopening.opened ≠ ""
  filename : FilePath.filename reopening.opened ≠ ""

/-- A step of a session in which packages are also saved and opened again. -/
def LongStep (fileSize : File → Nat) (session : Session) :
    SessionAction ⊕ Reopening → Session → Prop
  | .inl action, next => session.Step fileSize action next
  | .inr reopening, next =>
      session.Allows reopening ∧ session.reopen fileSize reopening = some next

/-- The package of a session, when its tracks have been moved and when it has been written. -/
structure Saves (fileSize : File → Nat) (package : IMFPackage) (prepared copied saved : WorkingPackage) :
    Prop where
  from_ : WrittenFrom fileSize copied saved
  managed : Managed (bare saved)
  items : SameItems package copied.package
  distinct : (trackUUIDs copied.package).Nodup
  fullPath : copied.package.getFullPath = prepared.package.getFullPath
  canonical : copied.disk.canonical = prepared.disk.canonical
  files : ∀ asset ∈ copied.package.tracks, saved.disk.file
    (copied.disk.folderOf copied.package.getFullPath, asset.getFileName) =
      some (.mxf (.ok asset.track))

theorem Consistent.saves (consistent : Consistent session) (allows : session.Allows reopening)
    {prepared saved : WorkingPackage}
    (prepares : prepareSave session.working reopening.directory reopening.name
      reopening.madeUUID = some prepared)
    (succeeded : prepared.save fileSize reopening.refused = .done saved) :
    ∃ copied, Saves fileSize session.working.package prepared copied saved := by
  obtain ⟨ready, placed, -⟩ := Managed.prepareSave_bare consistent.managed allows.fresh prepares
  obtain ⟨copies, writes⟩ := WorkingPackage.save_done succeeded
  have bareCopies := bare_copyTrackFiles prepared reopening.refused
  have location : (prepared.copyTrackFiles reopening.refused).state.package.location ≠ "" := by
    rwa [prepared.copyTrackFiles_location]
  have fullPath := prepared.copyTrackFiles_getFullPath reopening.refused
  have canonical := prepared.canonical_copyTrackFiles reopening.refused
  have preparedItems := SameItems.prepareSave prepares
  have items := preparedItems.trans (SameItems.copyTrackFiles prepared reopening.refused)
  have managed := ready.copyTrackFiles reopening.refused
  rw [bareCopies] at managed
  have from_ := writtenFrom managed location writes
  have savedManaged := Managed.save_bare ready placed fileSize reopening.refused
  rw [succeeded] at savedManaged
  have distinctPrepared : DistinctTracks (bare prepared).package :=
    (distinctTracks_congr preparedItems.tracks).mpr allows.distinct
  have distinctCopied := (distinctTracks_congr items.tracks).mpr allows.distinct
  have settled := @Managed.settled_after _ reopening.refused ready placed distinctPrepared
  rw [bareCopies] at settled
  have sameFolder : (prepared.copyTrackFiles reopening.refused).state.disk.folderOf
      (prepared.copyTrackFiles reopening.refused).state.package.getFullPath =
        prepared.disk.folderOf prepared.package.getFullPath := by
    rw [fullPath, FileSystem.folderOf_congr canonical]
  refine ⟨_, from_, savedManaged, items, distinctCopied.1, fullPath, canonical, ?_⟩
  rw [sameFolder]
  exact settled copies (sameFolder ▸ from_.files)

/-- The empty package into which `Load` reads. -/
def emptyAt (directory : String) : IMFPackage :=
  { IMFPackage.new with
    location := FilePath.parentPath directory
    name := FilePath.filename directory }

namespace Saves

variable {package : IMFPackage} {prepared copied saved : WorkingPackage}
  {madeUUID : String → String} {loaded : List IMFCompositionPlaylist}

theorem opensAt (saves : Saves fileSize package prepared copied saved) {directory : String}
    (leads : LeadsTo prepared.disk directory prepared.package.getFullPath)
    (parent : FilePath.parentPath directory ≠ "") (filename : FilePath.filename directory ≠ "") :
    OpensAt copied saved (emptyAt directory) := by
  have folder : saved.disk.folderOf (emptyAt directory).getFullPath =
      copied.disk.folderOf copied.package.getFullPath := by
    rw [FileSystem.folderOf_congr saves.from_.files.canonical,
      FileSystem.folderOf_congr saves.canonical, saves.fullPath]
    exact leads
  exact ⟨parent, filename, rfl, rfl, rfl, rfl, rfl, folder, saves.files⟩

theorem sameContent (saves : Saves fileSize package prepared copied saved) {fresh : IMFPackage}
    (same : List.Forall₂ (SameTimeline (IMFTrack.reread madeUUID))
      copied.package.compositionPlaylists loaded) :
    SameContent (IMFTrack.reread madeUUID) package
      (WrittenFrom.readPackage madeUUID fresh copied saved loaded) := by
  have tracks {before after : List TrackFile}
      (same : after.map TrackFile.listing = before.map TrackFile.listing) :
      (WrittenFrom.readTracks madeUUID fresh after).map TrackFile.track =
        (before.map TrackFile.track).map (IMFTrack.reread madeUUID) := by
    have listed (tracks : List TrackFile) : tracks.map TrackFile.track =
        (tracks.map TrackFile.listing).map Prod.fst := by
      rw [List.map_map]
      rfl
    rw [WrittenFrom.map_readTracks, listed, same, ← listed]
  refine ⟨tracks saves.items.videoTracks, tracks saves.items.audioTracks, ?_⟩
  exact saves.items.compositionPlaylists ▸ same

theorem playlists (saves : Saves fileSize package prepared copied saved)
    (playlists : ∀ playlist ∈ package.compositionPlaylists,
      Sound playlist ∧ HoldsTracks package playlist) :
    ∀ playlist ∈ copied.package.compositionPlaylists,
      Sound playlist ∧ HoldsTracks copied.package playlist := by
  intro playlist member
  obtain ⟨sound, holds⟩ := playlists playlist (saves.items.compositionPlaylists ▸ member)
  exact ⟨sound, holds.mono (saves.items.map_track ▸ List.Subset.refl _)⟩

theorem consistent (saves : Saves fileSize package prepared copied saved) {fresh : IMFPackage}
    (opens : OpensAt copied saved fresh) (kinds : TracksByKind package)
    (playlists : ∀ playlist ∈ package.compositionPlaylists,
      Sound playlist ∧ HoldsTracks package playlist)
    (pairs : List.Forall₂ (fun playlist loaded =>
      loaded.path = fresh.pathOf (playlistName playlist.uuid) ∧
        IMFPackage.ReadBack (IMFTrack.reread madeUUID)
          (copied.package.tracks.map TrackFile.track) playlist loaded)
      copied.package.compositionPlaylists loaded) (sequenceView : CPLSequenceView) :
    Consistent
      { working := ⟨saved.disk.map (File.reread madeUUID),
          WrittenFrom.readPackage madeUUID fresh copied saved loaded⟩
        data := PackageModel.appendMissing
          (WrittenFrom.readPackage madeUUID fresh copied saved loaded) []
          (PackageModel.assetRows (WrittenFrom.readPackage madeUUID fresh copied saved loaded))
        sequenceView := sequenceView
        shown := none } := by
  have managed := @WrittenFrom.managed_readPackage _ _ _ _ madeUUID loaded saves.from_ saves.managed
    opens (pairs.imp fun _ _ pair => ⟨pair.1, pair.2.1.uuid⟩)
  have copiedKinds := saves.items.kinds kinds
  refine ⟨managed, ⟨List.forall_mem_map.mpr copiedKinds.video,
    List.forall_mem_map.mpr copiedKinds.audio⟩, fun playlist member => ?_,
    fun index isShown => ?_, Tabled.filled _⟩
  · obtain ⟨old, inside, -, read⟩ := exists_left_of_forall₂ pairs member
    obtain ⟨sound, holds⟩ := saves.playlists playlists old inside
    exact ⟨sound.of_readBack read, holds.of_readBack read WrittenFrom.map_tracks_readPackage⟩
  · cases isShown

end Saves

/-- A package that was saved is opened as it was, and work can go on. -/
theorem Consistent.reopen (consistent : Consistent session) (allows : session.Allows reopening)
    {prepared saved : WorkingPackage}
    (prepares : prepareSave session.working reopening.directory reopening.name
      reopening.madeUUID = some prepared)
    (succeeded : prepared.save fileSize reopening.refused = .done saved) :
    ∃ opened, session.reopen fileSize reopening = some opened ∧ Consistent opened ∧
      opened.working.disk = saved.disk.map (File.reread reopening.descriptorUUID) ∧
      opened.working.package.uuid = saved.package.uuid ∧
      SameContent (IMFTrack.reread reopening.descriptorUUID) session.working.package
        opened.working.package := by
  obtain ⟨copied, saves⟩ := consistent.saves allows prepares succeeded
  have opens := saves.opensAt (allows.leads prepared prepares) allows.parent allows.filename
  obtain ⟨loaded, reads, pairs⟩ := @WrittenFrom.readAssetMap _ _ _ _ reopening.descriptorUUID
    saves.from_ (saves.items.kinds consistent.kinds) opens saves.distinct
    (saves.playlists consistent.playlists)
  have content := @Saves.sameContent _ _ _ _ _ _ _ saves (emptyAt reopening.opened)
    (pairs.imp fun _ _ pair => pair.2.1)
  have started := saves.consistent opens consistent.kinds consistent.playlists pairs
    session.sequenceView
  have loads : IMFPackage.load (saved.disk.map (File.reread reopening.descriptorUUID))
      reopening.opened = .ok (WrittenFrom.readPackage reopening.descriptorUUID
        (emptyAt reopening.opened) copied saved loaded) := reads
  have isOpened : session.reopen fileSize reopening = ({ session with
      working := { saved with
        disk := saved.disk.map (File.reread reopening.descriptorUUID) } } :
      Session).openFile reopening.opened := by
    rw [Session.reopen, prepares]
    dsimp only
    rw [succeeded]
    rfl
  rw [isOpened, openFile]
  dsimp only
  rw [loads]
  cases playlistsRead : loaded with
  | nil =>
      subst playlistsRead
      exact ⟨_, rfl, started, rfl, rfl, content⟩
  | cons playlist rest =>
      subst playlistsRead
      exact ⟨_, rfl, started.compositionPlaylistDoubleClick rfl, rfl, rfl, content⟩

end Session

end Imflib.View
