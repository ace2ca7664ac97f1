import Imflib.View.FilesSurvive

/-! Whole sessions, in which packages are also saved and opened again. -/

namespace Imflib.View

open Imflib.Package

section Runs

variable {start session : Session} {fileSize : File → Nat} {reopening : Reopening}
  {prepared saved : WorkingPackage}

/-- A package that was saved in a session is opened as it was, under any path that leads to its
folder, if its tracks can be told apart. Only the descriptors have the identifiers of the new reading. -/
theorem session_reopens (started : start.Started)
    (reached : Transition.Reachable (Session.LongStep fileSize) start session)
    (allows : session.Allows reopening)
    (prepares : prepareSave session.working reopening.directory reopening.name
      reopening.madeUUID = some prepared)
    (succeeded : prepared.save fileSize reopening.refused = .done saved) :
    ∃ opened, session.reopen fileSize reopening = some opened ∧
      opened.working.disk = saved.disk.map (File.reread reopening.descriptorUUID) ∧
      opened.working.package.uuid = saved.package.uuid ∧
      SameContent (IMFTrack.reread reopening.descriptorUUID) session.working.package
        opened.working.package := by
  obtain ⟨consistent, -⟩ := Session.Consistent.of_longRun started reached
  obtain ⟨opened, opens, -, disk, uuid, content⟩ := consistent.reopen allows prepares succeeded
  exact ⟨opened, opens, disk, uuid, content⟩

/-- The table shows no identifier twice and none too few. If they are distinct, it is a list of all
items of the package. -/
theorem session_table (started : start.Started)
    (reached : Transition.Reachable (Session.LongStep fileSize) start session) :
    Tabled session.working.package session.data ∧
      ((session.working.package.assets.map IMFPackageItem.uuid).Nodup →
        (session.data.filterMap (TableRow.item session.working.package)).Perm
          session.working.package.assets) := by
  have tabled := (Session.Consistent.of_longRun started reached).1.tabled
  exact ⟨tabled, tabled.perm_assets⟩

/-- No file but XML gets lost or is overwritten, no track file appears twice, and those of distinct
tracks are where the package has them. -/
theorem session_keeps_files (started : start.Started)
    (reached : Transition.Reachable (Session.LongStep fileSize) start session) :
    Rearranged (anonymousFiles start.working.disk) (anonymousFiles session.working.disk) ∧
      ((trackUUIDs session.working.package).Nodup → ∀ asset ∈ session.working.package.tracks,
        (anonymousFiles session.working.disk).read asset.path =
          some (.mxf (.ok asset.track.anonymous))) := by
  obtain ⟨consistent, rearranged⟩ := Session.Consistent.of_longRun started reached
  refine ⟨rearranged, fun distinct asset member => ?_⟩
  have there := consistent.managed.stored.files distinct asset member
  exact Option.map_eq_some_iff.mpr ⟨_, there, rfl⟩

end Runs

namespace Sample

def opening : Session := ⟨start "b.mxf", [], ⟨.new "" "", fun _ => 0, []⟩, none⟩

@[irreducible]
def acting (session : Session) (action : SessionAction) : Session :=
  (session.perform (fun _ => 0) action).getD session

theorem reachable_acting {session : Session} {action : SessionAction}
    (reached : Transition.Reachable (Session.LongStep fun _ => 0) opening session)
    (enabled : session.Enabled action)
    (performs : (session.perform (fun _ => 0) action).isSome = true) :
    Transition.Reachable (Session.LongStep fun _ => 0) opening (acting session action) := by
  obtain ⟨next, result⟩ := Option.isSome_iff_exists.mp performs
  have taken : Session.LongStep (fun _ => 0) session (.inl action) (acting session action) := by
    refine ⟨enabled, ?_⟩
    rw [acting, result]
    rfl
  exact reached.tail taken

/-- No track of the package and no track of the start has the identifier. -/
def Unused (session : Session) (uuid : String) : Prop :=
  '/' ∉ uuid.toList ∧ uuid ∉ madeUUIDs session.working.package ∧
    (∀ asset ∈ session.working.package.tracks, asset.track.uuid ≠ uuid) ∧
    Package.Sample.video.uuid ≠ uuid ∧ Package.Sample.audio.uuid ≠ uuid
  deriving Decidable

/-- Whatever was done, no file has an identifier that none had. -/
theorem freshUUID_of {session : Session} {uuid : String}
    (reached : Transition.Reachable (Session.LongStep fun _ => 0) opening session)
    (unused : Unused session uuid) : FreshUUID session.working uuid := by
  obtain ⟨plain, made, tracks, video, audio⟩ := unused
  refine ⟨plain, made, tracks, fun entry track held => ?_⟩
  have rearranged := (Session.Consistent.of_longRun ⟨rfl, rfl, rfl⟩ reached).2
  have anonymous : (anonymousFiles session.working.disk).file entry =
      some (.mxf (.ok track.anonymous)) := Option.map_eq_some_iff.mpr ⟨_, held, rfl⟩
  obtain ⟨before, there⟩ := (rearranged.track_iff (.ok track.anonymous)).mp ⟨entry, anonymous⟩
  obtain ⟨file, found, read⟩ := Option.map_eq_some_iff.mp there
  obtain ⟨own, rfl, same⟩ := File.reread_eq_mxf _ read
  have named : own.anonymous.uuid = track.anonymous.uuid := congrArg IMFTrack.uuid same
  have sameUUID : own.uuid = track.uuid := named
  rw [← sameUUID]
  replace found : (disk "b.mxf").file before = some (.mxf (.ok own)) := found
  dsimp only [disk] at found
  split at found
  · cases found
    exact video
  · split at found
    · cases found
      exact audio
    · cases found

@[irreducible]
def filled : Session := acting (acting opening (.addTrackFile "/x/a.mxf")) (.addTrackFile "/y/b.mxf")

/-- It has been saved as `/z/p`. -/
@[irreducible]
def placed : Session := acting filled (.saveFile "/z" "p" "u" .none)

@[irreducible]
def withPlaylist : Session := acting placed (.newCompositionPlaylist "25 1" "c")

def firstSegment : SessionAction :=
  .edit (.createFirstSegment Package.Sample.video ⟨"s", "q", "t", "r"⟩)

@[irreducible]
def edited : Session := acting withPlaylist firstSegment

theorem reachable_filled : Transition.Reachable (Session.LongStep fun _ => 0) opening filled := by
  have first : Transition.Reachable (Session.LongStep fun _ => 0) opening
      (acting opening (.addTrackFile "/x/a.mxf")) := by
    refine reachable_acting .refl ?_ (by decide +kernel)
    intro uuid made
    cases made
  rw [filled]
  refine reachable_acting first ?_ (by decide +kernel)
  intro uuid made
  cases made

theorem reachable_placed : Transition.Reachable (Session.LongStep fun _ => 0) opening placed := by
  rw [placed]
  refine reachable_acting reachable_filled ?_ (by decide +kernel)
  intro uuid made
  cases made
  exact freshUUID_of reachable_filled (by decide +kernel)

theorem reachable_withPlaylist :
    Transition.Reachable (Session.LongStep fun _ => 0) opening withPlaylist := by
  have checks : Unused placed "c" ∧
      (placed.perform (fun _ => 0) (.newCompositionPlaylist "25 1" "c")).isSome = true := by
    decide +kernel
  rw [withPlaylist]
  refine reachable_acting reachable_placed ?_ checks.2
  intro uuid made
  cases made
  exact freshUUID_of reachable_placed checks.1

theorem reachable_edited : Transition.Reachable (Session.LongStep fun _ => 0) opening edited := by
  have checks : withPlaylist.sequenceView.compositionPlaylist.segments = [] ∧
      withPlaylist.sequenceView.compositionPlaylist.sequences = [] ∧
      withPlaylist.sequenceView.compositionPlaylist.virtualTracks = [] ∧
      TableRow.video 0 ∈ withPlaylist.data ∧
      (TableRow.video 0).track withPlaylist.working.package = some Package.Sample.video ∧
      (withPlaylist.perform (fun _ => 0) firstSegment).isSome = true := by
    decide +kernel
  obtain ⟨segments, sequences, virtualTracks, listed, track, performs⟩ := checks
  rw [edited]
  refine reachable_acting reachable_withPlaylist ⟨⟨segments, ?_⟩, ?_⟩ performs
  · refine ⟨?_, ?_, ?_⟩
    · simp [segments]
    · simp [sequences]
    · simp [virtualTracks]
  · intro drop dropped
    cases Option.mem_some.mp dropped
    exact ⟨.video 0, listed, track⟩

def again : Reopening := ⟨"", "", "v", .none, "/z/p", fun uuid => uuid ++ "-again"⟩

theorem prepareSave_edited :
    prepareSave edited.working "" "" "v" = some edited.working := if_neg (by decide +kernel)

theorem allows_again : edited.Allows again := by
  have checks : Unused edited "v" ∧ (trackUUIDs edited.working.package).Nodup ∧
      (edited.working.package.tracks.map fun asset => FilePath.stem asset.path).Nodup ∧
      edited.working.package.getFullPath = "/z/p" := by
    decide +kernel
  obtain ⟨unused, uuids, names, fullPath⟩ := checks
  refine ⟨freshUUID_of reachable_edited unused, ⟨uuids, names⟩, ?_, by decide +kernel,
    by decide +kernel⟩
  intro prepared prepares
  cases Option.some.inj (prepareSave_edited.symm.trans prepares)
  rw [fullPath]
  exact @leadsTo_self _ "/z" "p" (by decide +kernel) (by decide) (by decide)

theorem edited_reopens : ∃ opened, edited.reopen (fun _ => 0) again = some opened ∧
    SameContent (IMFTrack.reread fun uuid => uuid ++ "-again") edited.working.package
      opened.working.package := by
  have noError : (edited.working.save (fun _ => 0) .none).error = none := by decide +kernel
  generalize result : edited.working.save (fun _ => 0) .none = outcome at noError
  obtain ⟨saved, error⟩ := outcome
  cases noError
  obtain ⟨opened, opens, -, -, content⟩ := session_reopens ⟨rfl, rfl, rfl⟩ reachable_edited
    allows_again prepareSave_edited result
  exact ⟨opened, opens, content⟩

theorem edited_table : Tabled edited.working.package edited.data ∧
    (edited.data.filterMap (TableRow.item edited.working.package)).Perm
      edited.working.package.assets := by
  obtain ⟨tabled, perm⟩ := session_table ⟨rfl, rfl, rfl⟩ reachable_edited
  exact ⟨tabled, perm (by decide +kernel)⟩

theorem edited_keeps_files :
    Rearranged (anonymousFiles (disk "b.mxf")) (anonymousFiles edited.working.disk) ∧
      ∀ asset ∈ edited.working.package.tracks,
        (anonymousFiles edited.working.disk).read asset.path =
          some (.mxf (.ok asset.track.anonymous)) := by
  obtain ⟨rearranged, there⟩ := session_keeps_files ⟨rfl, rfl, rfl⟩ reachable_edited
  exact ⟨rearranged, there (by decide +kernel)⟩

end Sample

end Imflib.View
