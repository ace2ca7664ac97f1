import Imflib.View.Reopening

/-! No track file gets lost in a session, and none is overwritten. -/

namespace Imflib.View

open Imflib.Package

/-- Every file that is not XML lies somewhere, and there are no track files besides. -/
def Rearranged (before after : FileSystem File) : Prop :=
  ∃ place : Equiv.Perm (String × String),
    (∀ entry content, (∀ pt, content ≠ .xml pt) → before.file entry = some content →
      after.file (place entry) = some content) ∧
    ∀ entry reading, after.file (place entry) = some (.mxf reading) →
      before.file entry = some (.mxf reading)

namespace Rearranged

variable {first second third : FileSystem File}

theorem refl (disk : FileSystem File) : Rearranged disk disk :=
  ⟨Equiv.refl _, fun _ _ _ held => held, fun _ _ held => held⟩

theorem trans (before : Rearranged first second) (after : Rearranged second third) :
    Rearranged first third := by
  obtain ⟨place, kept, found⟩ := before
  obtain ⟨other, alsoKept, alsoFound⟩ := after
  refine ⟨place.trans other, fun entry content notXml held => ?_, fun entry reading held => ?_⟩
  · exact alsoKept (place entry) content notXml (kept entry content notXml held)
  · exact found entry reading (alsoFound (place entry) reading held)

theorem anonymous (rearranged : Rearranged first second) :
    Rearranged (anonymousFiles first) (anonymousFiles second) := by
  obtain ⟨place, kept, found⟩ := rearranged
  refine ⟨place, fun entry content notXml held => ?_, fun entry reading held => ?_⟩
  · obtain ⟨file, there, rfl⟩ := Option.map_eq_some_iff.mp held
    have stays := kept entry file (fun pt xml => notXml pt (by rw [xml]; rfl)) there
    exact Option.map_eq_some_iff.mpr ⟨file, stays, rfl⟩
  · obtain ⟨file, there, read⟩ := Option.map_eq_some_iff.mp held
    obtain ⟨before, rfl⟩ := File.mxf_of_reread _ read
    exact Option.map_eq_some_iff.mpr ⟨.mxf before, found entry before there, read⟩

theorem of_file (same : ∀ entry, second.file entry = first.file entry) : Rearranged first second := by
  refine ⟨Equiv.refl _, fun entry content _ held => ?_, fun entry reading held => ?_⟩
  · exact (same entry).trans held
  · exact (same entry).symm.trans held

theorem track_iff (rearranged : Rearranged first second) (reading : Except String IMFTrack) :
    (∃ entry, second.file entry = some (.mxf reading)) ↔
      ∃ entry, first.file entry = some (.mxf reading) := by
  obtain ⟨place, kept, found⟩ := rearranged
  constructor
  · rintro ⟨entry, held⟩
    refine ⟨place.symm entry, found _ reading ?_⟩
    rw [Equiv.apply_symm_apply]
    exact held
  · rintro ⟨entry, held⟩
    refine ⟨place entry, kept entry (.mxf reading) (fun pt same => ?_) held⟩
    cases same

theorem copyTrack (fullPath : String) (refused : Refusals) (failure : String → Exn)
    (disk : FileSystem File) (asset : TrackFile) :
    Rearranged disk (copyTrack fullPath refused failure disk asset).state.1 := by
  rcases copyTrack_cases fullPath refused failure disk asset with ⟨same, -⟩ | ⟨free, after, moved, same⟩
  · rw [same]
    exact refl disk
  · rw [same]
    have swaps := FileSystem.rename_swap moved free
    refine ⟨_, fun entry content _ held => (swaps entry).trans held, fun entry reading held => ?_⟩
    exact (swaps entry).symm.trans held

theorem copyTrackFiles (working : WorkingPackage) (refused : Refusals) :
    Rearranged working.disk (working.copyTrackFiles refused).state.disk := by
  refine Outcome.andThen_keeps (fun state : WorkingPackage => Rearranged working.disk state.disk)
    ?_ fun state rearranged => ?_
  · exact Outcome.traverse_keeps_state (Rearranged working.disk)
      (fun asset _ disk rearranged => rearranged.trans (copyTrack _ refused _ disk asset))
      (refl working.disk)
  · exact Outcome.traverse_keeps_state (Rearranged working.disk)
      (fun asset _ disk rearranged => rearranged.trans (copyTrack _ refused _ disk asset)) rearranged

theorem mkdir {disk after : FileSystem File} {folder : String}
    (absent : disk.directoryExists folder = false) (made : disk.mkdir folder .other = some after) :
    Rearranged disk after := by
  obtain ⟨-, -, place, free, file⟩ := FileSystem.mkdir_eq_some absent made
  refine ⟨Equiv.refl _, fun entry content _ held => ?_, fun entry reading held => ?_⟩
  · have elsewhere : entry ≠ place := by
      intro here
      rw [here, free] at held
      cases held
    rw [Equiv.refl_apply, file, Function.update_of_ne elsewhere]
    exact held
  · rw [Equiv.refl_apply, file] at held
    by_cases here : entry = place
    · rw [here, Function.update_self] at held
      cases held
    · rwa [Function.update_of_ne here] at held

theorem writesXml {placed : Prop} {fullPath : String} {made : List String} {disk after : FileSystem File}
    {tracks : List TrackFile} (stored : Stored placed fullPath made disk tracks) (isPlaced : placed)
    (writes : WritesXml (XmlName (disk.folderOf fullPath)) disk after) : Rearranged disk after := by
  refine ⟨Equiv.refl _, fun entry content notXml held => ?_, fun entry reading held => ?_⟩
  · rcases writes.files entry with same | ⟨⟨inFolder, base, named⟩, -⟩
    · exact same.trans held
    · have place : entry = (disk.folderOf fullPath, base ++ ".xml") := Prod.ext inFolder named
      rw [place] at held
      rcases stored.folder isPlaced _ _ held with ⟨other, -, -, mxf⟩ | ⟨-, pt, xml⟩
      · rw [other.getFileName_eq] at mxf
        exact absurd mxf (mxf_ne_xml _ _)
      · exact absurd xml (notXml pt)
  · rcases writes.files entry with same | ⟨-, pt, written⟩
    · exact same.symm.trans held
    · rw [Equiv.refl_apply, written] at held
      cases held

section Save

variable {working prepared : WorkingPackage} {fileSize : File → Nat} {refused : Refusals}
  {directory name uuid : String}

theorem prepareSave (prepares : View.prepareSave working directory name uuid = some prepared) :
    Rearranged working.disk prepared.disk := by
  unfold View.prepareSave at prepares
  split at prepares
  · split at prepares
    · cases prepares
    · dsimp only at prepares
      split at prepares
      · cases prepares
      · rename_i absent
        obtain ⟨disk, made, rfl⟩ := Option.map_eq_some_iff.mp prepares
        exact mkdir (Bool.not_eq_true _ ▸ absent) made
  · cases prepares
    exact refl working.disk

/-- Wherever the save ends. -/
theorem save (managed : Managed (bare prepared)) (placed : prepared.package.location ≠ "")
    (fileSize : File → Nat) (refused : Refusals) :
    Rearranged prepared.disk (prepared.save fileSize refused).state.disk := by
  have copied := managed.copyTrackFiles refused
  rw [bare_copyTrackFiles] at copied
  have stillPlaced : (prepared.copyTrackFiles refused).state.package.location ≠ "" := by
    rwa [prepared.copyTrackFiles_location]
  have moved := copyTrackFiles prepared refused
  unfold WorkingPackage.save Outcome.andThen
  split
  · have writes := (Managed.write_writing_bare copied stillPlaced fileSize refused).files
    exact moved.trans (writesXml copied.stored stillPlaced writes)
  · exact moved

theorem saveFile {next : WorkingPackage} (managed : Managed (bare working))
    (fresh : FreshUUID working uuid)
    (saved : View.saveFile working fileSize directory name uuid refused = some next) :
    Rearranged working.disk next.disk := by
  unfold View.saveFile at saved
  cases prepares : View.prepareSave working directory name uuid with
  | none =>
      rw [prepares] at saved
      cases saved
      exact refl working.disk
  | some prepared =>
      rw [prepares] at saved
      obtain ⟨ready, placed, -⟩ := Managed.prepareSave_bare managed fresh prepares
      have kept := (prepareSave prepares).trans (save ready placed fileSize refused)
      dsimp only at saved
      generalize prepared.save fileSize refused = outcome at saved kept
      split at saved
      · cases saved
        exact kept
      · cases saved
        exact kept
      · cases saved

end Save

end Rearranged

namespace Session

variable {start session next : Session} {fileSize : File → Nat}

theorem Rearranged.perform (consistent : Consistent session) {action : SessionAction}
    (taken : Step fileSize session action next) :
    Rearranged session.working.disk next.working.disk := by
  obtain ⟨enabled, performed⟩ := taken
  have untouched (same : next.working.disk = session.working.disk) :
      Rearranged session.working.disk next.working.disk := .of_file fun entry => by rw [same]
  cases action with
  | newFile =>
      cases Option.some.inj performed
      exact untouched rfl
  | addTrackFile fileName =>
      cases Option.some.inj performed
      apply untouched
      unfold Session.addTrackFile
      split
      · rfl
      · split <;> rfl
  | newCompositionPlaylist frame uuid =>
      apply untouched
      unfold Session.perform Session.newCompositionPlaylist at performed
      dsimp only at performed
      split at performed
      · cases Option.some.inj performed
        rfl
      · split at performed
        · cases Option.some.inj performed
          rfl
        · split at performed
          · cases performed
          · split at performed <;> cases Option.some.inj performed <;> rfl
  | selectRow row =>
      cases Option.some.inj performed
      apply untouched
      unfold Session.tableViewRowSelectedDoubleClick
      split
      · split <;> rfl
      · rfl
  | edit action =>
      apply untouched
      unfold Session.perform Session.edit at performed
      dsimp only at performed
      split at performed
      · cases performed
      · obtain ⟨view, -, rfl⟩ := Option.map_eq_some_iff.mp performed
        rfl
  | saveFile directory name uuid refused =>
      obtain ⟨working, saves, rfl⟩ := Option.map_eq_some_iff.mp performed
      exact Rearranged.saveFile consistent.managed (enabled uuid rfl) saves

theorem reopen_saves {reopening : Reopening} (opens : session.reopen fileSize reopening = some next) :
    ∃ prepared saved, prepareSave session.working reopening.directory reopening.name
        reopening.madeUUID = some prepared ∧
      prepared.save fileSize reopening.refused = .done saved := by
  unfold Session.reopen at opens
  split at opens
  · cases opens
  · rename_i prepared prepares
    generalize result : prepared.save fileSize reopening.refused = outcome at opens
    split at opens
    · rename_i saved
      exact ⟨prepared, saved, prepares, result⟩
    · cases opens

theorem Consistent.longStep (consistent : Consistent session) {action : SessionAction ⊕ Reopening}
    (taken : LongStep fileSize session action next) :
    Consistent next ∧
      Rearranged (anonymousFiles session.working.disk) (anonymousFiles next.working.disk) := by
  cases action with
  | inl action => exact ⟨consistent.step taken, (Rearranged.perform consistent taken).anonymous⟩
  | inr reopening =>
      obtain ⟨allows, opens⟩ := taken
      obtain ⟨prepared, saved, prepares, succeeded⟩ := reopen_saves opens
      obtain ⟨opened, alsoOpens, stays, disk, -⟩ := consistent.reopen allows prepares succeeded
      cases Option.some.inj (opens.symm.trans alsoOpens)
      obtain ⟨ready, placed, -⟩ := Managed.prepareSave_bare consistent.managed allows.fresh prepares
      have kept := (Rearranged.prepareSave prepares).trans
        (Rearranged.save ready placed fileSize reopening.refused)
      rw [succeeded] at kept
      refine ⟨stays, ?_⟩
      rw [disk, anonymousFiles_reread]
      exact kept.anonymous

/-- What holds after every run. -/
theorem Consistent.of_longRun (started : Started start)
    (reached : Transition.Reachable (LongStep fileSize) start session) :
    Consistent session ∧
      Rearranged (anonymousFiles start.working.disk) (anonymousFiles session.working.disk) := by
  refine reached.invariant (fun session => Consistent session ∧
    Rearranged (anonymousFiles start.working.disk) (anonymousFiles session.working.disk))
    ⟨of_started started, .refl _⟩ ?_
  intro session action next holds taken
  obtain ⟨consistent, rearranged⟩ := holds
  obtain ⟨still, kept⟩ := consistent.longStep taken
  exact ⟨still, rearranged.trans kept⟩

end Session

end Imflib.View
