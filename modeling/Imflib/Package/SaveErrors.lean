import Imflib.Package.PackageWriting
import Imflib.Package.LoadErrors

/-! What can fail when a package is saved, in the order in which it is tried, and which exceptions
leave the two steps of saving. -/

namespace Imflib.Package

def Exn.savingDefect : Exn → Defect
  | .compositionPlaylistException _ | .packageException _ => .translated
  | _ => .escaping

/-- A step of saving ends, or throws the only exception that `SaveFile` handles. -/
def SaveCaught (outcome : Outcome WorkingPackage Exn) : Prop :=
  outcome.error = none ∨ ∃ what, outcome.error = some (.packageException what)

section Checks

/-- The tracks can be moved one after another, those aside whose target exists when it is their
turn, and the files that are there then are as they should be. -/
def Movable (fullPath : String) (refused : Refusals) (next : FileSystem File → Prop) :
    FileSystem File → List TrackFile → Prop
  | disk, [] => next disk
  | disk, asset :: rest =>
      refused.status (fullPath ++ "/" ++ asset.getFileName) = false ∧
        if disk.fileExists (fullPath ++ "/" ++ asset.getFileName) then
          Movable fullPath refused next disk rest
        else ∃ after, renameFile refused disk asset.path (fullPath ++ "/" ++ asset.getFileName) =
          some after ∧ Movable fullPath refused next after rest

/-- Up to the first track that cannot be moved, the system tells whether the targets exist. -/
def Answered (fullPath : String) (refused : Refusals) : FileSystem File → List TrackFile → Prop
  | _, [] => True
  | disk, asset :: rest =>
      refused.status (fullPath ++ "/" ++ asset.getFileName) = false ∧
        if disk.fileExists (fullPath ++ "/" ++ asset.getFileName) then
          Answered fullPath refused disk rest
        else ∀ after, renameFile refused disk asset.path (fullPath ++ "/" ++ asset.getFileName) =
          some after → Answered fullPath refused after rest

def sizingsWellFormed : List Char → Bool
  | a :: b :: c :: d :: e :: f :: rest =>
      if rest.length + 6 > 3 * 6 then
        (Text.readInt32 [b, a]).isSome && (Text.readInt32 [d, c]).isSome &&
          (Text.readInt32 [f, e]).isSome && sizingsWellFormed rest
      else true
  | _ => true

def SubDescriptor.wellFormed : SubDescriptor → Bool
  | .jpeg2000 descriptor => sizingsWellFormed descriptor.pictureComponentSizing.toList.reverse
  | .audioChannelLabel _ _ _ | .soundfieldGroupLabel _ => true

def descriptorCheck (resource : CPLResource) : Option Defect :=
  if resource.track.essenceDescriptor.essenceDescriptor.base.subDescriptors.all
    SubDescriptor.wellFormed then none else some .escaping

def sequenceCheck (sequence : CPLSequence) : Option Defect :=
  if sequence.allAudio = false ∧ sequence.allVideo = false then some .translated else none

variable (refused : Refusals)

def xmlCheck (disk : FileSystem File) (path : String) : Option Defect :=
  if refused.write path = false ∧ disk.directory (disk.entry path).1 = true then none
  else some .escaping

def playlistCheck (disk : FileSystem File) (playlist : IMFCompositionPlaylist) :
    List (Option Defect) :=
  playlist.resources.map descriptorCheck ++
    (playlist.sequences.map fun address => sequenceCheck (playlist.sequence address)) ++
    [xmlCheck refused disk playlist.path]

/-- The size of a file is told, which is there or is one of the playlists, which are written
first. -/
def packedSizeCheck (disk : FileSystem File) (playlists : List IMFCompositionPlaylist)
    (item : IMFPackageItem) : Option Defect :=
  if refused.packedSize item.path = false ∧ (disk.fileExists item.path ∨
    ∃ playlist ∈ playlists, disk.entry item.path = disk.entry playlist.path)
  then none else some .escaping

/-- The size is told once more. That the file is there, is known by then. -/
def mappedSizeCheck (item : IMFPackageItem) : Option Defect :=
  if refused.mappedSize item.path = false then none else some .escaping

/-- Everything that `Write` tries, in this order. -/
def writeChecks (working : WorkingPackage) : List (Option Defect) :=
  working.package.compositionPlaylists.flatMap (playlistCheck refused working.disk) ++
    working.package.assets.map
      (packedSizeCheck refused working.disk working.package.compositionPlaylists) ++
    [xmlCheck refused working.disk working.package.orNewPackageList.path] ++
    (working.package.assets ++ [working.package.orNewPackageList.item]).map
      (mappedSizeCheck refused) ++
    [xmlCheck refused working.disk (working.package.pathOf "ASSETMAP.xml")]

end Checks

section Playlist

theorem failure_lexicalCast (text : List Char) : failure Exn.savingDefect (lexicalCast text) =
    if (Text.readInt32 text).isSome then none else some .escaping := by
  unfold lexicalCast
  cases Text.readInt32 text <;> rfl

theorem failure_componentSizings (text : List Char) :
    failure Exn.savingDefect (componentSizings text) =
      if sizingsWellFormed text then none else some .escaping := by
  induction text using componentSizings.induct with
  | case1 a b c d e f rest long ih =>
      rw [componentSizings, if_pos long, sizingsWellFormed, if_pos long]
      have last (yrSiz xrSiz ssiz : Int32) : failure Exn.savingDefect (do
          let others ← componentSizings rest
          pure ((PTree.empty
            |>.putInt ["r2:YRSiz"] yrSiz.toInt
            |>.putInt ["r2:XRSiz"] xrSiz.toInt
            |>.putInt ["r2:Ssiz"] ssiz.toInt) :: others)) =
          if sizingsWellFormed rest then none else some .escaping := by
        rw [← ih]
        exact failure_bind_ok _
      rw [failure_bind fun yrSiz _ => failure_bind fun xrSiz _ => failure_bind fun ssiz _ =>
        last yrSiz xrSiz ssiz]
      simp only [failure_lexicalCast]
      cases (Text.readInt32 [b, a]).isSome <;> cases (Text.readInt32 [d, c]).isSome <;>
        cases (Text.readInt32 [f, e]).isSome <;> simp
  | case2 a b c d e f rest short =>
      rw [componentSizings, if_neg short, sizingsWellFormed, if_neg short]
      rfl
  | case3 text short =>
      have none : componentSizings text = .ok [] := by
        unfold componentSizings
        split
        · exact absurd rfl (short _ _ _ _ _ _ _)
        · rfl
      have fine : sizingsWellFormed text = true := by
        unfold sizingsWellFormed
        split
        · exact absurd rfl (short _ _ _ _ _ _ _)
        · rfl
      rw [none, fine]
      rfl

theorem failure_writeSubDescriptor (descriptor : SubDescriptor) (pt : PTree) :
    failure Exn.savingDefect (descriptor.write pt) =
      if descriptor.wellFormed then none else some .escaping := by
  cases descriptor with
  | jpeg2000 descriptor =>
      refine (failure_bind_ok _).trans ?_
      refine (failure_bind_ok _).trans ?_
      exact failure_componentSizings _
  | audioChannelLabel label soundfieldGroupLinkId mcaChannelId => rfl
  | soundfieldGroupLabel label => rfl

theorem failure_writeSubDescriptors (descriptors : List SubDescriptor) (subDescs : PTree) :
    failure Exn.savingDefect (IMFEssenceDescriptor.writeSubDescriptors subDescs descriptors) =
      if descriptors.all SubDescriptor.wellFormed then none else some .escaping := by
  induction descriptors generalizing subDescs with
  | nil => rfl
  | cons descriptor rest ih =>
      rw [IMFEssenceDescriptor.writeSubDescriptors, failure_bind fun subDesc _ => ih _,
        failure_writeSubDescriptor, List.all_cons]
      cases descriptor.wellFormed <;> simp

theorem failure_writeDescriptor (resource : CPLResource) (pt : PTree) :
    failure Exn.savingDefect (resource.track.essenceDescriptor.write pt) =
      descriptorCheck resource := by
  refine (failure_bind_ok _).trans ?_
  exact failure_writeSubDescriptors _ _

theorem failure_writeSequence (sequence : CPLSequence) (pt : PTree) :
    failure Exn.savingDefect (sequence.write pt) = sequenceCheck sequence := by
  unfold CPLSequence.write sequenceCheck
  split
  · rfl
  · split
    · rfl
    · split <;> rfl

variable (playlist : IMFCompositionPlaylist)

theorem failure_writeSegment (pt : PTree) (segment : Nat) :
    failure Exn.savingDefect (playlist.writeSegment pt segment) =
      firstFailure ((playlist.segment segment).items.map fun address =>
        sequenceCheck (playlist.sequence address)) := by
  refine (failure_bind_ok _).trans ?_
  exact failure_foldlM_map (fun pt address => failure_writeSequence (playlist.sequence address) pt) _ _

theorem failure_writePlaylist :
    failure Exn.savingDefect playlist.write =
      firstFailure (playlist.resources.map descriptorCheck ++
        playlist.sequences.map fun address => sequenceCheck (playlist.sequence address)) := by
  have descriptors := failure_foldlM_map (fun pt resource => failure_writeDescriptor resource pt)
    playlist.resources
  rw [firstFailure_append, ← descriptors]
  refine failure_bind fun essenceDescriptorList _ => (failure_bind_ok _).trans ?_
  rw [IMFCompositionPlaylist.sequences, List.map_flatMap]
  exact failure_foldlM (fun _ => True) (fun pt segment _ => failure_writeSegment playlist pt segment)
    (fun _ _ _ _ _ => trivial) playlist.segments trivial

end Playlist

section Package

variable (fileSize : File → Nat) (refused : Refusals)

theorem directory_writeXml (working : WorkingPackage) (path : String) (tree : Except Exn PTree) :
    (working.writeXml refused path tree).state.disk.directory = working.disk.directory := by
  rcases working.writeXml_cases refused path tree with ⟨_, same⟩ | ⟨pt, after, _, written, same⟩
  · rw [same]
    rfl
  · rw [same]
    unfold FileSystem.write at written
    split at written
    · rw [← Option.some.inj written]
      rfl
    · cases written

theorem xmlCheck_congr {first second : FileSystem File} (entry : second.entry = first.entry)
    (directory : second.directory = first.directory) (path : String) :
    xmlCheck refused second path = xmlCheck refused first path := by
  rw [xmlCheck, xmlCheck, entry, directory]

theorem failure_writeXml (working : WorkingPackage) (path : String) (tree : Except Exn PTree) :
    (working.writeXml refused path tree).failure Exn.savingDefect =
      (failure Exn.savingDefect tree).or (xmlCheck refused working.disk path) := by
  cases tree with
  | error error => rfl
  | ok pt =>
      rw [failure_ok, Option.none_or, WorkingPackage.writeXml, xmlCheck]
      by_cases denied : refused.write path = true
      · rw [if_pos denied, if_neg fun both => Bool.false_ne_true (both.1.symm.trans denied)]
        rfl
      · rw [if_neg denied, FileSystem.write]
        by_cases present : working.disk.directory (working.disk.entry path).1 = true
        · rw [dif_pos present, if_pos ⟨Bool.eq_false_iff.mpr denied, present⟩]
          rfl
        · rw [dif_neg present, if_neg fun both => present both.2]
          rfl

theorem failure_writePlaylists (working : WorkingPackage) (playlists : List IMFCompositionPlaylist) :
    (Outcome.forEach (WorkingPackage.writePlaylist refused) playlists working).failure
        Exn.savingDefect =
      firstFailure (playlists.flatMap (playlistCheck refused working.disk)) := by
  refine Outcome.failure_forEach (fun state => state.disk.entry = working.disk.entry ∧
    state.disk.directory = working.disk.directory) ?_ ?_ playlists ⟨rfl, rfl⟩
  · intro state playlist same
    rw [WorkingPackage.writePlaylist, failure_writeXml, failure_writePlaylist,
      xmlCheck_congr refused same.1 same.2, playlistCheck, firstFailure_append _ [_]]
    simp
  · intro state playlist same
    exact ⟨(state.writeXml_entry refused playlist.path playlist.write).trans same.1,
      (directory_writeXml refused state playlist.path playlist.write).trans same.2⟩

def fileCheck (unsized : String → Bool) (disk : FileSystem File) (item : IMFPackageItem) :
    Option Defect :=
  if unsized item.path = false ∧ disk.fileExists item.path then none else some .escaping

theorem failure_assetList (unsized : String → Bool) (node : IMFPackageItem → Nat → PTree)
    (disk : FileSystem File) (assets : List IMFPackageItem) :
    failure Exn.savingDefect (assetList fileSize unsized node disk assets) =
      firstFailure (assets.map (fileCheck unsized disk)) := by
  refine failure_foldlM_map (fun pt item => (failure_bind_ok _).trans ?_) assets _
  unfold IMFPackageItem.getFileSize fileCheck FileSystem.fileExists
  cases unsized item.path <;> cases disk.read item.path <;> rfl

theorem failure_packageList (disk : FileSystem File) (list : IMFPackageList)
    (assets : List IMFPackageItem) :
    failure Exn.savingDefect (list.tree fileSize refused disk assets) =
      firstFailure (assets.map (fileCheck refused.packedSize disk)) :=
  (failure_bind_ok _).trans (failure_assetList fileSize refused.packedSize packedAsset disk assets)

theorem failure_assetMap (disk : FileSystem File) (package : IMFPackage) :
    failure Exn.savingDefect (package.assetMapTree fileSize refused disk) =
      firstFailure (package.mappedAssets.map (fileCheck refused.mappedSize disk)) :=
  (failure_bind_ok _).trans
    (failure_assetList fileSize refused.mappedSize mappedAsset disk package.mappedAssets)

theorem fileExists_of_writesXml {allowed : String × String → Prop} {before after : FileSystem File}
    (writes : WritesXml allowed before after) {path : String}
    (present : before.fileExists path = true) : after.fileExists path = true := by
  rw [FileSystem.fileExists, FileSystem.read, writes.entry]
  rcases writes.files (before.entry path) with same | ⟨-, pt, written⟩
  · rw [same]
    exact present
  · rw [written]
    rfl

theorem fileExists_writePlaylists (working : WorkingPackage)
    {playlists : List IMFCompositionPlaylist}
    (succeeded : (Outcome.forEach (WorkingPackage.writePlaylist refused) playlists working).error =
      none) (path : String) :
    (Outcome.forEach (WorkingPackage.writePlaylist refused) playlists
        working).state.disk.fileExists path = true ↔
      working.disk.fileExists path = true ∨
        ∃ playlist ∈ playlists, working.disk.entry path = working.disk.entry playlist.path := by
  have writing : Writing (fun entry => ∃ playlist ∈ playlists,
      entry = working.disk.entry playlist.path) working
      (Outcome.forEach (WorkingPackage.writePlaylist refused) playlists working).state :=
    Outcome.forEach_keeps _ (fun playlist member state writing =>
      writing.writeXml ⟨playlist, member, rfl⟩ playlist.write) (.start working)
  constructor
  · intro present
    rw [FileSystem.fileExists, FileSystem.read, writing.files.entry] at present
    rcases writing.files.files (working.disk.entry path) with same | ⟨named, -⟩
    · rw [same] at present
      exact Or.inl present
    · exact Or.inr named
  · intro either
    rcases either with present | ⟨playlist, member, same⟩
    · exact fileExists_of_writesXml writing.files present
    · obtain ⟨other, -, -, pt, -, content⟩ :=
        working.writePlaylists_succeeded succeeded playlist member
      rw [FileSystem.read, writing.files.entry, ← same] at content
      rw [FileSystem.fileExists, FileSystem.read, writing.files.entry, content]
      rfl

theorem fileCheck_writePlaylists (working : WorkingPackage) {playlists : List IMFCompositionPlaylist}
    (succeeded : (Outcome.forEach (WorkingPackage.writePlaylist refused) playlists working).error =
      none) (item : IMFPackageItem) :
    fileCheck refused.packedSize
        (Outcome.forEach (WorkingPackage.writePlaylist refused) playlists working).state.disk item =
      packedSizeCheck refused working.disk playlists item := by
  unfold fileCheck packedSizeCheck
  exact if_congr
    (and_congr_right' (fileExists_writePlaylists refused working succeeded item.path)) rfl rfl

theorem fileCheck_of_present {disk : FileSystem File} {item : IMFPackageItem}
    (present : disk.fileExists item.path = true) :
    fileCheck refused.mappedSize disk item = mappedSizeCheck refused item := by
  rw [fileCheck, mappedSizeCheck, present]
  exact if_congr (and_iff_left rfl) rfl rfl

theorem present_of_firstFailure {unsized : String → Bool} {disk : FileSystem File}
    {items : List IMFPackageItem}
    (passed : firstFailure (items.map (fileCheck unsized disk)) = none) :
    ∀ item ∈ items, disk.fileExists item.path = true := by
  intro item member
  by_contra absent
  have failed : fileCheck unsized disk item = some .escaping := if_neg fun both => absent both.2
  have all := List.findSome?_eq_none_iff.mp passed (fileCheck unsized disk item)
    (List.mem_map_of_mem member)
  rw [failed] at all
  cases all

/-- All files that the asset map lists are there once the packing list is written. -/
theorem failure_writeAssetMap (working : WorkingPackage)
    (succeeded : (working.writePackageList fileSize refused).error = none) :
    ((working.writePackageList fileSize refused).state.writeAssetMap fileSize refused).failure
        Exn.savingDefect =
      firstFailure ((working.package.assets ++ [working.package.orNewPackageList.item]).map
          (mappedSizeCheck refused) ++
        [xmlCheck refused working.disk (working.package.pathOf "ASSETMAP.xml")]) := by
  have package := working.writePackageList_package fileSize refused
  have writes := working.writePackageList_writesXml fileSize refused
  obtain ⟨pt, made, content⟩ := working.writePackageList_succeeded fileSize refused succeeded
  have listed := failure_packageList fileSize refused working.disk working.package.orNewPackageList
    working.package.assets
  rw [made, failure_ok] at listed
  have present : ∀ item ∈ (working.writePackageList fileSize refused).state.package.mappedAssets,
      (working.writePackageList fileSize refused).state.disk.fileExists item.path = true := by
    intro item member
    rw [package] at member
    rcases List.mem_append.mp member with asset | list
    · exact fileExists_of_writesXml writes (present_of_firstFailure listed.symm item asset)
    · obtain ⟨list, sameList, rfl⟩ := List.mem_map.mp list
      rw [List.mem_singleton.mp sameList, FileSystem.fileExists]
      exact (congrArg Option.isSome content).trans rfl
  have told := List.map_congr_left fun item member =>
    fileCheck_of_present refused (present item member)
  rw [WorkingPackage.writeAssetMap, failure_writeXml, failure_assetMap, told,
    xmlCheck_congr refused writes.entry (directory_writeXml refused _ _ _), package,
    firstFailure_append, firstFailure_cons, firstFailure_nil, Option.or_none]
  rfl

theorem failure_writeLists (working : WorkingPackage) :
    (((working.writePackageList fileSize refused).andThen
      (WorkingPackage.writeAssetMap fileSize refused))).failure Exn.savingDefect =
      firstFailure (working.package.assets.map (fileCheck refused.packedSize working.disk) ++
        [xmlCheck refused working.disk working.package.orNewPackageList.path] ++
        (working.package.assets ++ [working.package.orNewPackageList.item]).map
          (mappedSizeCheck refused) ++
        [xmlCheck refused working.disk (working.package.pathOf "ASSETMAP.xml")]) := by
  rw [Outcome.failure_andThen (failure_writeAssetMap fileSize refused working)]
  rw [WorkingPackage.writePackageList, failure_writeXml, failure_packageList]
  simp only [firstFailure_append, firstFailure_cons, firstFailure_nil, Option.or_none,
    Option.or_assoc]
  rfl

theorem failure_write (working : WorkingPackage) :
    (((Outcome.forEach (WorkingPackage.writePlaylist refused) working.package.compositionPlaylists
      working).andThen (WorkingPackage.writePackageList fileSize refused)).andThen
        (WorkingPackage.writeAssetMap fileSize refused)).failure Exn.savingDefect =
      firstFailure (writeChecks refused working) := by
  rw [Outcome.andThen_assoc, writeChecks, List.append_assoc, List.append_assoc, List.append_assoc,
    firstFailure_append, ← failure_writePlaylists, ← List.append_assoc, ← List.append_assoc]
  refine Outcome.failure_andThen fun succeeded => ?_
  let playlistsWritten := (Outcome.forEach (WorkingPackage.writePlaylist refused)
    working.package.compositionPlaylists working).state
  have package : playlistsWritten.package = working.package :=
    working.writePlaylists_package working.package.compositionPlaylists
  have entry : playlistsWritten.disk.entry = working.disk.entry :=
    working.writePlaylists_entry working.package.compositionPlaylists
  have directory : playlistsWritten.disk.directory = working.disk.directory :=
    Outcome.forEach_keeps (fun state : WorkingPackage => state.disk.directory = working.disk.directory)
      (fun playlist _ state same =>
        (directory_writeXml refused state playlist.path playlist.write).trans same) rfl
  have sizes := fileCheck_writePlaylists refused working succeeded
  rw [failure_writeLists, package, xmlCheck_congr refused entry directory,
    xmlCheck_congr refused entry directory, List.map_congr_left fun item _ => sizes item]

theorem saveCaught_iff_failure (outcome : Outcome WorkingPackage Exn) :
    SaveCaught (outcome.mapError (asPackageException WorkingPackage.caughtByWrite)) ↔
      outcome.failure Exn.savingDefect ≠ some .escaping := by
  rcases outcome with ⟨state, error⟩
  have neverCaught {other : Exn} (foreign : ∀ what, other ≠ .packageException what) :
      ¬ SaveCaught ⟨state, some other⟩ := by
    intro caught
    rcases caught with none | ⟨what, same⟩
    · cases none
    · exact foreign what (Option.some.inj same)
  cases error with
  | none => exact iff_of_true (Or.inl rfl) nofun
  | some error =>
      cases error with
      | compositionPlaylistException what => exact iff_of_true (Or.inr ⟨what, rfl⟩) nofun
      | packageException what => exact iff_of_true (Or.inr ⟨what, rfl⟩) nofun
      | ptreeBadPath path => exact iff_of_false (neverCaught nofun) fun other => other rfl
      | ptreeBadData path => exact iff_of_false (neverCaught nofun) fun other => other rfl
      | xmlParserError what => exact iff_of_false (neverCaught nofun) fun other => other rfl
      | badLexicalCast => exact iff_of_false (neverCaught nofun) fun other => other rfl
      | filesystemError what => exact iff_of_false (neverCaught nofun) fun other => other rfl
      | mxfReaderException what => exact iff_of_false (neverCaught nofun) fun other => other rfl
      | invalidReferenceException what =>
          exact iff_of_false (neverCaught nofun) fun other => other rfl

end Package

section Copy

variable (refused : Refusals)

section Loop

variable (fullPath : String) (failed : String → Exn)

theorem copyTracks_cons (disk : FileSystem File) (asset : TrackFile) (rest : List TrackFile) :
    Outcome.traverse (copyTrack fullPath refused failed) (asset :: rest) disk =
      if refused.status (fullPath ++ "/" ++ asset.getFileName) then
        .fail (disk, asset :: rest) (.filesystemError "boost::filesystem::status")
      else if disk.fileExists (fullPath ++ "/" ++ asset.getFileName) then
        (Outcome.traverse (copyTrack fullPath refused failed) rest disk).map fun copied =>
          (copied.1, asset :: copied.2)
      else match renameFile refused disk asset.path (fullPath ++ "/" ++ asset.getFileName) with
        | none => .fail (disk, asset :: rest) (failed "boost::filesystem::rename")
        | some after => (Outcome.traverse (copyTrack fullPath refused failed) rest after).map
            fun copied =>
              (copied.1, { asset with path := fullPath ++ "/" ++ asset.getFileName } :: copied.2) := by
  rw [Outcome.traverse_cons, copyTrack]
  by_cases hidden : refused.status (fullPath ++ "/" ++ asset.getFileName) = true
  · simp only [if_pos hidden, Outcome.fail]
  · by_cases occupied : disk.fileExists (fullPath ++ "/" ++ asset.getFileName) = true
    · simp only [if_neg hidden, if_pos occupied, Outcome.done]
    · simp only [if_neg hidden, if_neg occupied]
      cases renameFile refused disk asset.path (fullPath ++ "/" ++ asset.getFileName) <;> rfl

theorem movable_iff (next : FileSystem File → Prop) (disk : FileSystem File)
    (assets : List TrackFile) :
    Movable fullPath refused next disk assets ↔
      (Outcome.traverse (copyTrack fullPath refused failed) assets disk).error = none ∧
        next (Outcome.traverse (copyTrack fullPath refused failed) assets disk).state.1 := by
  induction assets generalizing disk with
  | nil => exact (and_iff_right rfl).symm
  | cons asset rest ih =>
      rw [copyTracks_cons, Movable]
      by_cases hidden : refused.status (fullPath ++ "/" ++ asset.getFileName) = true
      · rw [if_pos hidden]
        exact iff_of_false (fun movable => Bool.false_ne_true (movable.1.symm.trans hidden))
          fun ended => nomatch ended.1
      · rw [if_neg hidden, and_iff_right (Bool.eq_false_iff.mpr hidden)]
        by_cases occupied : disk.fileExists (fullPath ++ "/" ++ asset.getFileName) = true
        · rw [if_pos occupied, if_pos occupied]
          exact ih disk
        · rw [if_neg occupied, if_neg occupied]
          cases renameFile refused disk asset.path (fullPath ++ "/" ++ asset.getFileName) with
          | none => exact iff_of_false nofun fun ended => nomatch ended.1
          | some after =>
              refine Iff.trans ⟨?_, fun movable => ⟨after, rfl, movable⟩⟩ (ih after)
              rintro ⟨other, same, movable⟩
              exact Option.some.inj same ▸ movable

theorem error_copyTracks (disk : FileSystem File) (assets : List TrackFile) :
    (Outcome.traverse (copyTrack fullPath refused failed) assets disk).error = none ∨
      (∃ what, (Outcome.traverse (copyTrack fullPath refused failed) assets disk).error =
        some (failed what)) ∨
      ∃ what, (Outcome.traverse (copyTrack fullPath refused failed) assets disk).error =
        some (.filesystemError what) := by
  induction assets generalizing disk with
  | nil => exact Or.inl rfl
  | cons asset rest ih =>
      rw [copyTracks_cons]
      split
      · exact Or.inr (Or.inr ⟨_, rfl⟩)
      · split
        · exact ih disk
        · split
          · exact Or.inr (Or.inl ⟨_, rfl⟩)
          · exact ih _

end Loop

theorem answered_iff (fullPath : String) (disk : FileSystem File) (assets : List TrackFile) :
    Answered fullPath refused disk assets ↔
      ∀ what, (Outcome.traverse (copyTrack fullPath refused .packageException) assets disk).error ≠
        some (.filesystemError what) := by
  induction assets generalizing disk with
  | nil => exact iff_of_true trivial fun _ => nofun
  | cons asset rest ih =>
      rw [copyTracks_cons, Answered]
      by_cases hidden : refused.status (fullPath ++ "/" ++ asset.getFileName) = true
      · rw [if_pos hidden]
        exact iff_of_false (fun answered => Bool.false_ne_true (answered.1.symm.trans hidden))
          fun never => never _ rfl
      · rw [if_neg hidden, and_iff_right (Bool.eq_false_iff.mpr hidden)]
        by_cases occupied : disk.fileExists (fullPath ++ "/" ++ asset.getFileName) = true
        · rw [if_pos occupied, if_pos occupied]
          exact ih disk
        · rw [if_neg occupied, if_neg occupied]
          cases renameFile refused disk asset.path (fullPath ++ "/" ++ asset.getFileName) with
          | none => exact iff_of_true (fun _ => nofun) fun _ => nofun
          | some after =>
              refine Iff.trans ⟨fun answered => answered after rfl, ?_⟩ (ih after)
              intro answered other same
              exact Option.some.inj same ▸ answered

theorem copyTrackFiles_caught_iff (working : WorkingPackage) :
    SaveCaught (working.copyTrackFiles refused) ↔
      Movable working.package.getFullPath refused
        (fun disk => Answered working.package.getFullPath refused disk working.package.audioTracks)
        working.disk working.package.videoTracks := by
  rw [movable_iff refused working.package.getFullPath .filesystemError]
  have videoErrors := error_copyTracks refused working.package.getFullPath .filesystemError
    working.disk working.package.videoTracks
  cases videos : (working.copyVideoTracks refused).error with
  | some error =>
      refine iff_of_false (fun caught => ?_) fun movable =>
        Option.some_ne_none error (videos.symm.trans movable.1)
      have escaping : ∃ what, error = .filesystemError what := by
        rcases videoErrors with ended | ⟨what, ended⟩ | ⟨what, ended⟩
        · exact absurd (videos.symm.trans ended) (Option.some_ne_none error)
        · exact ⟨what, Option.some.inj (videos.symm.trans ended)⟩
        · exact ⟨what, Option.some.inj (videos.symm.trans ended)⟩
      obtain ⟨what, rfl⟩ := escaping
      rw [SaveCaught, WorkingPackage.copyTrackFiles, Outcome.andThen, videos] at caught
      rcases caught with none | ⟨other, same⟩
      · cases none
      · cases same
  | none =>
      -- The audio tracks come next.
      rw [WorkingPackage.copyTrackFiles, Outcome.andThen_of_succeeded _ videos,
        and_iff_right (show (Outcome.traverse _ _ _).error = none from videos), answered_iff]
      rcases error_copyTracks refused working.package.getFullPath .packageException
        (working.copyVideoTracks refused).state.disk working.package.audioTracks with
        ended | ⟨what, ended⟩ | ⟨what, ended⟩
      · exact iff_of_true (Or.inl ended) fun other same =>
          Option.some_ne_none _ (same.symm.trans ended)
      · refine iff_of_true (Or.inr ⟨what, ended⟩) fun other same => ?_
        cases Option.some.inj (ended.symm.trans same)
      · refine iff_of_false (fun caught => ?_) fun never => never what ended
        rcases caught with none | ⟨other, same⟩
        · exact Option.some_ne_none _ (ended.symm.trans none)
        · cases Option.some.inj (ended.symm.trans same)

/-- Each of the two steps of saving ends as expected exactly under its condition. -/
theorem save_caught_iff (fileSize : File → Nat) (working : WorkingPackage) :
    (SaveCaught (working.copyTrackFiles refused) ↔
      Movable working.package.getFullPath refused
        (fun disk => Answered working.package.getFullPath refused disk working.package.audioTracks)
        working.disk working.package.videoTracks) ∧
    (SaveCaught (working.write fileSize refused) ↔
      firstFailure (writeChecks refused working) ≠ some .escaping) := by
  refine ⟨copyTrackFiles_caught_iff refused working, ?_⟩
  rw [← failure_write fileSize refused working]
  exact saveCaught_iff_failure _

end Copy

end Imflib.Package
