import Imflib.Base.ListEdits
import Imflib.View.TrackOrder

/-! What the actions of the user are for: edits of the segments and of the virtual tracks, each at
the position of its target. -/

namespace Imflib.View

open Imflib.Package ListEdits

structure TrackValue where
  uuid : String
  sequences : List String
  deriving DecidableEq, Repr

/-- All that a playlist holds, without sharing. -/
structure Contents where
  segments : List SegmentValue
  virtualTracks : List TrackValue
  deriving DecidableEq, Repr

theorem insertPlace_le {append : Bool} {position length : Nat} (below : position < length) :
    insertPlace append position ≤ length := by
  unfold insertPlace
  split <;> omega

/-- The row at a height. A row above the first one is counted back from `2 ^ 32`, where no playlist
has a virtual track. -/
def rowOf (y : Int) : Nat := (y / heightPerTrack % 2 ^ 32).toNat

namespace Contents

section Parts

def withItems (change : List CPLResource → List CPLResource) (sequence : CPLSequence) :
    CPLSequence :=
  { sequence with items := change sequence.items }

def withSequences (change : List CPLSequence → List CPLSequence) (segment : SegmentValue) :
    SegmentValue :=
  { segment with sequences := change segment.sequences }

def withListed (change : List String → List String) (track : TrackValue) : TrackValue :=
  { track with sequences := change track.sequences }

def listSequence (row : Nat) (madeUUID sequence : String) (virtualTracks : List TrackValue) :
    List TrackValue :=
  if row < virtualTracks.length then virtualTracks.modify row (withListed (· ++ [sequence]))
  else virtualTracks ++ [⟨madeUUID, [sequence]⟩]

/-- A sequence is no longer listed in its virtual track, which goes if it is left empty. -/
def unlistSequence (sequence : CPLSequence) (virtualTracks : List TrackValue) : List TrackValue :=
  shrinkAt (fun track => track.sequences.isEmpty) (withListed (·.erase sequence.uuid))
    (virtualTracks.findIdx fun track => track.uuid = sequence.virtualTrackId) virtualTracks

/-- A resource is taken out of its sequence, which goes if it is left empty. -/
def removeResource (sequence resource : Nat) (sequences : List CPLSequence) : List CPLSequence :=
  shrinkAt (fun sequence => sequence.items.isEmpty) (withItems (·.eraseIdx resource)) sequence
    sequences

end Parts

variable (contents : Contents)

def modifySequence (segment sequence : Nat) (change : List CPLResource → List CPLResource) :
    Contents :=
  { contents with
    segments := contents.segments.modify segment
      (withSequences (·.modify sequence (withItems change))) }

/-- The identifier of the virtual track of a row, or of the one that is made for it. -/
def trackIdAt (row : Nat) (madeUUID : String) : String :=
  match contents.virtualTracks[row]? with
  | some track => track.uuid
  | none => madeUUID

def madeSequence (row : Nat) (made : MadeUUIDs) (resource : CPLResource) : CPLSequence :=
  ⟨made.sequence, contents.trackIdAt row made.track, [resource]⟩

def sequenceOnRow (segment row : Nat) : Option Nat := do
  let target ← contents.segments[segment]?
  let track ← contents.virtualTracks[row]?
  target.sequences.findIdx? fun sequence => sequence.virtualTrackId = track.uuid

def createFirstSegment (made : MadeUUIDs) (resource : CPLResource) : Contents :=
  { segments := contents.segments ++
      [⟨made.segment, [⟨made.sequence, made.track, [resource]⟩]⟩]
    virtualTracks := contents.virtualTracks ++ [⟨made.track, [made.sequence]⟩] }

def insertSegment (place row : Nat) (made : MadeUUIDs) (resource : CPLResource) : Contents :=
  { segments := contents.segments.insertIdx place
      ⟨made.segment, [contents.madeSequence row made resource]⟩
    virtualTracks := listSequence row made.track made.sequence contents.virtualTracks }

def insertResource (segment sequence place : Nat) (resource : CPLResource) : Contents :=
  contents.modifySequence segment sequence (·.insertIdx place resource)

/-- One resource at the end of the sequence on a row, which is made if it is missing. -/
def addResource (segment row : Nat) (made : MadeUUIDs) (resource : CPLResource) : Contents :=
  match contents.sequenceOnRow segment row with
  | some sequence => contents.modifySequence segment sequence (· ++ [resource])
  | none =>
      { segments := contents.segments.modify segment
          (withSequences (· ++ [contents.madeSequence row made resource]))
        virtualTracks := listSequence row made.track made.sequence contents.virtualTracks }

def emptiedSequence (segment sequence resource : Nat) : Option CPLSequence := do
  let target ← contents.segments[segment]?
  let shown ← target.sequences[sequence]?
  if (shown.items.eraseIdx resource).isEmpty then some shown else none

def deleteResource (segment sequence resource : Nat) : Contents :=
  { segments := shrinkAt (fun segment => segment.sequences.isEmpty)
      (withSequences (removeResource sequence resource)) segment contents.segments
    virtualTracks := match contents.emptiedSequence segment sequence resource with
      | some emptied => unlistSequence emptied contents.virtualTracks
      | none => contents.virtualTracks }

def edit (editRate : RationalNumber) : Action → Contents
  | .createFirstSegment track made =>
      contents.createFirstSegment made (standardResource made.resource track editRate)
  | .insertSegment segment track y append made =>
      contents.insertSegment (insertPlace append segment) (rowOf y) made
        (standardResource made.resource track editRate)
  | .insertResource segment sequence resource track append made =>
      contents.insertResource segment sequence (insertPlace append resource)
        (standardResource made.resource track editRate)
  | .addResource segment track y made =>
      contents.addResource segment (rowOf y) made (standardResource made.resource track editRate)
  | .deleteResource segment sequence resource => contents.deleteResource segment sequence resource

section Delete

variable {contents} {segment sequence resource : Nat} {target : SegmentValue} {shown : CPLSequence}

theorem deleteResource_of_kept (inContents : contents.segments[segment]? = some target)
    (inSegment : target.sequences[sequence]? = some shown)
    (kept : (shown.items.eraseIdx resource).isEmpty = false) :
    contents.deleteResource segment sequence resource =
      contents.modifySequence segment sequence (·.eraseIdx resource) := by
  have emptied : contents.emptiedSequence segment sequence resource = none := by
    rw [emptiedSequence, inContents, Option.bind_eq_bind, Option.bind_some, inSegment,
      Option.bind_eq_bind, Option.bind_some, kept]
    rfl
  have removed : removeResource sequence resource target.sequences =
      target.sequences.modify sequence (withItems (·.eraseIdx resource)) :=
    shrinkAt_of_nonempty inSegment kept
  have filled : (withSequences (removeResource sequence resource) target).sequences.isEmpty =
      false := by
    rw [withSequences, removed, List.isEmpty_eq_false_iff, Ne, List.modify_eq_nil_iff]
    exact List.ne_nil_of_mem (List.mem_of_getElem? inSegment)
  have same : withSequences (removeResource sequence resource) target =
      withSequences (·.modify sequence (withItems (·.eraseIdx resource))) target :=
    congrArg (SegmentValue.mk target.uuid) removed
  rw [deleteResource, emptied, shrinkAt_of_nonempty inContents filled, modify_congr inContents same]
  rfl

/-- A sequence that is left empty goes, and then what it leaves empty. -/
theorem deleteResource_of_emptied (inContents : contents.segments[segment]? = some target)
    (inSegment : target.sequences[sequence]? = some shown)
    (emptied : (shown.items.eraseIdx resource).isEmpty = true) :
    contents.deleteResource segment sequence resource =
      { segments := shrinkAt (fun segment => segment.sequences.isEmpty)
          (withSequences (·.eraseIdx sequence)) segment contents.segments
        virtualTracks := unlistSequence shown contents.virtualTracks } := by
  have found : contents.emptiedSequence segment sequence resource = some shown := by
    rw [emptiedSequence, inContents, Option.bind_eq_bind, Option.bind_some, inSegment,
      Option.bind_eq_bind, Option.bind_some, emptied]
    rfl
  have removed : withSequences (removeResource sequence resource) target =
      withSequences (·.eraseIdx sequence) target :=
    congrArg (SegmentValue.mk target.uuid) (shrinkAt_of_empty inSegment emptied)
  rw [deleteResource, found]
  congr 1
  exact shrinkAt_congr inContents removed

theorem deleteResource_after_resource (inContents : contents.segments[segment]? = some target)
    (inSegment : target.sequences[sequence]? = some shown)
    (emptied : (shown.items.eraseIdx resource).isEmpty = true) :
    contents.deleteResource segment sequence resource =
      { segments := shrinkAt (fun segment => segment.sequences.isEmpty)
          (withSequences (·.eraseIdx sequence)) segment
          (contents.modifySequence segment sequence (·.eraseIdx resource)).segments
        virtualTracks := unlistSequence shown contents.virtualTracks } := by
  have same : withSequences (·.eraseIdx sequence)
      (withSequences (·.modify sequence (withItems (·.eraseIdx resource))) target) =
      withSequences (·.eraseIdx sequence) target :=
    congrArg (SegmentValue.mk target.uuid) (List.eraseIdx_modify_of_eq _ sequence _)
  rw [deleteResource_of_emptied inContents inSegment emptied, modifySequence,
    shrinkAt_modify_same inContents same]

end Delete

end Contents

def trackValue (playlist : IMFCompositionPlaylist) (address : Nat) : TrackValue :=
  ⟨playlist.trackUUID address, (playlist.virtualTrack address).items.map playlist.sequenceUUID⟩

def trackValues (playlist : IMFCompositionPlaylist) : List TrackValue :=
  playlist.virtualTracks.map (trackValue playlist)

def contents (playlist : IMFCompositionPlaylist) : Contents :=
  ⟨playlist.timeline, trackValues playlist⟩

end Imflib.View
