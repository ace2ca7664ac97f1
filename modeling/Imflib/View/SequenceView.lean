import Imflib.Package.PlaylistXml

/-! The view of a composition playlist: what it draws, and the actions of the user. Every
action works on the rectangles drawn after the last change. -/

namespace Imflib.View

open Imflib.Package

structure MadeUUIDs where
  segment : String
  sequence : String
  track : String
  resource : String
  deriving DecidableEq, Repr

structure CPLSequenceRect where
  sequence : Nat
  trackIndex : Int
  resources : List CPLResource
  deriving DecidableEq, Repr

structure CPLSegmentRect where
  item : Nat
  sequences : List CPLSequenceRect
  deriving DecidableEq, Repr

/-- The view while it shows a playlist. Missing keys of the map have the index 0. -/
structure CPLSequenceView where
  compositionPlaylist : IMFCompositionPlaylist
  virtualTrackMap : String → Int
  scene : List CPLSegmentRect

def heightPerTrack : Int := 36

namespace CPLSequenceView

section Draw

variable (playlist : IMFCompositionPlaylist) (virtualTrackMap : String → Int)

def addSequence (sequence : Nat) : CPLSequenceRect :=
  { sequence := sequence
    trackIndex := virtualTrackMap (playlist.sequence sequence).virtualTrackId
    resources := (playlist.sequence sequence).items }

def appendSegment (segment : Nat) : CPLSegmentRect :=
  { item := segment
    sequences := (playlist.segment segment).items.map (addSequence playlist virtualTrackMap) }

def paintScene : List CPLSegmentRect :=
  playlist.segments.map (appendSegment playlist virtualTrackMap)

def mapVirtualTracks : Nat → List Nat → (String → Int) → String → Int
  | _, [], virtualTrackMap => virtualTrackMap
  | idx, track :: rest, virtualTrackMap =>
      mapVirtualTracks (idx + 1) rest
        (Function.update virtualTrackMap (playlist.trackUUID track) idx)

end Draw

/-- The map keeps the entries of virtual tracks that are gone, and of other playlists. -/
def compositionPlaylistChanged (view : CPLSequenceView) (newPlaylist : IMFCompositionPlaylist) :
    CPLSequenceView :=
  let virtualTrackMap := mapVirtualTracks newPlaylist 0 newPlaylist.virtualTracks
    view.virtualTrackMap
  { compositionPlaylist := newPlaylist
    virtualTrackMap := virtualTrackMap
    scene := paintScene newPlaylist virtualTrackMap }

end CPLSequenceView

section Actions

variable (playlist : IMFCompositionPlaylist)

def getVirtualTrackFromY (y : Int) : Option Nat :=
  playlist.getVirtualTrackAtIndex (y / heightPerTrack)

def virtualTrackAt (y : Int) (madeUUID : String) : IMFCompositionPlaylist × Nat :=
  playlist.orNewVirtualTrack (getVirtualTrackFromY playlist y) madeUUID

def createFirstSegmentAction (track : IMFTrack) (made : MadeUUIDs) : IMFCompositionPlaylist :=
  let newSegment := playlist.newSegment ⟨made.segment, []⟩
  let newSequence := newSegment.1.newSequence ⟨made.sequence, "", []⟩
  let playlist := newSequence.1.appendToSegment newSegment.2 newSequence.2
  let virtualTrack := playlist.newVirtualTrack ⟨made.track, []⟩
  let playlist := virtualTrack.1.setVirtualTrackId newSequence.2
    (virtualTrack.1.trackUUID virtualTrack.2)
  let playlist := playlist.appendToVirtualTrack virtualTrack.2 newSequence.2
  let newResource := standardResource made.resource track playlist.editRate
  let playlist := playlist.appendToSequence newSequence.2 newResource
  let playlist := playlist.addSegment newSegment.2
  playlist.addVirtualTrack virtualTrack.2

def insertSegmentAction (segmentRect : CPLSegmentRect) (track : IMFTrack) (y : Int) (append : Bool)
    (made : MadeUUIDs) : IMFCompositionPlaylist :=
  let newSegment := playlist.newSegment ⟨made.segment, []⟩
  let newSequence := newSegment.1.newSequence ⟨made.sequence, "", []⟩
  let playlist := newSequence.1.appendToSegment newSegment.2 newSequence.2
  let virtualTrack := virtualTrackAt playlist y made.track
  let playlist := virtualTrack.1.setVirtualTrackId newSequence.2
    (virtualTrack.1.trackUUID virtualTrack.2)
  let playlist := playlist.appendToVirtualTrack virtualTrack.2 newSequence.2
  let newResource := standardResource made.resource track playlist.editRate
  let playlist := playlist.appendToSequence newSequence.2 newResource
  if append then playlist.insertSegmentAfter newSegment.2 segmentRect.item
  else playlist.insertSegmentBefore newSegment.2 segmentRect.item

def insertResourceAction (sequenceRect : CPLSequenceRect) (resource : CPLResource)
    (track : IMFTrack) (append : Bool) (made : MadeUUIDs) : IMFCompositionPlaylist :=
  let newResource := standardResource made.resource track playlist.editRate
  playlist.modifySequence sequenceRect.sequence fun sequence =>
    { sequence with
      items :=
        if append then KeyedList.insertAfter CPLResource.uuid resource.uuid newResource sequence.items
        else KeyedList.insertBefore CPLResource.uuid resource.uuid newResource sequence.items }

/-- The first sequence of a segment that a virtual track lists too. -/
def findSequence (segment track : Nat) : Option Nat :=
  (playlist.segment segment).items.findSome? fun sequence =>
    KeyedList.find playlist.sequenceUUID (playlist.sequenceUUID sequence)
      (playlist.virtualTrack track).items

def addResourceAction (segmentRect : CPLSegmentRect) (track : IMFTrack) (y : Int)
    (made : MadeUUIDs) : IMFCompositionPlaylist :=
  let virtualTrack := virtualTrackAt playlist y made.track
  let sequence := match getVirtualTrackFromY playlist y with
    | some virtualTrack => findSequence playlist segmentRect.item virtualTrack
    | none => none
  let playlist := virtualTrack.1
  let newResource := standardResource made.resource track playlist.editRate
  match sequence with
  | some sequence => playlist.appendToSequence sequence newResource
  | none =>
      let newSequence := playlist.newSequence ⟨made.sequence, "", []⟩
      let playlist := newSequence.1.appendToSegment segmentRect.item newSequence.2
      let playlist := playlist.appendToVirtualTrack virtualTrack.2 newSequence.2
      let playlist := playlist.setVirtualTrackId newSequence.2 (playlist.trackUUID virtualTrack.2)
      playlist.appendToSequence newSequence.2 newResource

/-- `*std::next(GetVirtualTracks().begin(), index)`, undefined outside of the list. -/
def nextVirtualTrack (index : Int) : Option Nat :=
  if 0 ≤ index then playlist.virtualTracks[index.toNat]? else none

/-- There is no result where the virtual track of the rectangle is undefined. -/
def deleteResourceAction (segmentRect : CPLSegmentRect) (sequenceRect : CPLSequenceRect)
    (resource : CPLResource) : Option IMFCompositionPlaylist :=
  let playlist := playlist.deleteFromSequence sequenceRect.sequence resource
  -- An empty sequence is cleaned up, and then what it leaves empty.
  if (playlist.sequence sequenceRect.sequence).items.isEmpty then
    let playlist := playlist.deleteFromSegment segmentRect.item sequenceRect.sequence
    match nextVirtualTrack playlist sequenceRect.trackIndex with
    | none => none
    | some virtualTrack =>
        let playlist := playlist.deleteFromVirtualTrack virtualTrack sequenceRect.sequence
        let playlist :=
          if (playlist.segment segmentRect.item).items.isEmpty then
            playlist.deleteSegment segmentRect.item
          else playlist
        if (playlist.virtualTrack virtualTrack).items.isEmpty then
          some (playlist.deleteVirtualTrack virtualTrack)
        else some playlist
  else some playlist

end Actions

structure Fresh (playlist : IMFCompositionPlaylist) (made : MadeUUIDs) : Prop where
  segment : made.segment ∉ playlist.segments.map playlist.segmentUUID
  sequence : made.sequence ∉ playlist.sequences.map playlist.sequenceUUID
  track : made.track ∉ playlist.virtualTracks.map playlist.trackUUID

/-- What the user does. Rectangles are given by their position in what is drawn. -/
inductive Action where
  | createFirstSegment (track : IMFTrack) (made : MadeUUIDs)
  | insertSegment (segment : Nat) (track : IMFTrack) (y : Int) (append : Bool) (made : MadeUUIDs)
  | insertResource (segment sequence resource : Nat) (track : IMFTrack) (append : Bool)
      (made : MadeUUIDs)
  | addResource (segment : Nat) (track : IMFTrack) (y : Int) (made : MadeUUIDs)
  | deleteResource (segment sequence resource : Nat)

namespace CPLSequenceView

variable (view : CPLSequenceView)

def resourceAt (segment sequence resource : Nat) :
    Option (CPLSegmentRect × CPLSequenceRect × CPLResource) := do
  let segmentRect ← view.scene[segment]?
  let sequenceRect ← segmentRect.sequences[sequence]?
  let shown ← sequenceRect.resources[resource]?
  pure (segmentRect, sequenceRect, shown)

/-- The playlist after an action, if the action is possible and its result defined. -/
def act : Action → Option IMFCompositionPlaylist
  | .createFirstSegment track made =>
      if view.compositionPlaylist.segments.isEmpty then
        some (createFirstSegmentAction view.compositionPlaylist track made)
      else none
  | .insertSegment segment track y append made =>
      view.scene[segment]?.map fun segmentRect =>
        insertSegmentAction view.compositionPlaylist segmentRect track y append made
  | .insertResource segment sequence resource track append made =>
      (view.resourceAt segment sequence resource).map fun (_, sequenceRect, shown) =>
        insertResourceAction view.compositionPlaylist sequenceRect shown track append made
  | .addResource segment track y made =>
      view.scene[segment]?.map fun segmentRect =>
        addResourceAction view.compositionPlaylist segmentRect track y made
  | .deleteResource segment sequence resource =>
      (view.resourceAt segment sequence resource).bind fun (segmentRect, sequenceRect, shown) =>
        deleteResourceAction view.compositionPlaylist segmentRect sequenceRect shown

/-- Every action is followed by `CompositionPlaylistChanged`. -/
def perform (action : Action) : Option CPLSequenceView :=
  (view.act action).map view.compositionPlaylistChanged

/-- An action of the user on what is drawn, with new identifiers for what it makes. -/
def Enabled (view : CPLSequenceView) : Action → Prop
  | .createFirstSegment _ made =>
      view.compositionPlaylist.segments = [] ∧ Fresh view.compositionPlaylist made
  | .insertSegment segment _ _ _ made =>
      segment < view.scene.length ∧ Fresh view.compositionPlaylist made
  | .insertResource segment sequence resource _ _ _ =>
      (view.resourceAt segment sequence resource).isSome
  | .addResource segment _ _ made =>
      segment < view.scene.length ∧ Fresh view.compositionPlaylist made
  | .deleteResource segment sequence resource =>
      (view.resourceAt segment sequence resource).isSome

end CPLSequenceView

end Imflib.View
