import Imflib.Base.KeyedList
import Imflib.Base.Store
import Imflib.Package.EssenceDescriptor

/-! Composition playlists. Segments, sequences and virtual tracks are shared objects, and a
playlist keeps the stores of its own. Lists of them are lists of addresses. -/

namespace Imflib.Package

inductive TrackType where
  | video
  | audio
  deriving DecidableEq, Repr

/-- What a resource knows of the track file it refers to. -/
structure IMFTrack where
  uuid : String
  type : TrackType
  duration : Int32
  editRate : RationalNumber
  essenceDescriptor : IMFEssenceDescriptor
  deriving DecidableEq, Repr

namespace Sample

def descriptorBase : MXFEssenceDescriptorBase :=
  { instanceId := ""
    subDescriptors := []
    sampleRate := ⟨25, 1⟩
    essenceLength := 50
    containerFormat := ""
    linkedTrackId := 2 }

def video : IMFTrack :=
  { uuid := "video"
    type := .video
    duration := 50
    editRate := ⟨25, 1⟩
    essenceDescriptor :=
      { uuid := "video-descriptor"
        essenceDescriptor := .rgba ⟨descriptorBase, "", "", "", "", ⟨16, 9⟩, 1920, 1080⟩ 1023 0 "RGB" } }

def audio : IMFTrack :=
  { uuid := "audio"
    type := .audio
    duration := 48000
    editRate := ⟨48000, 1⟩
    essenceDescriptor :=
      { uuid := "audio-descriptor"
        essenceDescriptor := .wave ⟨descriptorBase, 1, "", ⟨48000, 1⟩, 2, 24, 6, 288000, ""⟩ } }

end Sample

structure CPLResource where
  uuid : String
  track : IMFTrack
  repeatCount : Int32
  entryPoint : Int32
  sourceDuration : Int32
  keyId : String
  hash : String
  playlistEditRate : RationalNumber
  deriving DecidableEq, Repr

/-- `CPLResource::StandardResource`, with the identifier it makes. -/
def standardResource (madeUUID : String) (track : IMFTrack)
    (compositionPlaylistEditRate : RationalNumber) : CPLResource :=
  { uuid := madeUUID
    track := track
    repeatCount := 1
    entryPoint := 0
    sourceDuration := track.duration
    keyId := ""
    hash := ""
    playlistEditRate := compositionPlaylistEditRate }

structure CPLSequence where
  uuid : String
  virtualTrackId : String
  items : List CPLResource
  deriving DecidableEq, Repr, Inhabited

def CPLSequence.Homogeneous (sequence : CPLSequence) : Prop :=
  ∃ type, ∀ resource ∈ sequence.items, resource.track.type = type

structure CPLSegment where
  uuid : String
  items : List Nat
  deriving Inhabited

structure CPLVirtualTrack where
  uuid : String
  items : List Nat
  deriving Inhabited

structure IMFCompositionPlaylist where
  uuid : String
  path : String
  editRate : RationalNumber
  header : XMLHeaderCompositionPlaylist
  segments : List Nat
  virtualTracks : List Nat
  segmentStore : Store CPLSegment
  sequenceStore : Store CPLSequence
  trackStore : Store CPLVirtualTrack

namespace IMFCompositionPlaylist

def new (uuid path : String) : IMFCompositionPlaylist :=
  { uuid := uuid
    path := path
    editRate := ⟨0, 0⟩
    header := .standard
    segments := []
    virtualTracks := []
    segmentStore := .empty
    sequenceStore := .empty
    trackStore := .empty }

variable (playlist : IMFCompositionPlaylist)

def segment (address : Nat) : CPLSegment := playlist.segmentStore.cell address

def sequence (address : Nat) : CPLSequence := playlist.sequenceStore.cell address

def virtualTrack (address : Nat) : CPLVirtualTrack := playlist.trackStore.cell address

def segmentUUID (address : Nat) : String := (playlist.segment address).uuid

def sequenceUUID (address : Nat) : String := (playlist.sequence address).uuid

def trackUUID (address : Nat) : String := (playlist.virtualTrack address).uuid

def sequences : List Nat := playlist.segments.flatMap fun address => (playlist.segment address).items

def newSegment (segment : CPLSegment) : IMFCompositionPlaylist × Nat :=
  ({ playlist with segmentStore := playlist.segmentStore.alloc segment },
    playlist.segmentStore.size)

def newSequence (sequence : CPLSequence) : IMFCompositionPlaylist × Nat :=
  ({ playlist with sequenceStore := playlist.sequenceStore.alloc sequence },
    playlist.sequenceStore.size)

def newVirtualTrack (track : CPLVirtualTrack) : IMFCompositionPlaylist × Nat :=
  ({ playlist with trackStore := playlist.trackStore.alloc track }, playlist.trackStore.size)

def modifySegment (address : Nat) (change : CPLSegment → CPLSegment) : IMFCompositionPlaylist :=
  { playlist with segmentStore := playlist.segmentStore.modify address change }

def modifySequence (address : Nat) (change : CPLSequence → CPLSequence) : IMFCompositionPlaylist :=
  { playlist with sequenceStore := playlist.sequenceStore.modify address change }

def modifyVirtualTrack (address : Nat) (change : CPLVirtualTrack → CPLVirtualTrack) :
    IMFCompositionPlaylist :=
  { playlist with trackStore := playlist.trackStore.modify address change }

/-- `AppendItem` of a segment, a virtual track and a sequence. -/
def appendToSegment (address item : Nat) : IMFCompositionPlaylist :=
  playlist.modifySegment address fun segment => { segment with items := segment.items ++ [item] }

def appendToVirtualTrack (address item : Nat) : IMFCompositionPlaylist :=
  playlist.modifyVirtualTrack address fun track => { track with items := track.items ++ [item] }

def appendToSequence (address : Nat) (item : CPLResource) : IMFCompositionPlaylist :=
  playlist.modifySequence address fun sequence =>
    { sequence with items := sequence.items ++ [item] }

def setVirtualTrackId (address : Nat) (id : String) : IMFCompositionPlaylist :=
  playlist.modifySequence address fun sequence => { sequence with virtualTrackId := id }

/-- `DeleteItem` of a sequence, a segment and a virtual track. -/
def deleteFromSequence (address : Nat) (item : CPLResource) : IMFCompositionPlaylist :=
  playlist.modifySequence address fun sequence =>
    { sequence with items := KeyedList.delete CPLResource.uuid item.uuid sequence.items }

def deleteFromSegment (address item : Nat) : IMFCompositionPlaylist :=
  playlist.modifySegment address fun segment =>
    { segment with
      items := KeyedList.delete playlist.sequenceUUID (playlist.sequenceUUID item) segment.items }

def deleteFromVirtualTrack (address item : Nat) : IMFCompositionPlaylist :=
  playlist.modifyVirtualTrack address fun track =>
    { track with
      items := KeyedList.delete playlist.sequenceUUID (playlist.sequenceUUID item) track.items }

def addSegment (address : Nat) : IMFCompositionPlaylist :=
  { playlist with segments := playlist.segments ++ [address] }

def insertSegmentAfter (address other : Nat) : IMFCompositionPlaylist :=
  { playlist with
    segments := KeyedList.insertAfter playlist.segmentUUID (playlist.segmentUUID other) address
      playlist.segments }

def insertSegmentBefore (address other : Nat) : IMFCompositionPlaylist :=
  { playlist with
    segments := KeyedList.insertBefore playlist.segmentUUID (playlist.segmentUUID other) address
      playlist.segments }

def deleteSegment (address : Nat) : IMFCompositionPlaylist :=
  { playlist with
    segments := KeyedList.delete playlist.segmentUUID (playlist.segmentUUID address)
      playlist.segments }

def addVirtualTrack (address : Nat) : IMFCompositionPlaylist :=
  { playlist with virtualTracks := playlist.virtualTracks ++ [address] }

def orNewVirtualTrack (found : Option Nat) (uuid : String) : IMFCompositionPlaylist × Nat :=
  match found with
  | some track => (playlist, track)
  | none =>
      let made := playlist.newVirtualTrack ⟨uuid, []⟩
      (made.1.addVirtualTrack made.2, made.2)

def deleteVirtualTrack (address : Nat) : IMFCompositionPlaylist :=
  { playlist with
    virtualTracks := KeyedList.delete playlist.trackUUID (playlist.trackUUID address)
      playlist.virtualTracks }

def findVirtualTrackById (id : String) : Option Nat :=
  KeyedList.find playlist.trackUUID id playlist.virtualTracks

theorem sequence_modifySequence_self (address : Nat) (change : CPLSequence → CPLSequence) :
    (playlist.modifySequence address change).sequence address = change (playlist.sequence address) :=
  playlist.sequenceStore.cell_modify_self address change

theorem sequence_modifySequence_of_ne (change : CPLSequence → CPLSequence) {address other : Nat}
    (different : other ≠ address) :
    (playlist.modifySequence address change).sequence other = playlist.sequence other :=
  playlist.sequenceStore.cell_modify_of_ne change different

/-- The index is an `unsigned int`, so a negative one is out of range. -/
def getVirtualTrackAtIndex (index : Int) : Option Nat :=
  playlist.virtualTracks[(index % 2 ^ 32).toNat]?

end IMFCompositionPlaylist

structure SegmentValue where
  uuid : String
  sequences : List CPLSequence
  deriving DecidableEq, Repr

namespace IMFCompositionPlaylist

variable (playlist : IMFCompositionPlaylist)

def segmentValue (address : Nat) : SegmentValue :=
  ⟨(playlist.segment address).uuid, (playlist.segment address).items.map playlist.sequence⟩

def timeline : List SegmentValue := playlist.segments.map playlist.segmentValue

end IMFCompositionPlaylist

end Imflib.Package
