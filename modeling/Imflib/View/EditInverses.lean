import Imflib.View.EditRuns
import Imflib.View.TimelineEdits

/-! The deletion of a resource takes its insertion back. -/

namespace Imflib.View.Contents

open Imflib.Package ListEdits

variable {contents : Contents} {new : CPLResource} {made : MadeUUIDs} {row : Nat}

def resourceAt (contents : Contents) (segment sequence resource : Nat) : Option CPLResource := do
  let target ← contents.segments[segment]?
  let shown ← target.sequences[sequence]?
  shown.items[resource]?

theorem resourceAt_eq_some {segment sequence resource : Nat} {item : CPLResource} :
    contents.resourceAt segment sequence resource = some item ↔
      ∃ target shown, contents.segments[segment]? = some target ∧
        target.sequences[sequence]? = some shown ∧ shown.items[resource]? = some item := by
  constructor
  · intro found
    obtain ⟨target, inContents, found⟩ := Option.bind_eq_some_iff.mp found
    obtain ⟨shown, inSegment, found⟩ := Option.bind_eq_some_iff.mp found
    exact ⟨target, shown, inContents, inSegment, found⟩
  · intro found
    obtain ⟨target, shown, inContents, inSegment, present⟩ := found
    rw [resourceAt, inContents, Option.bind_eq_bind, Option.bind_some, inSegment,
      Option.bind_eq_bind, Option.bind_some, present]

structure Filled (contents : Contents) : Prop where
  segments : ∀ segment ∈ contents.segments, segment.sequences ≠ []
  sequences : ∀ segment ∈ contents.segments, ∀ sequence ∈ segment.sequences, sequence.items ≠ []
  tracks : ∀ track ∈ contents.virtualTracks, track.sequences ≠ []
  trackUUIDs : (contents.virtualTracks.map TrackValue.uuid).Nodup

structure NewSequence (contents : Contents) (made : MadeUUIDs) : Prop where
  track : made.track ∉ contents.virtualTracks.map TrackValue.uuid
  sequence : ∀ track ∈ contents.virtualTracks, made.sequence ∉ track.sequences

structure Inserts (before after : Contents) (new : CPLResource)
    (segment sequence resource : Nat) : Prop where
  shown : after.resourceAt segment sequence resource = some new
  others : ∀ otherSegment otherSequence otherResource item,
    after.resourceAt otherSegment otherSequence otherResource = some item →
    (otherSegment, otherSequence, otherResource) = (segment, sequence, resource) ∨
      ∃ oldSegment oldSequence oldResource,
        before.resourceAt oldSegment oldSequence oldResource = some item
  undone : after.deleteResource segment sequence resource = before

section Listing

variable {virtualTracks : List TrackValue} {sequence : CPLSequence} {track : TrackValue}

theorem unlistSequence_modify (uuids : (virtualTracks.map TrackValue.uuid).Nodup)
    (found : virtualTracks[row]? = some track) (filled : track.sequences ≠ [])
    (absent : sequence.uuid ∉ track.sequences) (carried : sequence.virtualTrackId = track.uuid) :
    unlistSequence sequence (virtualTracks.modify row (withListed (· ++ [sequence.uuid]))) =
      virtualTracks := by
  have kept := map_modify_same (fun other : TrackValue =>
    (rfl : (withListed (· ++ [sequence.uuid]) other).uuid = other.uuid)) virtualTracks row
  have listed := @getElem?_modify_self _ _ _ _ (withListed (· ++ [sequence.uuid])) found
  have rank := findIdx_key (kept.symm ▸ uuids) listed
  have undone : withListed (·.erase sequence.uuid) (withListed (· ++ [sequence.uuid]) track) =
      track := by
    have erased : (track.sequences ++ [sequence.uuid]).erase sequence.uuid = track.sequences := by
      rw [List.erase_append_right _ absent, List.erase_cons_head, List.append_nil]
    exact congrArg (TrackValue.mk track.uuid) erased
  unfold unlistSequence
  rw [carried]
  refine (congrArg (fun position => shrinkAt _ _ position _) rank).trans ?_
  exact shrinkAt_modify found undone (List.isEmpty_eq_false_iff.mpr filled)

theorem unlistSequence_append (uuids : (virtualTracks.map TrackValue.uuid).Nodup)
    (fresh : sequence.virtualTrackId ∉ virtualTracks.map TrackValue.uuid) :
    unlistSequence sequence (virtualTracks ++ [⟨sequence.virtualTrackId, [sequence.uuid]⟩]) =
      virtualTracks := by
  have distinct : ((virtualTracks ++ [TrackValue.mk sequence.virtualTrackId
      [sequence.uuid]]).map TrackValue.uuid).Nodup := by
    rw [List.map_append]
    exact (List.perm_append_singleton _ _).nodup_iff.mpr (List.nodup_cons.mpr ⟨fresh, uuids⟩)
  have last : (virtualTracks ++ [TrackValue.mk sequence.virtualTrackId
      [sequence.uuid]])[virtualTracks.length]? = some ⟨sequence.virtualTrackId, [sequence.uuid]⟩ :=
    List.getElem?_concat_length
  have rank := findIdx_key distinct last
  have emptied : (withListed (·.erase sequence.uuid) (TrackValue.mk sequence.virtualTrackId
      [sequence.uuid])).sequences.isEmpty = true := by
    rw [withListed, List.erase_cons_head]
    rfl
  unfold unlistSequence
  refine (congrArg (fun position => shrinkAt _ _ position _) rank).trans ?_
  rw [← List.insertIdx_length_self]
  exact shrinkAt_insertIdx (Nat.le_refl _) emptied

theorem unlistSequence_listSequence (filled : contents.Filled) (fresh : contents.NewSequence made)
    (row : Nat) (new : CPLResource) :
    unlistSequence (contents.madeSequence row made new)
      (listSequence row made.track made.sequence contents.virtualTracks) =
        contents.virtualTracks := by
  by_cases within : row < contents.virtualTracks.length
  · have found := List.getElem?_eq_getElem within
    have member := List.getElem_mem within
    have carried : contents.trackIdAt row made.track = contents.virtualTracks[row].uuid := by
      rw [trackIdAt, found]
    rw [listSequence, if_pos within]
    exact unlistSequence_modify filled.trackUUIDs found (filled.tracks _ member)
      (fresh.sequence _ member) carried
  · have carried : contents.trackIdAt row made.track = made.track := by
      rw [trackIdAt, List.getElem?_eq_none_iff.mpr (Nat.le_of_not_lt within)]
    rw [listSequence, if_neg within, madeSequence, carried]
    exact unlistSequence_append filled.trackUUIDs fresh.track

end Listing

section Insertions

theorem inserts_insertSegment (filled : contents.Filled) (fresh : contents.NewSequence made)
    {place : Nat} (within : place ≤ contents.segments.length) (row : Nat) (new : CPLResource) :
    Inserts contents (contents.insertSegment place row made new) new place 0 0 := by
  have inserted : (contents.insertSegment place row made new).segments[place]? =
      some ⟨made.segment, [contents.madeSequence row made new]⟩ :=
    List.getElem?_insertIdx_self.trans (if_pos within)
  refine ⟨resourceAt_eq_some.mpr ⟨_, _, inserted, rfl, rfl⟩, ?_, ?_⟩
  · intro otherSegment otherSequence otherResource item found
    obtain ⟨target, shown, inContents, inSegment, present⟩ := resourceAt_eq_some.mp found
    rcases of_getElem?_insertIdx inContents with ⟨rfl, rfl⟩ | ⟨old, before⟩
    · obtain ⟨rfl, rfl⟩ := of_getElem?_singleton inSegment
      obtain ⟨rfl, -⟩ := of_getElem?_singleton present
      exact .inl rfl
    · exact .inr ⟨old, otherSequence, otherResource,
        resourceAt_eq_some.mpr ⟨target, shown, before, inSegment, present⟩⟩
  · rw [deleteResource_of_emptied inserted rfl rfl]
    exact congrArg₂ Contents.mk (shrinkAt_insertIdx within rfl)
      (unlistSequence_listSequence filled fresh row new)

theorem createFirstSegment_eq (contents : Contents) (made : MadeUUIDs) (new : CPLResource) :
    contents.createFirstSegment made new =
      contents.insertSegment contents.segments.length contents.virtualTracks.length made new := by
  have carried : contents.trackIdAt contents.virtualTracks.length made.track = made.track := by
    rw [trackIdAt, List.getElem?_eq_none_iff.mpr (Nat.le_refl _)]
  rw [insertSegment, listSequence, if_neg (Nat.lt_irrefl _), List.insertIdx_length_self,
    madeSequence, carried]
  rfl

theorem inserts_insertResource {segment sequence place : Nat} {target : SegmentValue}
    {shown : CPLSequence} (inContents : contents.segments[segment]? = some target)
    (inSegment : target.sequences[sequence]? = some shown) (filled : shown.items ≠ [])
    (within : place ≤ shown.items.length) (new : CPLResource) :
    Inserts contents (contents.insertResource segment sequence place new) new segment sequence
      place := by
  have changed : (contents.insertResource segment sequence place new).segments[segment]? =
      some (withSequences (·.modify sequence (withItems (·.insertIdx place new))) target) :=
    getElem?_modify_self inContents
  have changedSequence : (withSequences (·.modify sequence (withItems (·.insertIdx place new)))
      target).sequences[sequence]? = some (withItems (·.insertIdx place new) shown) :=
    getElem?_modify_self inSegment
  refine ⟨resourceAt_eq_some.mpr ⟨_, _, changed, changedSequence, ?_⟩, ?_, ?_⟩
  · exact List.getElem?_insertIdx_self.trans (if_pos within)
  · intro otherSegment otherSequence otherResource item found
    obtain ⟨other, otherShown, inOther, inOtherSegment, present⟩ := resourceAt_eq_some.mp found
    rcases of_getElem?_modify inOther with ⟨rfl, old, before, rfl⟩ | before
    · rcases of_getElem?_modify inOtherSegment with ⟨rfl, oldShown, beforeShown, rfl⟩ | beforeShown
      · rcases of_getElem?_insertIdx present with ⟨rfl, -⟩ | ⟨oldPlace, beforeItem⟩
        · exact .inl rfl
        · exact .inr ⟨otherSegment, otherSequence, oldPlace,
            resourceAt_eq_some.mpr ⟨old, oldShown, before, beforeShown, beforeItem⟩⟩
      · exact .inr ⟨otherSegment, otherSequence, otherResource,
          resourceAt_eq_some.mpr ⟨old, otherShown, before, beforeShown, present⟩⟩
    · exact .inr ⟨otherSegment, otherSequence, otherResource,
        resourceAt_eq_some.mpr ⟨other, otherShown, before, inOtherSegment, present⟩⟩
  · have undone : (withItems (·.insertIdx place new) shown).items.eraseIdx place = shown.items :=
      List.eraseIdx_insertIdx_self new
    have kept : ((withItems (·.insertIdx place new) shown).items.eraseIdx place).isEmpty = false := by
      rw [undone]
      exact List.isEmpty_eq_false_iff.mpr filled
    rw [deleteResource_of_kept changed changedSequence kept]
    have restored : withSequences (·.modify sequence (withItems (·.eraseIdx place)))
        (withSequences (·.modify sequence (withItems (·.insertIdx place new))) target) = target := by
      have items : withItems (·.eraseIdx place) (withItems (·.insertIdx place new) shown) = shown :=
        congrArg (CPLSequence.mk shown.uuid shown.virtualTrackId) undone
      exact congrArg (SegmentValue.mk target.uuid) (modify_modify inSegment items)
    exact congrArg (Contents.mk · contents.virtualTracks) (modify_modify inContents restored)

theorem inserts_sequence (filled : contents.Filled) (fresh : contents.NewSequence made)
    {segment : Nat} {target : SegmentValue}
    (inContents : contents.segments[segment]? = some target) (row : Nat) (new : CPLResource) :
    Inserts contents
      { segments := contents.segments.modify segment
          (withSequences (· ++ [contents.madeSequence row made new]))
        virtualTracks := listSequence row made.track made.sequence contents.virtualTracks }
      new segment target.sequences.length 0 := by
  have changed := @getElem?_modify_self _ _ _ _
    (withSequences (· ++ [contents.madeSequence row made new])) inContents
  have last : (withSequences (· ++ [contents.madeSequence row made new])
      target).sequences[target.sequences.length]? = some (contents.madeSequence row made new) :=
    List.getElem?_concat_length
  refine ⟨resourceAt_eq_some.mpr ⟨_, _, changed, last, rfl⟩, ?_, ?_⟩
  · intro otherSegment otherSequence otherResource item found
    obtain ⟨other, otherShown, inOther, inOtherSegment, present⟩ := resourceAt_eq_some.mp found
    rcases of_getElem?_modify inOther with ⟨rfl, old, before, rfl⟩ | before
    · cases Option.some.inj (inContents.symm.trans before)
      rw [withSequences, ← List.insertIdx_length_self] at inOtherSegment
      rcases of_getElem?_insertIdx inOtherSegment with ⟨rfl, rfl⟩ | ⟨oldRow, beforeShown⟩
      · obtain ⟨rfl, -⟩ := of_getElem?_singleton present
        exact .inl rfl
      · exact .inr ⟨otherSegment, oldRow, otherResource,
          resourceAt_eq_some.mpr ⟨target, otherShown, before, beforeShown, present⟩⟩
    · exact .inr ⟨otherSegment, otherSequence, otherResource,
        resourceAt_eq_some.mpr ⟨other, otherShown, before, inOtherSegment, present⟩⟩
  · rw [deleteResource_of_emptied changed last rfl]
    have member := List.mem_of_getElem? inContents
    have restored : withSequences (·.eraseIdx target.sequences.length)
        (withSequences (· ++ [contents.madeSequence row made new]) target) = target := by
      have sequences : (target.sequences ++ [contents.madeSequence row made new]).eraseIdx
          target.sequences.length = target.sequences := by
        rw [← List.insertIdx_length_self, List.eraseIdx_insertIdx_self]
      exact congrArg (SegmentValue.mk target.uuid) sequences
    exact congrArg₂ Contents.mk (shrinkAt_modify inContents restored
        (List.isEmpty_eq_false_iff.mpr (filled.segments target member)))
      (unlistSequence_listSequence filled fresh row new)

theorem inserts_addResource (filled : contents.Filled) (fresh : contents.NewSequence made)
    {segment : Nat} {target : SegmentValue}
    (inContents : contents.segments[segment]? = some target) (row : Nat) (new : CPLResource) :
    ∃ sequence resource,
      Inserts contents (contents.addResource segment row made new) new segment sequence resource := by
  cases onRow : contents.sequenceOnRow segment row with
  | none =>
      rw [addResource, onRow]
      exact ⟨_, _, inserts_sequence filled fresh inContents row new⟩
  | some sequence =>
      have search := onRow
      rw [sequenceOnRow, inContents, Option.bind_eq_bind, Option.bind_some] at search
      obtain ⟨track, -, first⟩ := Option.bind_eq_some_iff.mp search
      obtain ⟨within, -⟩ := List.findIdx?_eq_some_iff_getElem.mp first
      have inSegment := List.getElem?_eq_getElem within
      have appended : contents.addResource segment row made new =
          contents.insertResource segment sequence target.sequences[sequence].items.length new := by
        rw [addResource, onRow]
        have items : withItems (· ++ [new]) target.sequences[sequence] =
            withItems (·.insertIdx target.sequences[sequence].items.length new)
              target.sequences[sequence] :=
          congrArg (CPLSequence.mk _ _) List.insertIdx_length_self.symm
        have sequences := congrArg (SegmentValue.mk target.uuid) (modify_congr inSegment items)
        exact congrArg (Contents.mk · contents.virtualTracks) (modify_congr inContents sequences)
      rw [appended]
      have nonempty := filled.sequences target (List.mem_of_getElem? inContents) _
        (List.getElem_mem within)
      exact ⟨_, _, inserts_insertResource inContents inSegment nonempty (Nat.le_refl _) new⟩

end Insertions

/-- Where an action is possible. -/
def Applies (contents : Contents) : Action → Prop
  | .createFirstSegment _ made => contents.NewSequence made
  | .insertSegment segment _ _ _ made =>
      segment < contents.segments.length ∧ contents.NewSequence made
  | .insertResource segment sequence resource _ _ _ =>
      (contents.resourceAt segment sequence resource).isSome
  | .addResource segment _ _ made =>
      segment < contents.segments.length ∧ contents.NewSequence made
  | .deleteResource segment sequence resource =>
      (contents.resourceAt segment sequence resource).isSome

/-- Every action that drops a track inserts one resource. -/
theorem inserts_edit (filled : contents.Filled) (editRate : RationalNumber) {action : Action}
    (applies : contents.Applies action) {track : IMFTrack} {madeUUID : String}
    (dropped : action.dropped = some (track, madeUUID)) :
    ∃ segment sequence resource, Inserts contents (contents.edit editRate action)
      (standardResource madeUUID track editRate) segment sequence resource := by
  cases action with
  | createFirstSegment track made =>
      cases Option.some.inj dropped
      rw [edit, createFirstSegment_eq]
      exact ⟨_, _, _, inserts_insertSegment filled applies (Nat.le_refl _) _ _⟩
  | insertSegment segment track y append made =>
      cases Option.some.inj dropped
      exact ⟨_, _, _, inserts_insertSegment filled applies.2 (insertPlace_le applies.1) _ _⟩
  | insertResource segment sequence resource track append made =>
      cases Option.some.inj dropped
      obtain ⟨item, found⟩ := Option.isSome_iff_exists.mp applies
      obtain ⟨target, shown, inContents, inSegment, present⟩ := resourceAt_eq_some.mp found
      have below := (List.getElem?_eq_some_iff.mp present).1
      exact ⟨_, _, _, inserts_insertResource inContents inSegment
        (List.ne_nil_of_mem (List.mem_of_getElem? present)) (insertPlace_le below) _⟩
  | addResource segment track y made =>
      cases Option.some.inj dropped
      exact ⟨_, inserts_addResource filled applies.2 (List.getElem?_eq_getElem applies.1) _ _⟩
  | deleteResource segment sequence resource => cases dropped

end Imflib.View.Contents
