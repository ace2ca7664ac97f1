import Imflib.Package.Durations
import Imflib.Package.PlaylistCells
import Imflib.View.WellFormed

/-! What the actions of the user make of the resources of a playlist, new or loaded. -/

namespace Imflib.View

open Imflib.Package IMFCompositionPlaylist

variable {playlist after : IMFCompositionPlaylist} {resource : CPLResource}

/-- The resources after a change are those before it and one for a dropped track. The edit
rate stays. -/
structure Edited (playlist : IMFCompositionPlaylist) (dropped : Option (IMFTrack × String))
    (after : IMFCompositionPlaylist) : Prop where
  editRate : after.editRate = playlist.editRate
  held : ∀ resource, after.Held resource → playlist.Held resource ∨
    ∃ drop ∈ dropped, resource = standardResource drop.2 drop.1 playlist.editRate

namespace Edited

theorem of_alloc {sequence : CPLSequence} {track : IMFTrack} {madeUUID : String}
    (editRate : after.editRate = playlist.editRate)
    (store : after.sequenceStore = playlist.sequenceStore.alloc sequence)
    (items : sequence.items = [standardResource madeUUID track playlist.editRate]) :
    Edited playlist (some (track, madeUUID)) after := by
  refine ⟨editRate, fun resource held => ?_⟩
  rcases held.of_alloc store with before | inside
  · exact .inl before
  · rw [items] at inside
    exact .inr ⟨(track, madeUUID), rfl, List.mem_singleton.mp inside⟩

theorem of_link {prepared : IMFCompositionPlaylist} {sequence : CPLSequence} {track : IMFTrack}
    {madeUUID : String} (editRate : prepared.editRate = playlist.editRate)
    (store : prepared.sequenceStore = playlist.sequenceStore)
    (items : sequence.items = [standardResource madeUUID track playlist.editRate])
    (segment address : Nat) :
    Edited playlist (some (track, madeUUID)) (prepared.link segment address sequence) := by
  apply of_alloc (editRate ▸ rfl) _ items
  rw [← store]
  rfl

theorem of_modifySequence {address : Nat} {change : CPLSequence → CPLSequence}
    {dropped : Option (IMFTrack × String)}
    (items : ∀ resource ∈ (change (playlist.sequence address)).items,
      resource ∈ (playlist.sequence address).items ∨
        ∃ drop ∈ dropped, resource = standardResource drop.2 drop.1 playlist.editRate) :
    Edited playlist dropped (playlist.modifySequence address change) := by
  refine ⟨rfl, fun resource held => ?_⟩
  rcases held.of_modifySequence with before | inside
  · exact .inl before
  · exact (items resource inside).imp_left fun member => ⟨address, member⟩

theorem of_store {last : IMFCompositionPlaylist} {dropped : Option (IMFTrack × String)}
    (edited : Edited playlist dropped after) (editRate : last.editRate = after.editRate)
    (store : last.sequenceStore = after.sequenceStore) : Edited playlist dropped last :=
  ⟨editRate.trans edited.editRate, fun resource held => edited.held resource (held.of_store store)⟩

theorem createFirstSegment (playlist : IMFCompositionPlaylist) (track : IMFTrack)
    (made : MadeUUIDs) : Edited playlist (some (track, made.resource))
      (createFirstSegmentAction playlist track made) := by
  rw [createFirstSegmentAction_eq]
  apply of_link
  · rfl
  · rfl
  · rfl

theorem insertSegment (playlist : IMFCompositionPlaylist) (segmentRect : CPLSegmentRect)
    (track : IMFTrack) (y : Int) (append : Bool) (made : MadeUUIDs) :
    Edited playlist (some (track, made.resource))
      (insertSegmentAction playlist segmentRect track y append made) := by
  obtain ⟨segments, -, same⟩ := insertSegmentAction_eq playlist segmentRect track y append made
  rw [same]
  apply of_link
  · exact playlist.editRate_orNewVirtualTrack _ _
  · exact playlist.sequenceStore_orNewVirtualTrack _ _
  · rfl

theorem insertResource (playlist : IMFCompositionPlaylist) (sequenceRect : CPLSequenceRect)
    (shown : CPLResource) (track : IMFTrack) (append : Bool) (made : MadeUUIDs) :
    Edited playlist (some (track, made.resource))
      (insertResourceAction playlist sequenceRect shown track append made) := by
  apply of_modifySequence
  intro resource inside
  have perm : (if append then KeyedList.insertAfter CPLResource.uuid shown.uuid
      (standardResource made.resource track playlist.editRate)
        (playlist.sequence sequenceRect.sequence).items
      else KeyedList.insertBefore CPLResource.uuid shown.uuid
        (standardResource made.resource track playlist.editRate)
          (playlist.sequence sequenceRect.sequence).items).Perm
      (standardResource made.resource track playlist.editRate ::
        (playlist.sequence sequenceRect.sequence).items) := by
    cases append with
    | true => exact KeyedList.insertAfter_perm CPLResource.uuid _ _ _
    | false => exact KeyedList.insertBefore_perm CPLResource.uuid _ _ _
  rcases List.mem_cons.mp (perm.mem_iff.mp inside) with new | old
  · exact .inr ⟨(track, made.resource), rfl, new⟩
  · exact .inl old

theorem addResource (playlist : IMFCompositionPlaylist) (segmentRect : CPLSegmentRect)
    (track : IMFTrack) (y : Int) (made : MadeUUIDs) :
    Edited playlist (some (track, made.resource))
      (addResourceAction playlist segmentRect track y made) := by
  rcases addResourceAction_eq playlist segmentRect track y made with
    ⟨virtualTrack, sequence, -, -, same⟩ | ⟨-, same⟩
  · rw [same]
    apply of_modifySequence
    intro resource inside
    rcases List.mem_append.mp inside with old | new
    · exact .inl old
    · exact .inr ⟨(track, made.resource), rfl, List.mem_singleton.mp new⟩
  · rw [same]
    apply of_link
    · exact playlist.editRate_orNewVirtualTrack _ _
    · exact playlist.sequenceStore_orNewVirtualTrack _ _
    · rfl

theorem deleteResource {segmentRect : CPLSegmentRect} {sequenceRect : CPLSequenceRect}
    {shown : CPLResource}
    (deleted : deleteResourceAction playlist segmentRect sequenceRect shown = some after) :
    Edited playlist none after := by
  have dropped : Edited playlist none
      (playlist.deleteFromSequence sequenceRect.sequence shown) := by
    apply of_modifySequence
    intro resource inside
    exact .inl ((KeyedList.delete_sublist CPLResource.uuid _ _).subset inside)
  simp only [deleteResourceAction] at deleted
  split at deleted
  · split at deleted
    · cases deleted
    · -- What is cleaned up is only taken out of lists.
      split at deleted <;> split at deleted <;> cases Option.some.inj deleted <;>
        exact dropped.of_store rfl rfl
  · cases Option.some.inj deleted
    exact dropped

end Edited

def Action.dropped : Action → Option (IMFTrack × String)
  | .createFirstSegment track made => some (track, made.resource)
  | .insertSegment _ track _ _ made => some (track, made.resource)
  | .insertResource _ _ _ track _ made => some (track, made.resource)
  | .addResource _ track _ made => some (track, made.resource)
  | .deleteResource _ _ _ => none

namespace CPLSequenceView

variable {view : CPLSequenceView}

theorem act_edited {action : Action} (acted : view.act action = some after) :
    Edited view.compositionPlaylist action.dropped after := by
  cases action with
  | createFirstSegment track made =>
      simp only [act] at acted
      split at acted
      · cases Option.some.inj acted
        exact Edited.createFirstSegment _ track made
      · cases acted
  | insertSegment segment track y append made =>
      obtain ⟨segmentRect, -, rfl⟩ := Option.map_eq_some_iff.mp acted
      exact Edited.insertSegment _ segmentRect track y append made
  | insertResource segment sequence resource track append made =>
      obtain ⟨⟨segmentRect, sequenceRect, shown⟩, -, rfl⟩ := Option.map_eq_some_iff.mp acted
      exact Edited.insertResource _ sequenceRect shown track append made
  | addResource segment track y made =>
      obtain ⟨segmentRect, -, rfl⟩ := Option.map_eq_some_iff.mp acted
      exact Edited.addResource _ segmentRect track y made
  | deleteResource segment sequence resource =>
      obtain ⟨⟨segmentRect, sequenceRect, shown⟩, -, deleted⟩ := Option.bind_eq_some_iff.mp acted
      exact Edited.deleteResource deleted

inductive Opened : IMFCompositionPlaylist → Prop where
  | new (uuid path : String) (editRate : RationalNumber) (header : XMLHeaderCompositionPlaylist) :
      Opened { IMFCompositionPlaylist.new uuid path with editRate := editRate, header := header }
  | loaded {playlist : IMFCompositionPlaylist} {path : String} {pt : PTree}
      {tracks : List IMFTrack} (read : IMFCompositionPlaylist.load path pt tracks = .ok playlist) :
      Opened playlist

theorem Opened.mem_resources (opened : Opened playlist) (held : playlist.Held resource) :
    resource ∈ playlist.resources := by
  cases opened with
  | new uuid path => exact absurd (held.of_store rfl) (not_held_new uuid path)
  | loaded read => exact mem_resources_of_held read held

/-- An action that has a result, whatever identifiers it makes. -/
def Performs (view : CPLSequenceView) (action : Action) (next : CPLSequenceView) : Prop :=
  view.perform action = some next

theorem Performs.edited {action : Action} {next : CPLSequenceView}
    (performed : view.Performs action next) :
    Edited view.compositionPlaylist action.dropped next.compositionPlaylist := by
  obtain ⟨playlist, acted, rfl⟩ := Option.map_eq_some_iff.mp performed
  exact act_edited acted

theorem all_held (good : RationalNumber → CPLResource → Prop) {before : CPLSequenceView}
    {trace : List (CPLSequenceView × Action)} (opened : Opened playlist)
    (start : ∀ resource ∈ playlist.resources, good playlist.editRate resource)
    (run : Transition.Run Performs (before.compositionPlaylistChanged playlist) trace view)
    (drops : Transition.Guarded (fun _ action => ∀ drop ∈ action.dropped,
      good playlist.editRate (standardResource drop.2 drop.1 playlist.editRate)) trace) :
    view.compositionPlaylist.editRate = playlist.editRate ∧
      ∀ resource, view.compositionPlaylist.Held resource → good playlist.editRate resource := by
  refine run.invariant (fun view => view.compositionPlaylist.editRate = playlist.editRate ∧
    ∀ resource, view.compositionPlaylist.Held resource → good playlist.editRate resource)
      ?_ ?_ drops
  · exact ⟨rfl, fun resource held => start resource (opened.mem_resources held)⟩
  · intro state action next holds met performed
    obtain ⟨editRate, all⟩ := holds
    have edited := Performs.edited performed
    refine ⟨edited.editRate.trans editRate, fun resource held => ?_⟩
    rcases edited.held resource held with old | ⟨drop, dropped, new⟩
    · exact all resource old
    · rw [new, editRate]
      exact met drop dropped

/-- As long as every dropped track lasts a whole number of units, and the playlist does not
become too long, all durations are right. -/
theorem durations_of_run (opened : Opened playlist)
    (positive : playlist.editRate.Positive)
    (start : ∀ resource ∈ playlist.resources, resource.Whole playlist.editRate)
    {before : CPLSequenceView} {trace : List (CPLSequenceView × Action)}
    (run : Transition.Run Performs (before.compositionPlaylistChanged playlist) trace view)
    (drops : Transition.Guarded (fun _ action => ∀ drop ∈ action.dropped,
      (standardResource drop.2 drop.1 playlist.editRate).Whole playlist.editRate) trace)
    (short : (view.compositionPlaylist.segments.map
      view.compositionPlaylist.segmentTime).sum < 2 ^ 31) :
    view.compositionPlaylist.Durations := by
  obtain ⟨editRate, held⟩ :=
    all_held (fun editRate resource => resource.Whole editRate) opened start run drops
  have whole : ∀ resource ∈ view.compositionPlaylist.resources,
      resource.Whole view.compositionPlaylist.editRate :=
    fun resource listed => editRate ▸ held resource (.of_mem_resources listed)
  exact durations_of_countedInFull (editRate ▸ positive)
    (fun resource listed => (whole resource listed).rate) (countedInFull_of_whole whole short)

end CPLSequenceView

end Imflib.View
