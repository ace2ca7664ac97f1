import Imflib.Package.PlaylistReading

/-! The resources that a playlist holds in any of its sequences, listed or not. -/

namespace Imflib.Package.IMFCompositionPlaylist

variable {playlist after : IMFCompositionPlaylist} {resource : CPLResource}

def Held (playlist : IMFCompositionPlaylist) (resource : CPLResource) : Prop :=
  ∃ address, resource ∈ (playlist.sequence address).items

theorem Held.of_store (held : after.Held resource)
    (same : after.sequenceStore = playlist.sequenceStore) : playlist.Held resource := by
  obtain ⟨address, member⟩ := held
  exact ⟨address, by rwa [sequence, ← same]⟩

theorem Held.of_mem_resources (member : resource ∈ playlist.resources) :
    playlist.Held resource := by
  obtain ⟨address, -, inside⟩ := List.mem_flatMap.mp member
  exact ⟨address, inside⟩

theorem Held.of_alloc {sequence : CPLSequence} (held : after.Held resource)
    (same : after.sequenceStore = playlist.sequenceStore.alloc sequence) :
    playlist.Held resource ∨ resource ∈ sequence.items := by
  obtain ⟨address, member⟩ := held
  rw [IMFCompositionPlaylist.sequence, same] at member
  by_cases new : address = playlist.sequenceStore.size
  · rw [new, Store.cell_alloc_size] at member
    exact .inr member
  · rw [Store.cell_alloc_of_ne _ _ new] at member
    exact .inl ⟨address, member⟩

theorem Held.of_modifySequence {address : Nat} {change : CPLSequence → CPLSequence}
    (held : (playlist.modifySequence address change).Held resource) :
    playlist.Held resource ∨ resource ∈ (change (playlist.sequence address)).items := by
  obtain ⟨other, member⟩ := held
  by_cases same : other = address
  · rw [same, sequence_modifySequence_self] at member
    exact .inr member
  · rw [sequence_modifySequence_of_ne _ _ same] at member
    exact .inl ⟨other, member⟩

theorem sequenceStore_orNewVirtualTrack (playlist : IMFCompositionPlaylist) (found : Option Nat)
    (uuid : String) :
    (playlist.orNewVirtualTrack found uuid).1.sequenceStore = playlist.sequenceStore := by
  obtain ⟨virtualTracks, trackStore, same⟩ := playlist.orNewVirtualTrack_eq found uuid
  rw [same]

theorem editRate_orNewVirtualTrack (playlist : IMFCompositionPlaylist) (found : Option Nat)
    (uuid : String) : (playlist.orNewVirtualTrack found uuid).1.editRate = playlist.editRate := by
  obtain ⟨virtualTracks, trackStore, same⟩ := playlist.orNewVirtualTrack_eq found uuid
  rw [same]

theorem Held.of_placeSequences {segment : Nat} {sequences : List CPLSequence}
    (held : (sequences.foldl (placeSequence segment) playlist).Held resource) :
    playlist.Held resource ∨ ∃ sequence ∈ sequences, resource ∈ sequence.items := by
  induction sequences generalizing playlist with
  | nil => exact .inl held
  | cons sequence rest ih =>
      rcases ih held with placed | ⟨other, member, inside⟩
      · have store : (playlist.placeSequence segment sequence).sequenceStore =
            playlist.sequenceStore.alloc sequence :=
          congrArg (Store.alloc · sequence) (playlist.sequenceStore_orNewVirtualTrack _ _)
        rcases placed.of_alloc store with before | inside
        · exact .inl before
        · exact .inr ⟨sequence, List.mem_cons_self, inside⟩
      · exact .inr ⟨other, List.mem_cons_of_mem _ member, inside⟩

theorem Held.of_placeSegments {segments : List SegmentValue}
    (held : (segments.foldl placeSegment playlist).Held resource) : playlist.Held resource ∨
      ∃ segment ∈ segments, ∃ sequence ∈ segment.sequences, resource ∈ sequence.items := by
  induction segments generalizing playlist with
  | nil => exact .inl held
  | cons segment rest ih =>
      rcases ih held with placed | ⟨other, member, inside⟩
      · rcases Held.of_placeSequences placed with before | inside
        · exact .inl (before.of_store rfl)
        · exact .inr ⟨segment, List.mem_cons_self, inside⟩
      · exact .inr ⟨other, List.mem_cons_of_mem _ member, inside⟩

theorem not_held_new (uuid path : String) : ¬(new uuid path).Held resource := by
  intro held
  obtain ⟨address, member⟩ := held
  exact absurd member List.not_mem_nil

theorem mem_resources_of_held_build {path : String} {value : PlaylistValue}
    (held : (build path value).Held resource) : resource ∈ (build path value).resources := by
  have inside : ∃ segment ∈ value.segments, ∃ sequence ∈ segment.sequences,
      resource ∈ sequence.items := by
    rcases Held.of_placeSegments held with before | inside
    · exact absurd (before.of_store rfl) (not_held_new value.uuid path)
    · exact inside
  rw [← (build_spec path value).2.1] at inside
  obtain ⟨segment, listed, sequence, member, inside⟩ := inside
  obtain ⟨address, inPlaylist, rfl⟩ := List.mem_map.mp listed
  obtain ⟨item, inSegment, rfl⟩ := List.mem_map.mp member
  exact List.mem_flatMap.mpr ⟨item, mem_sequences_of_mem inPlaylist inSegment, inside⟩

theorem mem_resources_of_held {path : String} {pt : PTree} {tracks : List IMFTrack}
    (loaded : load path pt tracks = .ok playlist) (held : playlist.Held resource) :
    resource ∈ playlist.resources := by
  obtain ⟨value, -, rfl⟩ := eq_build_of_load loaded
  exact mem_resources_of_held_build held

end Imflib.Package.IMFCompositionPlaylist
