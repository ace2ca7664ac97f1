import Imflib.Base.Transition
import Imflib.Package.PlaylistRoundTrip
import Imflib.View.SequenceViewInvariant

/-! Well-formed timelines, and that the view keeps them well formed. -/

namespace Imflib.View

open Imflib.Package

namespace CPLSequenceView

variable (view : CPLSequenceView)

/-- What the user may rely on between two actions. Counts are over the objects themselves, so
that nothing is listed twice. -/
structure WellFormed : Prop where
  /-- Every sequence carries the identifier of one virtual track. -/
  carried : ∀ segment ∈ view.compositionPlaylist.segments,
    ∀ sequence ∈ (view.compositionPlaylist.segment segment).items,
    view.compositionPlaylist.virtualTracks.countP (fun track =>
      view.compositionPlaylist.trackUUID track =
        (view.compositionPlaylist.sequence sequence).virtualTrackId) = 1
  /-- That track lists the sequence once. -/
  listed : ∀ segment ∈ view.compositionPlaylist.segments,
    ∀ sequence ∈ (view.compositionPlaylist.segment segment).items,
    ∀ track ∈ view.compositionPlaylist.virtualTracks,
    view.compositionPlaylist.trackUUID track =
      (view.compositionPlaylist.sequence sequence).virtualTrackId →
    (view.compositionPlaylist.virtualTrack track).items.count sequence = 1
  /-- Every item of a virtual track is a sequence of one segment. -/
  grouped : ∀ track ∈ view.compositionPlaylist.virtualTracks,
    ∀ sequence ∈ (view.compositionPlaylist.virtualTrack track).items,
    view.compositionPlaylist.segments.countP (fun segment =>
      sequence ∈ (view.compositionPlaylist.segment segment).items) = 1
  segmentsFilled : ∀ segment ∈ view.compositionPlaylist.segments,
    (view.compositionPlaylist.segment segment).items ≠ []
  sequencesFilled : ∀ segment ∈ view.compositionPlaylist.segments,
    ∀ sequence ∈ (view.compositionPlaylist.segment segment).items,
    (view.compositionPlaylist.sequence sequence).items ≠ []
  tracksFilled : ∀ track ∈ view.compositionPlaylist.virtualTracks,
    (view.compositionPlaylist.virtualTrack track).items ≠ []
  /-- A segment has at most one sequence of a virtual track. -/
  onePerTrack : ∀ segment ∈ view.compositionPlaylist.segments,
    ∀ track ∈ view.compositionPlaylist.virtualTracks,
    (view.compositionPlaylist.segment segment).items.countP (fun sequence =>
      (view.compositionPlaylist.sequence sequence).virtualTrackId =
        view.compositionPlaylist.trackUUID track) ≤ 1
  /-- The map has the position of the virtual track of every sequence. -/
  positions : ∀ segment ∈ view.compositionPlaylist.segments,
    ∀ sequence ∈ (view.compositionPlaylist.segment segment).items,
    ∃ track, nextVirtualTrack view.compositionPlaylist (view.virtualTrackMap
        (view.compositionPlaylist.sequence sequence).virtualTrackId) = some track ∧
      view.compositionPlaylist.trackUUID track =
        (view.compositionPlaylist.sequence sequence).virtualTrackId
  /-- So has every rectangle that is drawn for a sequence. -/
  drawn : ∀ segmentRect ∈ view.scene, ∀ sequenceRect ∈ segmentRect.sequences,
    ∃ track, nextVirtualTrack view.compositionPlaylist sequenceRect.trackIndex = some track ∧
      view.compositionPlaylist.trackUUID track =
        (view.compositionPlaylist.sequence sequenceRect.sequence).virtualTrackId

/-- A playlist that is shown first is empty or loaded. A loaded one has distinct identifiers, no
empty segments and sequences, and in a segment no two sequences of one virtual track. -/
inductive Initial : IMFCompositionPlaylist → Prop where
  | empty {playlist : IMFCompositionPlaylist} (segments : playlist.segments = [])
      (virtualTracks : playlist.virtualTracks = []) : Initial playlist
  | loaded {playlist : IMFCompositionPlaylist} {path : String} {pt : PTree}
      {tracks : List IMFTrack} (read : IMFCompositionPlaylist.load path pt tracks = .ok playlist)
      (distinct : playlist.Distinct)
      (segments : ∀ segment ∈ playlist.segments, (playlist.segment segment).items ≠ [])
      (sequences : ∀ sequence ∈ playlist.sequences, (playlist.sequence sequence).items ≠ [])
      (onePerTrack : ∀ segment ∈ playlist.segments, ((playlist.segment segment).items.map
        fun sequence => (playlist.sequence sequence).virtualTrackId).Nodup) : Initial playlist

/-- A view that has just been given its playlist, whatever it showed before. -/
def Started (view : CPLSequenceView) : Prop :=
  ∃ (before : CPLSequenceView) (playlist : IMFCompositionPlaylist), Initial playlist ∧
    view = before.compositionPlaylistChanged playlist

def Step (view : CPLSequenceView) (action : Action) (next : CPLSequenceView) : Prop :=
  view.Enabled action ∧ view.perform action = some next

end CPLSequenceView

open IMFCompositionPlaylist

theorem Sound.of_initial {playlist : IMFCompositionPlaylist}
    (initial : CPLSequenceView.Initial playlist) : Sound playlist := by
  cases initial with
  | empty segments virtualTracks =>
      have sequences : playlist.sequences = [] := by
        rw [IMFCompositionPlaylist.sequences, segments]
        rfl
      have groups : playlist.index.groups = [] := segments
      have tracks : playlist.index.tracks = [] := virtualTracks
      exact
        { indexed := Indexed.of_empty segments virtualTracks
          distinct := by constructor <;> simp [segments, sequences]
          filled := by constructor <;> simp [groups, tracks]
          resources := by simp [sequences]
          onePerTrack := by simp [CrossIndex.OnePerTrack, groups] }
  | loaded read distinct segments sequences onePerTrack =>
      obtain ⟨indexed, tracksFilled⟩ := load_spec read
      exact
        { indexed := indexed
          distinct := distinct
          filled := ⟨segments, tracksFilled⟩
          resources := sequences
          onePerTrack := onePerTrack }

namespace CPLSequenceView

variable {view : CPLSequenceView}

theorem wellFormed_of_sound (shown : view.Shown) (sound : Sound view.compositionPlaylist) :
    view.WellFormed := by
  have consistent := sound.indexed.consistent
  have next {segment sequence : Nat} (member : segment ∈ view.compositionPlaylist.segments)
      (inside : sequence ∈ (view.compositionPlaylist.segment segment).items) :
      ∃ track, nextVirtualTrack view.compositionPlaylist (view.virtualTrackMap
          (view.compositionPlaylist.sequence sequence).virtualTrackId) = some track ∧
        view.compositionPlaylist.trackUUID track =
          (view.compositionPlaylist.sequence sequence).virtualTrackId := by
    obtain ⟨track, found, -, carried⟩ := shown.track sound.indexed member inside
    exact ⟨track, found, carried.symm⟩
  refine
    { carried := ?_
      listed := ?_
      grouped := ?_
      segmentsFilled := sound.filled.groups
      sequencesFilled := ?_
      tracksFilled := sound.filled.tracks
      onePerTrack := ?_
      positions := fun segment member sequence inside => next member inside
      drawn := ?_ }
  · intro segment member sequence inside
    exact consistent.countP_tracks (mem_sequences_of_mem member inside)
  · intro segment member sequence inside track trackMember same
    exact consistent.count_trackItems (mem_sequences_of_mem member inside) trackMember same.symm
  · intro track member sequence inside
    exact consistent.countP_groups ((consistent.listed track member sequence).mp inside).1
  · intro segment member sequence inside
    exact sound.resources sequence (mem_sequences_of_mem member inside)
  · intro segment member track _
    have atMostOnce := List.nodup_iff_count_le_one.mp (sound.onePerTrack segment member)
      (view.compositionPlaylist.trackUUID track)
    rw [List.count, List.countP_map] at atMostOnce
    refine le_trans (le_of_eq (List.countP_congr fun sequence _ => ?_)) atMostOnce
    rw [decide_eq_true_iff, Function.comp_apply, beq_iff_eq]
    exact Iff.rfl
  · intro segmentRect member sequenceRect inside
    rw [shown.scene] at member
    obtain ⟨segment, listed, rfl⟩ := List.mem_map.mp member
    obtain ⟨sequence, inSegment, rfl⟩ := List.mem_map.mp inside
    exact next listed inSegment

/-- Between two actions the view shows a sound playlist. -/
theorem shown_and_sound {start : CPLSequenceView} (started : Started start)
    (reached : Transition.Reachable Step start view) :
    view.Shown ∧ Sound view.compositionPlaylist := by
  refine reached.invariant (fun view => view.Shown ∧ Sound view.compositionPlaylist) ?_ ?_
  · obtain ⟨before, playlist, initial, rfl⟩ := started
    have sound := Sound.of_initial initial
    exact ⟨before.shown_of_changed sound.indexed.consistent.keys_nodup, sound⟩
  · intro state action next holds taken
    obtain ⟨shown, sound⟩ := holds
    obtain ⟨enabled, performed⟩ := taken
    obtain ⟨playlist, acted, result⟩ := act_sound shown sound enabled
    rw [perform, acted, Option.map_some] at performed
    cases Option.some.inj performed
    exact ⟨state.shown_of_changed result.indexed.consistent.keys_nodup, result⟩

/-- The timeline stays well formed under every run of actions, and no action is undefined. -/
theorem timeline_wellFormed {start view : CPLSequenceView} (started : Started start)
    (reached : Transition.Reachable Step start view) :
    view.WellFormed ∧ ∀ action, view.Enabled action → ∃ next, view.perform action = some next := by
  obtain ⟨shown, sound⟩ := shown_and_sound started reached
  refine ⟨wellFormed_of_sound shown sound, fun action enabled => ?_⟩
  obtain ⟨playlist, acted, -⟩ := act_sound shown sound enabled
  exact ⟨view.compositionPlaylistChanged playlist, by rw [perform, acted, Option.map_some]⟩

section Sample

def newView : CPLSequenceView :=
  (CPLSequenceView.mk (.new "" "") (fun _ => 0) []).compositionPlaylistChanged (.new "cpl" "cpl.xml")

def firstView : CPLSequenceView :=
  newView.compositionPlaylistChanged (createFirstSegmentAction newView.compositionPlaylist
    Sample.video ⟨"s1", "q1", "t1", "r1"⟩)

def secondView : CPLSequenceView :=
  firstView.compositionPlaylistChanged (addResourceAction firstView.compositionPlaylist
    ⟨0, [⟨0, 0, [standardResource "r1" Sample.video ⟨0, 0⟩]⟩]⟩ Sample.audio 40 ⟨"s2", "q2", "t2", "r2"⟩)

theorem step_firstView :
    Step newView (.createFirstSegment Sample.video ⟨"s1", "q1", "t1", "r1"⟩) firstView :=
  ⟨⟨rfl, by decide, by decide, by decide⟩, rfl⟩

theorem step_secondView :
    Step firstView (.addResource 0 Sample.audio 40 ⟨"s2", "q2", "t2", "r2"⟩) secondView :=
  ⟨⟨by decide, by decide, by decide, by decide⟩, rfl⟩

def loadedView : CPLSequenceView :=
  (CPLSequenceView.mk (.new "" "") (fun _ => 0) []).compositionPlaylistChanged
    IMFCompositionPlaylist.sample

theorem load_sample : ∃ tree, IMFCompositionPlaylist.sample.write = .ok tree ∧
    load "cpl.xml" tree [Sample.audio, Sample.video] = .ok IMFCompositionPlaylist.sample := by
  have written : ∃ tree, IMFCompositionPlaylist.sample.write = .ok tree := ⟨_, rfl⟩
  obtain ⟨tree, written⟩ := written
  have resolved : IMFCompositionPlaylist.sample.Resolved [Sample.audio, Sample.video] := by
    unfold Resolved
    decide
  have keeps : KeepsUUID id := fun _ => rfl
  have read := readPlaylist_written keeps written (by decide) resolved
  rw [List.map_id] at read
  refine ⟨tree, written, ?_⟩
  rw [load_eq, read]
  rfl

theorem started_loadedView : Started loadedView := by
  obtain ⟨tree, -, read⟩ := load_sample
  have distinct : IMFCompositionPlaylist.sample.Distinct := by constructor <;> decide
  exact ⟨_, _, .loaded read distinct (by decide) (by decide) (by decide), rfl⟩

/-- The video is deleted again, and with it its sequence and its virtual track, and the audio of the
playlist that was loaded. -/
theorem timeline_wellFormed_deleted :
    (∃ view, Transition.Reachable Step newView view ∧
      view.compositionPlaylist.virtualTracks.map view.compositionPlaylist.trackUUID = ["t2"] ∧
      view.WellFormed ∧
      ∀ action, view.Enabled action → ∃ next, view.perform action = some next) ∧
    ∃ view, Transition.Reachable Step loadedView view ∧
      view.compositionPlaylist.virtualTracks.map view.compositionPlaylist.trackUUID = ["v1"] ∧
      view.WellFormed ∧
      ∀ action, view.Enabled action → ∃ next, view.perform action = some next := by
  have started : Started newView := ⟨_, _, .empty rfl rfl, rfl⟩
  have third : Step secondView (.deleteResource 0 0 0) _ :=
    ⟨(rfl : (secondView.resourceAt 0 0 0).isSome = true), rfl⟩
  have reached := ((Transition.Reachable.refl.tail step_firstView).tail step_secondView).tail third
  have deleted : Step loadedView (.deleteResource 0 1 0) _ :=
    ⟨(rfl : (loadedView.resourceAt 0 1 0).isSome = true), rfl⟩
  have alsoReached := Transition.Reachable.refl.tail deleted
  exact ⟨⟨_, reached, by decide, timeline_wellFormed started reached⟩,
    ⟨_, alsoReached, by decide, timeline_wellFormed started_loadedView alsoReached⟩⟩

end Sample

end CPLSequenceView

end Imflib.View
